/-
What can be wrong with a route pattern.

A fault is a cause that the pattern language knows; its text names the pattern when there is one. A limit of the
regular expression engine, and a token that the engine does not see as a group, are no faults of this language and
pass through as they are.
-/
import UrlRouter.Regex.Error

namespace UrlRouter.Pattern

inductive Fault where
  | unbalancedBraces
  | leadingChainWithoutSlash
  | exclamationChain
  | unclosedChain
  | nestedChain
  | emptySegment
  | invalidName (name : String)
  | duplicateAttribute (name : String)
  | invalidConstraint (constraint name : String) (cause : Regex.CompileError)
  | invalidRegex (regex : String) (cause : Regex.CompileError)
  | namedGroups (names : List String)
  deriving DecidableEq, Repr

def Fault.message : Fault → String
  | .unbalancedBraces => "Unbalanced braces"
  | .leadingChainWithoutSlash => "An optional chain opening the pattern must start with `/`"
  | .exclamationChain => "The `[!...]` optional syntax is no longer supported, use `[...]`"
  | .unclosedChain => "The optional chain must close the pattern"
  | .nestedChain => "Only one non-nested optional chain is allowed"
  | .emptySegment => "Empty optional segment"
  | .invalidName name => "Invalid parameter name: '" ++ name ++ "'"
  | .duplicateAttribute name => "Cannot use the same attribute twice [" ++ name ++ "]"
  | .invalidConstraint constraint name cause =>
    "Invalid constraint `" ++ constraint ++ "` for attribute [" ++ name ++ "]: " ++ cause.message constraint
  | .invalidRegex regex cause => "Invalid regex `" ++ regex ++ "`: " ++ cause.message regex
  | .namedGroups names =>
    "Named groups are not allowed in route regexes, use (?:...) instead: " ++ Text.quotedList names

/-- Why a pattern cannot be used. -/
inductive Error where
  | fault (fault : Fault) (pattern : Option String)
  | limit (cause : Regex.CompileError)
  | lostGroup (name : String)
  deriving DecidableEq, Repr

def Error.message : Error → String
  | .fault cause none => cause.message
  | .fault cause (some pattern) => cause.message ++ " in route pattern `" ++ pattern ++ "`"
  | .limit cause => cause.message ""
  | .lostGroup name => Text.quoted name

end UrlRouter.Pattern
