/-
What can be wrong with a regular expression.

Each cause carries what its wording needs; `CompileError.message` writes it out, with the place in the pattern where
there is one.
-/
import UrlRouter.Text.Quoted
import UrlRouter.Text.Numeral

namespace UrlRouter.Regex

inductive Problem where
  | escapeAtEnd
  | missing (what : String)
  | unterminatedName (terminator : Char)
  | incompleteEscape (escape : String)
  | undefinedCharacterName (name : String)
  | octalTooLarge (escape : String)
  | badEscape (escape : String)
  | openGroupReference
  | invalidGroupReference (group : Nat)
  | lookBehindGroupReference
  | unterminatedSet
  | badRange (first last : String)
  | repeatBoundsReversed
  | nothingToRepeat
  | multipleRepeat
  | patternEnds
  | unknownExtension (marker : String)
  | badGroupName (name : String)
  | unknownGroupName (name : String)
  | duplicateGroupName (name : String) (group earlier : Nat)
  | badGroupNumber
  | unterminatedComment
  | unterminatedGroup
  | tooManyBranches
  | lateGlobalFlags
  | localeFlag
  | incompatibleFlags
  | unknownFlag
  | globalFlagOn
  | typeFlagOff
  | globalFlagOff
  | flagOnAndOff
  | unbalancedParenthesis
  | behindTooFar
  | behindNotFixed
  | templateRepeat (operator : String)
  deriving DecidableEq, Repr

/-- Two causes are limits on numbers and one a clash of options; they are no faults of the expression's form. -/
inductive CompileError where
  | malformed (problem : Problem) (position : Option Nat)
  | repetitionTooLarge
  | numeralTooLong (digits : Nat)
  | asciiAndUnicode
  deriving DecidableEq, Repr

def Problem.message : Problem → String
  | .escapeAtEnd => "bad escape (end of pattern)"
  | .missing what => "missing " ++ what
  | .unterminatedName terminator => "missing " ++ terminator.toString ++ ", unterminated name"
  | .incompleteEscape escape => "incomplete escape " ++ escape
  | .undefinedCharacterName name => "undefined character name " ++ Text.quoted name
  | .octalTooLarge escape => "octal escape value " ++ escape ++ " outside of range 0-0o377"
  | .badEscape escape => "bad escape " ++ escape
  | .openGroupReference => "cannot refer to an open group"
  | .invalidGroupReference group => "invalid group reference " ++ toString group
  | .lookBehindGroupReference => "cannot refer to group defined in the same lookbehind subpattern"
  | .unterminatedSet => "unterminated character set"
  | .badRange first last => "bad character range " ++ first ++ "-" ++ last
  | .repeatBoundsReversed => "min repeat greater than max repeat"
  | .nothingToRepeat => "nothing to repeat"
  | .multipleRepeat => "multiple repeat"
  | .patternEnds => "unexpected end of pattern"
  | .unknownExtension marker => "unknown extension " ++ marker
  | .badGroupName name => "bad character in group name " ++ Text.quoted name
  | .unknownGroupName name => "unknown group name " ++ Text.quoted name
  | .duplicateGroupName name group earlier =>
    "redefinition of group name " ++ Text.quoted name ++ " as group " ++ toString group ++ "; was group " ++
      toString earlier
  | .badGroupNumber => "bad group number"
  | .unterminatedComment => "missing ), unterminated comment"
  | .unterminatedGroup => "missing ), unterminated subpattern"
  | .tooManyBranches => "conditional backref with more than two branches"
  | .lateGlobalFlags => "global flags not at the start of the expression"
  | .localeFlag => "bad inline flags: cannot use 'L' flag with a str pattern"
  | .incompatibleFlags => "bad inline flags: flags 'a', 'u' and 'L' are incompatible"
  | .unknownFlag => "unknown flag"
  | .globalFlagOn => "bad inline flags: cannot turn on global flag"
  | .typeFlagOff => "bad inline flags: cannot turn off flags 'a', 'u' and 'L'"
  | .globalFlagOff => "bad inline flags: cannot turn off global flag"
  | .flagOnAndOff => "bad inline flags: flag turned on and off"
  | .unbalancedParenthesis => "unbalanced parenthesis"
  | .behindTooFar => "looks too much behind"
  | .behindNotFixed => "look-behind requires fixed-width pattern"
  | .templateRepeat operator => "internal: unsupported template operator " ++ operator

/-- Line and column of a position, both counted from one. -/
def lineAndColumn (pattern : String) (position : Nat) : Nat × Nat :=
  let before := pattern.toList.take position
  (before.count '\n' + 1, (before.reverse.takeWhile (· ≠ '\n')).length + 1)

def CompileError.message (pattern : String) : CompileError → String
  | .malformed problem none => problem.message
  | .malformed problem (some position) =>
    let place := problem.message ++ " at position " ++ toString position
    if pattern.toList.contains '\n' then
      let (line, column) := lineAndColumn pattern position
      place ++ " (line " ++ toString line ++ ", column " ++ toString column ++ ")"
    else place
  | .repetitionTooLarge => "the repetition number is too large"
  | .numeralTooLong digits => Text.tooLongMessage digits
  | .asciiAndUnicode => "ASCII and UNICODE flags are incompatible"

end UrlRouter.Regex
