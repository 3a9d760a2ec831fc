/-
The constraint of a token.

Its own constraint comes first, then the one given for its name, then the class of everything but a slash. A given
constraint must be a regular expression without named groups.
-/
import UrlRouter.Pattern.Layout
import UrlRouter.Regex.Compile

namespace UrlRouter.Pattern

/-- constraints by attribute name -/
abbrev Overrides := List (String × String)

def defaultConstraint : String := "[^/]+"

/-- A regular expression's own faults become faults of the pattern; limits of the engine pass through. -/
def compileOr (fault : Regex.CompileError → Fault) (pattern : Option String) (regex : String) :
    Except Error Regex :=
  match Regex.compile regex with
  | .ok compiled => .ok compiled
  | .error (.malformed problem position) => .error (.fault (fault (.malformed problem position)) pattern)
  | .error cause => .error (.limit cause)

/-- Refuses named groups other than the `allowed` ones. -/
def rejectNamedGroups (pattern : Option String) (allowed : List String) (regex : Regex) : Except Error Unit :=
  match (regex.names.map (·.1)).filter (!allowed.contains ·) with
  | [] => .ok ()
  | names => .error (.fault (.namedGroups (names.mergeSort fun a b => a ≤ b)) pattern)

/-- The constraint that a token asks for before it is checked; none is the default class. -/
def Token.givenConstraint? (token : Token) (overrides : Overrides) : Option String :=
  match token.constraint with
  | some constraint => some constraint
  | none =>
    match overrides.lookup token.name with
    | some "" | none => none
    | some override => some (Text.trimmed override)

def resolveConstraint (token : Token) (overrides : Overrides) (pattern : Option String) : Except Error String :=
  match token.givenConstraint? overrides with
  | none => .ok defaultConstraint
  | some constraint => do
    let compiled ← compileOr (.invalidConstraint constraint token.name) pattern constraint
    rejectNamedGroups pattern [] compiled
    return constraint

/-- a resolved constraint, looked up by the token's name -/
def constraintOf (constraints : List (String × String)) (token : Token) : String :=
  (constraints.lookup token.name).getD defaultConstraint

end UrlRouter.Pattern
