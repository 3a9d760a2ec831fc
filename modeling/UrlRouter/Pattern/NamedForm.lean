/-
The named form of a pattern: one regular expression with nested optional groups and named captures.

An attribute whose name is no identifier is captured under an alias, which differs from every attribute's name.
-/
import UrlRouter.Pattern.Constraint

namespace UrlRouter.Pattern

/-- A regular expression with the attribute behind each of its named groups. -/
structure NamedForm where
  regex : String
  captures : List (String × String)
  deriving DecidableEq, Repr

namespace NamedForm

def attributes (form : NamedForm) : List String := form.captures.map (·.2)

end NamedForm

/-- `candidate` with underscores in front until no attribute is called so; `limit` of them are tried. -/
def freshAlias (names : List String) (candidate : String) : Nat → String
  | 0 => candidate
  | limit + 1 => if names.contains candidate then freshAlias names ("_" ++ candidate) limit else candidate

/-- the group name for the attribute `name`, the `i`th of the pattern -/
def aliasFor (names : List String) (i : Nat) (name : String) : String :=
  if Text.isIdentifier name then name else freshAlias names ("_a" ++ toString i) names.length

/-- the group name and the name of each attribute -/
def captureAliases (names : List String) : List (String × String) :=
  names.zipIdx.map fun (name, i) => (aliasFor names i name, name)

/-- the alias of an attribute -/
def aliasOf (captures : List (String × String)) (name : String) : String :=
  ((captures.find? (·.2 == name)).map (·.1)).getD name

/-- Pieces with a named group for each token. -/
def renderNamed (pattern : String) (overrides : Overrides) (captures : List (String × String)) :
    List Piece → Except Error String
  | [] => .ok ""
  | .literal text :: rest => do return text ++ (← renderNamed pattern overrides captures rest)
  | .token t :: rest => do
    let constraint ← resolveConstraint t overrides (some pattern)
    let tail ← renderNamed pattern overrides captures rest
    return "(?P<" ++ aliasOf captures t.name ++ ">" ++ constraint ++ ")" ++ tail

/-- Segments as optional groups, each inside the one before. -/
def nested : List String → String
  | [] => ""
  | segment :: rest => "(?:" ++ segment ++ nested rest ++ ")?"

/-- The whole expression. In a chain that opens the pattern the first slash is not optional. -/
def assemble (optionalStart : Bool) (base : String) (segments : List String) : String :=
  match optionalStart, segments with
  | true, first :: rest => "/" ++ nested (String.ofList (first.toList.drop 1) :: rest)
  | _, _ => base ++ nested segments

def NamedForm.parse (pattern : String) (overrides : Overrides) : Except Error NamedForm := do
  if pattern = "" || pattern = "/" then return ⟨"/", []⟩
  if !isDynamic pattern then return ⟨pattern, []⟩
  let layout ← analyze pattern
  let captures := captureAliases layout.names
  let segments ← layout.segments.mapM (renderNamed pattern overrides captures)
  let base ← renderNamed pattern overrides captures layout.base
  let regex := assemble layout.optionalStart base segments
  let _ ← compileOr (.invalidRegex regex) (some pattern) regex
  return ⟨regex, captures⟩

end UrlRouter.Pattern
