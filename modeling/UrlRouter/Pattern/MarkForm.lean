/-
The positional form of a pattern: one regular expression per variant.

Every attribute is a group, known by its number. The numbers are found by compiling the variant once with a named
group around each token, because literals and constraints may hold groups of their own.
-/
import UrlRouter.Pattern.Constraint

namespace UrlRouter.Pattern

/-- For every variant its regular expression and the group number of each attribute in it. -/
structure MarkForm where
  variants : List String
  attributes : List String
  groups : List (List Nat)
  deriving DecidableEq, Repr

/-- the name of the group put around the `i`th token to find its number -/
def markerName (i : Nat) : String := "_sw" ++ toString i

/-- A variant with a named group around each token; `i` tokens came before. -/
def renderMarked (constraint : Token → String) (i : Nat) : List Piece → String
  | [] => ""
  | .literal text :: rest => text ++ renderMarked constraint i rest
  | .token t :: rest => "(?P<" ++ markerName i ++ ">" ++ constraint t ++ ")" ++ renderMarked constraint (i + 1) rest

def groupNumbers (constraint : Token → String) (pattern : String) (pieces : List Piece) :
    Except Error (List Nat) := do
  let markers := (List.range (pieces.filterMap Piece.token?).length).map markerName
  let marked := renderMarked constraint 0 pieces
  let compiled ← compileOr (.invalidRegex marked) (some pattern) marked
  rejectNamedGroups (some pattern) markers compiled
  markers.mapM fun marker =>
    match compiled.groupNumber? marker with
    | some n => .ok n
    | none => .error (.lostGroup marker)

def MarkForm.parse (pattern : String) (overrides : Overrides) : Except Error MarkForm := do
  if pattern = "" || pattern = "/" then return ⟨["/"], [], [[]]⟩
  if !isDynamic pattern then
    let compiled ← compileOr (.invalidRegex pattern) (some pattern) pattern
    rejectNamedGroups (some pattern) [] compiled
    return ⟨[pattern], [], [[]]⟩
  let layout ← analyze pattern
  let constraints ← layout.tokens.mapM fun token => do
    return (token.name, ← resolveConstraint token overrides (some pattern))
  let constraint := constraintOf constraints
  let groups ← layout.variants.mapM (groupNumbers constraint pattern)
  return {
    variants := layout.variants.map (render fun token => "(" ++ constraint token ++ ")")
    attributes := layout.names
    groups }

end UrlRouter.Pattern
