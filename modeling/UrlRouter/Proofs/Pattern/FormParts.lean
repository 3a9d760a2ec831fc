/-
The parts of the forms.

Both strategies render the pieces of a layout with a group around each token. The positional form numbers these groups to
find them again. The named form nests the optional segments in one expression and calls each group by an alias of its
attribute; in a chain that opens the pattern the first slash stays outside.

Results:
- `markerName_injective`, `isIdentifier_markerName`: the markers of the positional form differ and are identifiers.
- `tokens_namedParts`: the parts of the named form have the tokens of the layout, in order.
- `aliases_eq`, `isIdentifier_namedBy`: each token is called by its alias, which is an identifier.
-/
import Mathlib.Tactic
import UrlRouter.Pattern.MarkForm
import UrlRouter.Pattern.NamedForm
import UrlRouter.Proofs.Pattern.Aliases

namespace UrlRouter.Pattern

def tokenCount (pieces : List Piece) : Nat := (pieces.filterMap Piece.token?).length

theorem compileOr_ok {fault : Regex.CompileError → Fault} {pattern : Option String} {text : String} {regex : Regex}
    (h : Regex.compile text = .ok regex) : compileOr fault pattern text = .ok regex := by
  simp only [compileOr, h]

/-! ## The positional form -/

def unnamed : Nat → Token → Option String := fun _ _ => none

def marked : Nat → Token → Option String := fun i _ => some (markerName i)

theorem markerName_injective : Function.Injective markerName := by
  intro i j h
  have hlist := congrArg String.toList h
  simp only [markerName, String.toList_append, Text.toString_toList] at hlist
  exact Text.toDigits_inj (List.append_cancel_left hlist)

theorem isIdentifier_markerName (i : Nat) : Text.isIdentifier (markerName i) = true := by
  have hchars : (markerName i).toList = '_' :: ('s' :: 'w' :: Nat.toDigits 10 i) := by
    rw [markerName, String.toList_append, Text.toString_toList]
    rfl
  refine Text.isIdentifier_underscore hchars fun c hc => ?_
  rcases List.mem_cons.1 hc with rfl | hc
  · decide
  · rcases List.mem_cons.1 hc with rfl | hc
    · decide
    · exact Text.asciiWord_digits i c hc

/-! ## The named form -/

/-- a first segment without the slash that it starts with -/
def withoutSlash : List Piece → List Piece
  | .literal text :: rest => .literal (String.ofList (text.toList.drop 1)) :: rest
  | pieces => pieces

/-- Base and segments of the one expression; in a chain that opens the pattern the first slash is not optional. -/
def namedParts (layout : Layout) : List Piece × List (List Piece) :=
  if layout.optionalStart then
    match layout.segments with
    | [] => ([.literal "/"], [])
    | first :: rest => ([.literal "/"], withoutSlash first :: rest)
  else (layout.base, layout.segments)

def namedBy (captures : List (String × String)) (token : Token) : Option String := some (aliasOf captures token.name)

theorem filterMap_withoutSlash (pieces : List Piece) :
    (withoutSlash pieces).filterMap Piece.token? = pieces.filterMap Piece.token? := by
  cases pieces with
  | nil => rfl
  | cons piece rest => cases piece <;> rfl

/-- The parts have the tokens of the layout, in order. -/
theorem tokens_namedParts (layout : Layout) :
    ((namedParts layout).1 ++ (namedParts layout).2.flatten).filterMap Piece.token? = layout.tokens := by
  rw [Layout.tokens_eq, Layout.pieces, namedParts]
  split_ifs with hstart
  · rw [(optionalStart_iff.1 hstart).1]
    cases layout.segments with
    | nil => rfl
    | cons first rest =>
      rw [List.flatten_cons, List.flatten_cons, List.nil_append, List.filterMap_append, List.filterMap_append,
        List.filterMap_append, filterMap_withoutSlash]
      rfl
  · rfl

theorem aliases_eq {names : List String} (h : names.Nodup) :
    names.map (aliasOf (captureAliases names)) = (captureAliases names).map (·.1) := by
  rw [← captureAliases_names names, List.map_map, captureAliases_names]
  exact List.map_congr_left fun capture hcapture => aliasOf_captureAliases h hcapture

theorem isIdentifier_namedBy {layout : Layout} (h : layout.names.Nodup) {token : Token} (htoken : token ∈ layout.tokens) :
    ∀ name ∈ namedBy (captureAliases layout.names) token, Text.isIdentifier name = true := by
  intro name hname
  obtain rfl : aliasOf (captureAliases layout.names) token.name = name := by simpa [namedBy] using hname
  have hmem : aliasOf (captureAliases layout.names) token.name ∈ (captureAliases layout.names).map (·.1) := by
    rw [← aliases_eq h]
    exact List.mem_map_of_mem (List.mem_map_of_mem htoken)
  obtain ⟨capture, hcapture, heq⟩ := List.mem_map.1 hmem
  rw [← heq]
  exact isIdentifier_of_mem_captureAliases hcapture

end UrlRouter.Pattern
