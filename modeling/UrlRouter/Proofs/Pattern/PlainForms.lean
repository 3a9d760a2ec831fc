/-
The forms of plain layouts.

A plain layout is regular: its literals stand for themselves, and the constraint of every token is the default one, a run
of non-slashes that holds no group. So the groups of its expressions are those around the tokens, numbered as they come.

Results:
- `Layout.IsPlain.isRegular`: plain layouts are regular.
- `pieceItems_literal`, `pieceItems_token`: what plain pieces are read as.
- `tokenGroups_of_plain`: the groups around the tokens are numbered through.
-/
import Mathlib.Tactic
import UrlRouter.Proofs.Pattern.RegularForms

namespace UrlRouter.Pattern

open Regex (Composite Item Node)

/-! ## Literals and tokens -/

/-- a run of non-slashes, as long as there is one -/
def nonSlashes : Node := .loop .greedy 1 none (.char {} (.notCode '/'.toNat))

theorem exists_defaultBody :
    ∃ body, Regex.Body.ofText? defaultConstraint = some body ∧ body.root = nonSlashes ∧ body.groups = 0 := by
  have hread : (Regex.Body.ofText? defaultConstraint).map (fun body => (body.root, body.groups)) =
      some (nonSlashes, 0) := by decide +kernel
  obtain ⟨body, hbody, heq⟩ := Option.map_eq_some_iff.1 hread
  exact ⟨body, hbody, congrArg (·.1) heq, congrArg (·.2) heq⟩

variable {overrides : Overrides}

theorem constraintText_of_plain {token : Token} (h : PlainToken overrides token) :
    token.constraintText overrides = defaultConstraint := by
  rcases h with ⟨hown, hgiven⟩ | hgiven
  · rcases hgiven with hgiven | hgiven <;> simp [Token.constraintText, Token.givenConstraint?, hown, hgiven]
  · rw [Token.constraintText, hgiven]
    rfl

theorem constraintOf_default {constraints : List (String × String)}
    (h : ∀ entry ∈ constraints, entry.2 = defaultConstraint) (token : Token) :
    constraintOf constraints token = defaultConstraint := by
  unfold constraintOf
  cases hlookup : constraints.lookup token.name with
  | none => rfl
  | some constraint =>
    obtain ⟨before, after, hsplit, -⟩ := List.lookup_eq_some_iff.1 hlookup
    exact h (token.name, constraint) (by simp [hsplit])

theorem bodyOf_of_plain {token : Token} (h : PlainToken overrides token) :
    (bodyOf overrides token).root = nonSlashes ∧ (bodyOf overrides token).groups = 0 := by
  obtain ⟨body, hbody, hspec⟩ := exists_defaultBody
  rw [bodyOf, constraintText_of_plain h, hbody]
  exact hspec

theorem literal?_of_plain {text : String} (h : PlainLiteral text) :
    Regex.literal? text = some (Composite.ordinary text.toList) := by
  have hread := Regex.literal?_ordinary h
  rwa [String.ofList_toList] at hread

theorem literalOf_of_plain {text : String} (h : PlainLiteral text) : literalOf text = Composite.ordinary text.toList := by
  rw [literalOf, literal?_of_plain h]
  rfl

theorem Piece.IsPlain.isRegular {piece : Piece} (h : piece.IsPlain overrides) : piece.IsRegular overrides := by
  cases piece with
  | literal text =>
    show (Regex.literal? text).isSome = true
    rw [literal?_of_plain h]
    rfl
  | token t =>
    obtain ⟨body, hbody, -⟩ := exists_defaultBody
    show (Regex.Body.ofText? (t.constraintText overrides)).isSome = true
    rw [constraintText_of_plain h, hbody]
    rfl

/-! ## Plain layouts are regular -/

theorem PlainPieces.isRegular {pieces : List Piece} (h : PlainPieces overrides pieces) : RegularPieces overrides pieces :=
  fun piece hpiece => (plainPieces_iff.1 h piece hpiece).isRegular

theorem plain_slash (overrides : Overrides) : (Piece.literal "/").IsPlain overrides := by
  intro c hc
  obtain rfl : c = '/' := by simpa using hc
  decide

/-- A variant has no other pieces than the layout, apart from a slash of its own. -/
theorem plain_of_mem_variants {layout : Layout} (h : layout.IsPlain overrides) {pieces : List Piece}
    (hpieces : pieces ∈ layout.variants) : PlainPieces overrides pieces := by
  rcases prefix_of_mem_variants hpieces with ⟨-, rfl⟩ | ⟨hbegins, -⟩
  · exact plainPieces_iff.2 fun piece hpiece => List.mem_singleton.1 hpiece ▸ plain_slash overrides
  · exact h.of_subset hbegins.subset

theorem plain_withoutSlash {pieces : List Piece} (h : PlainPieces overrides pieces) :
    PlainPieces overrides (withoutSlash pieces) := by
  cases pieces with
  | nil => exact h
  | cons piece rest =>
    cases piece with
    | token t => exact h
    | literal text =>
      rw [plainPieces_iff] at h ⊢
      intro other hother
      rcases List.mem_cons.1 hother with rfl | hother
      · intro c hc
        rw [String.toList_ofList] at hc
        exact h _ List.mem_cons_self c (List.mem_of_mem_drop hc)
      · exact h other (List.mem_cons_of_mem _ hother)

/-- The parts of the named form are plain, too. -/
theorem plain_namedParts {layout : Layout} (h : layout.IsPlain overrides) :
    PlainPieces overrides ((namedParts layout).1 ++ (namedParts layout).2.flatten) := by
  unfold namedParts
  split_ifs with hstart
  · rw [Layout.IsPlain, Layout.pieces, (optionalStart_iff.1 hstart).1, List.nil_append] at h
    cases hsegments : layout.segments with
    | nil => exact plainPieces_iff.2 fun piece hpiece => List.mem_singleton.1 hpiece ▸ plain_slash overrides
    | cons first rest =>
      rw [hsegments, List.flatten_cons] at h
      have hfirst := plainPieces_iff.1 (plain_withoutSlash (h.of_subset (List.subset_append_left _ _)))
      have hrest := plainPieces_iff.1 (h.of_subset (List.subset_append_right _ _))
      show PlainPieces overrides (.literal "/" :: (withoutSlash first ++ rest.flatten))
      refine plainPieces_iff.2 fun piece hpiece => ?_
      rcases List.mem_cons.1 hpiece with rfl | hpiece
      · exact plain_slash overrides
      · exact (List.mem_append.1 hpiece).elim (hfirst piece) (hrest piece)
  · exact h

/-- **Plain layouts are regular.** -/
theorem Layout.IsPlain.isRegular {layout : Layout} (h : layout.IsPlain overrides) : layout.IsRegular overrides :=
  (plain_namedParts h).isRegular

/-! ## What plain pieces are read as -/

theorem PlainPieces.rest {piece : Piece} {rest : List Piece} (h : PlainPieces overrides (piece :: rest)) :
    PlainPieces overrides rest := h.of_subset (List.subset_cons_self piece rest)

theorem pieceItems_literal {text : String} {rest : List Piece} (h : PlainPieces overrides (.literal text :: rest))
    (n : Nat) : pieceItems overrides n (.literal text :: rest) =
      (Composite.ordinary text.toList).items n ++ pieceItems overrides n rest := by
  rw [pieceItems, literalOf_of_plain (h.literals text List.mem_cons_self), Composite.groups_ordinary, Nat.add_zero]

theorem pieceItems_token {t : Token} {rest : List Piece} (h : PlainPieces overrides (.token t :: rest)) (n : Nat) :
    pieceItems overrides n (.token t :: rest) = ⟨.group n nonSlashes, .yes⟩ :: pieceItems overrides (n + 1) rest := by
  obtain ⟨hroot, hgroups⟩ := bodyOf_of_plain (h.tokens t List.mem_cons_self)
  rw [pieceItems, hroot, hgroups, Nat.add_zero]
  rfl

theorem tokenCount_token (t : Token) (rest : List Piece) : tokenCount (.token t :: rest) = 1 + tokenCount rest := by
  rw [tokenCount, List.filterMap_cons, Nat.add_comm]
  rfl

/-- Plain pieces have no groups but those around their tokens. -/
theorem pieceGroups_of_plain {pieces : List Piece} (h : PlainPieces overrides pieces) :
    pieceGroups overrides pieces = tokenCount pieces := by
  induction pieces with
  | nil => rfl
  | cons piece rest ih =>
    cases piece with
    | literal text =>
      rw [pieceGroups, literalOf_of_plain (h.literals text List.mem_cons_self), Composite.groups_ordinary, Nat.zero_add,
        ih h.rest]
      rfl
    | token t =>
      rw [pieceGroups, (bodyOf_of_plain (h.tokens t List.mem_cons_self)).2, Nat.add_zero, ih h.rest, tokenCount_token]

/-- **The groups around the tokens of plain pieces** are numbered through. -/
theorem tokenGroups_of_plain {pieces : List Piece} (h : PlainPieces overrides pieces) (n : Nat) :
    tokenGroups overrides n pieces = List.range' n (tokenCount pieces) := by
  induction pieces generalizing n with
  | nil => rfl
  | cons piece rest ih =>
    cases piece with
    | literal text =>
      rw [tokenGroups, literalOf_of_plain (h.literals text List.mem_cons_self), Composite.groups_ordinary, Nat.add_zero,
        ih h.rest]
      rfl
    | token t =>
      rw [tokenGroups, (bodyOf_of_plain (h.tokens t List.mem_cons_self)).2, Nat.add_zero, ih h.rest, tokenCount_token,
        Nat.add_comm 1, List.range'_succ]

theorem mem_tokens_of_plain {layout : Layout} (h : layout.IsPlain overrides) :
    ∀ token ∈ layout.tokens, PlainToken overrides token := by
  intro token htoken
  rw [Layout.tokens_eq, token_mem_iff] at htoken
  exact h.tokens token htoken

end UrlRouter.Pattern
