/-
The forms of regular layouts.

A layout is regular when its literals are composite expressions and the constraints of its tokens are bodies. Both
strategies then compile composite expressions, made of the same items with the same numbers of their groups; only the
names of the groups and the nesting of the optional segments differ.

Results:
- `markForm_of_regular`: one expression per variant, with the groups around the tokens.
- `namedForm_of_regular`, `compile_namedComposite`: one expression with nested optional parts, which compiles.
- `regular_variants`: the variants of a regular layout are regular.
-/
import Mathlib.Tactic
import UrlRouter.Mapping
import UrlRouter.Proofs.Pattern.FormParts
import UrlRouter.Proofs.Pattern.Variants
import UrlRouter.Proofs.Regex.Literals

namespace UrlRouter.Pattern

open Regex (Composite Item literal?)

/-! ## Regular layouts -/

/-- the constraint of a token as a text -/
def Token.constraintText (overrides : Overrides) (token : Token) : String :=
  (token.givenConstraint? overrides).getD defaultConstraint

/-- A literal is a composite expression, the constraint of a token a body. -/
def Piece.IsRegular (overrides : Overrides) : Piece → Prop
  | .literal text => (literal? text).isSome
  | .token t => (Regex.Body.ofText? (t.constraintText overrides)).isSome

instance (overrides : Overrides) : DecidablePred (Piece.IsRegular overrides)
  | .literal text => inferInstanceAs (Decidable ((literal? text).isSome = true))
  | .token t => inferInstanceAs (Decidable ((Regex.Body.ofText? (t.constraintText overrides)).isSome = true))

def RegularPieces (overrides : Overrides) (pieces : List Piece) : Prop := ∀ piece ∈ pieces, piece.IsRegular overrides

instance (overrides : Overrides) (pieces : List Piece) : Decidable (RegularPieces overrides pieces) :=
  List.decidableBAll _ pieces

/-- All parts of the layout are regular; a slash that opens a chain is a part of its own. -/
def Layout.IsRegular (layout : Layout) (overrides : Overrides) : Prop :=
  RegularPieces overrides ((namedParts layout).1 ++ (namedParts layout).2.flatten)

instance (layout : Layout) (overrides : Overrides) : Decidable (layout.IsRegular overrides) :=
  inferInstanceAs (Decidable (RegularPieces _ _))

theorem RegularPieces.of_subset {overrides : Overrides} {pieces part : List Piece} (h : RegularPieces overrides pieces)
    (hsub : part ⊆ pieces) : RegularPieces overrides part := fun piece hpiece => h piece (hsub hpiece)

theorem literal?_slash {text : String} {e : Composite} (h : literal? text = some e) :
    literal? ("/" ++ text) = some (.single (.plain '/') ⟨.char {} (.code '/'.toNat), .yes⟩ e) := by
  have htext : "/" ++ text = String.ofList ('/' :: text.toList) := by
    apply String.toList_injective
    simp
  rw [htext]
  exact Regex.literal?_cons (by decide) (by rwa [String.ofList_toList])

theorem regular_slash (overrides : Overrides) : (Piece.literal "/").IsRegular overrides := by
  show (literal? "/").isSome = true
  decide +kernel

theorem regular_with_slash {overrides : Overrides} {text : String} (h : (Piece.literal text).IsRegular overrides) :
    (Piece.literal ("/" ++ text)).IsRegular overrides := by
  obtain ⟨e, he⟩ := Option.isSome_iff_exists.1 h
  show (literal? ("/" ++ text)).isSome = true
  rw [literal?_slash he]
  rfl

/-- The pieces of a regular layout are regular as they stand. -/
theorem Layout.IsRegular.pieces {layout : Layout} {overrides : Overrides} (hwell : layout.WellFormed)
    (h : layout.IsRegular overrides) : RegularPieces overrides layout.pieces := by
  cases hstart : layout.optionalStart with
  | false => simpa [Layout.IsRegular, namedParts, hstart, Layout.pieces] using h
  | true =>
    have hbase := (optionalStart_iff.1 hstart).1
    obtain ⟨text, first, rest, hsegments⟩ := hwell.slash hstart
    have hparts : RegularPieces overrides (.literal "/" :: .literal text :: (first ++ rest.flatten)) := by
      simpa [Layout.IsRegular, namedParts, hstart, hsegments, withoutSlash] using h
    intro piece hpiece
    rw [Layout.pieces, hbase, hsegments, List.nil_append, List.flatten_cons] at hpiece
    rcases List.mem_cons.1 hpiece with rfl | hpiece
    · exact regular_with_slash (hparts _ (by simp))
    · exact hparts piece (List.mem_cons_of_mem _ (List.mem_cons_of_mem _ hpiece))

/-- **The variants of a regular layout are regular.** -/
theorem regular_variants {layout : Layout} {overrides : Overrides} (hwell : layout.WellFormed)
    (h : layout.IsRegular overrides) {pieces : List Piece} (hpieces : pieces ∈ layout.variants) :
    RegularPieces overrides pieces := by
  rcases prefix_of_mem_variants hpieces with ⟨-, rfl⟩ | ⟨hbegins, -⟩
  · intro piece hpiece
    obtain rfl := List.mem_singleton.1 hpiece
    exact regular_slash overrides
  · exact (h.pieces hwell).of_subset hbegins.subset

theorem regular_tokens {layout : Layout} {overrides : Overrides} (h : layout.IsRegular overrides) {token : Token}
    (htoken : token ∈ layout.tokens) : (Piece.token token).IsRegular overrides := by
  rw [← tokens_namedParts, token_mem_iff] at htoken
  exact h _ htoken

/-! ## Expressions for pieces -/

def literalOf (text : String) : Composite := (literal? text).getD .done

variable (overrides : Overrides)

def bodyOf (token : Token) : Regex.Body := (Regex.Body.ofText? (token.constraintText overrides)).getD default

/-- Pieces in front of an expression; `naming` names the capture of each token, `i` tokens came before. -/
def compositeOf (naming : Nat → Token → Option String) (i : Nat) : List Piece → Composite → Composite
  | [], e => e
  | .literal text :: rest, e => (literalOf text).append (compositeOf naming i rest e)
  | .token t :: rest, e => .capture (naming i t) (bodyOf overrides t) (compositeOf naming (i + 1) rest e)

/-- optional segments, each inside the one before -/
def chainOf (naming : Token → Option String) : List (List Piece) → Composite
  | [] => .done
  | segment :: rest => .optional (compositeOf overrides (fun _ => naming) 0 segment (chainOf naming rest)) .done

/-- the number of groups of pieces -/
def pieceGroups : List Piece → Nat
  | [] => 0
  | .literal text :: rest => (literalOf text).groups + pieceGroups rest
  | .token t :: rest => 1 + (bodyOf overrides t).groups + pieceGroups rest

/-- what pieces are read as, the first group being number `n` -/
def pieceItems (n : Nat) : List Piece → List Item
  | [] => []
  | .literal text :: rest => (literalOf text).items n ++ pieceItems (n + (literalOf text).groups) rest
  | .token t :: rest =>
    ⟨.group n ((bodyOf overrides t).root.shift n), .yes⟩ :: pieceItems (n + 1 + (bodyOf overrides t).groups) rest

/-- the numbers of the groups around the tokens -/
def tokenGroups (n : Nat) : List Piece → List Nat
  | [] => []
  | .literal text :: rest => tokenGroups (n + (literalOf text).groups) rest
  | .token t :: rest => n :: tokenGroups (n + 1 + (bodyOf overrides t).groups) rest

theorem groups_compositeOf (naming : Nat → Token → Option String) (i : Nat) (pieces : List Piece) (e : Composite) :
    (compositeOf overrides naming i pieces e).groups = pieceGroups overrides pieces + e.groups := by
  induction pieces generalizing i with
  | nil => exact (Nat.zero_add _).symm
  | cons piece rest ih =>
    cases piece with
    | literal text => rw [compositeOf, Composite.groups_append, ih, pieceGroups, Nat.add_assoc]
    | token t => rw [compositeOf, Composite.groups, ih, pieceGroups, Nat.add_assoc _ (pieceGroups overrides rest)]

/-- Names make no difference to what is read. -/
theorem items_compositeOf (naming : Nat → Token → Option String) (i n : Nat) (pieces : List Piece) (e : Composite) :
    (compositeOf overrides naming i pieces e).items n =
      pieceItems overrides n pieces ++ e.items (n + pieceGroups overrides pieces) := by
  induction pieces generalizing i n with
  | nil => rfl
  | cons piece rest ih =>
    cases piece with
    | literal text =>
      rw [compositeOf, Composite.items_append, ih, pieceItems, pieceGroups, List.append_assoc, Nat.add_assoc]
    | token t =>
      rw [compositeOf, Composite.items, ih, pieceItems, pieceGroups, List.cons_append]
      simp only [Nat.add_assoc]

theorem pieceGroups_append (a b : List Piece) :
    pieceGroups overrides (a ++ b) = pieceGroups overrides a + pieceGroups overrides b := by
  induction a with
  | nil => exact (Nat.zero_add _).symm
  | cons piece rest ih => cases piece <;> simp only [List.cons_append, pieceGroups, ih, Nat.add_assoc]

theorem pieceItems_append (n : Nat) (a b : List Piece) :
    pieceItems overrides n (a ++ b) = pieceItems overrides n a ++ pieceItems overrides (n + pieceGroups overrides a) b := by
  induction a generalizing n with
  | nil => rfl
  | cons piece rest ih =>
    cases piece with
    | literal text => simp only [List.cons_append, pieceItems, pieceGroups, ih, List.append_assoc, Nat.add_assoc]
    | token t => simp only [List.cons_append, pieceItems, pieceGroups, ih, Nat.add_assoc]

theorem tokenGroups_append (n : Nat) (a b : List Piece) :
    tokenGroups overrides n (a ++ b) =
      tokenGroups overrides n a ++ tokenGroups overrides (n + pieceGroups overrides a) b := by
  induction a generalizing n with
  | nil => rfl
  | cons piece rest ih =>
    cases piece with
    | literal text => simp only [List.cons_append, tokenGroups, pieceGroups, ih, Nat.add_assoc]
    | token t => simp only [List.cons_append, tokenGroups, pieceGroups, ih, Nat.add_assoc]

theorem length_tokenGroups (n : Nat) (pieces : List Piece) :
    (tokenGroups overrides n pieces).length = tokenCount pieces := by
  induction pieces generalizing n with
  | nil => rfl
  | cons piece rest ih =>
    cases piece with
    | literal text => exact ih _
    | token t => exact congrArg (· + 1) (ih _)

/-- The tokens' groups are groups of the expression. -/
theorem tokenGroups_bounds (n : Nat) (pieces : List Piece) :
    ∀ g ∈ tokenGroups overrides n pieces, n ≤ g ∧ g < n + pieceGroups overrides pieces := by
  induction pieces generalizing n with
  | nil => exact fun g hg => absurd hg List.not_mem_nil
  | cons piece rest ih =>
    cases piece with
    | literal text =>
      intro g hg
      have hbounds := ih _ g hg
      rw [pieceGroups]
      omega
    | token t =>
      intro g hg
      rw [pieceGroups]
      rcases List.mem_cons.1 hg with rfl | hg
      · omega
      · have hbounds := ih _ g hg
        omega

variable {overrides}

theorem literalOf_spec {text : String} (h : (Piece.literal text).IsRegular overrides) :
    (literalOf text).text = text.toList ∧ (literalOf text).Readable ∧ (literalOf text).Unnamed := by
  obtain ⟨e, he⟩ := Option.isSome_iff_exists.1 h
  rw [literalOf, he]
  exact Regex.literal?_eq_some he

theorem bodyOf_text {token : Token} (h : (Piece.token token).IsRegular overrides) :
    (bodyOf overrides token).text = token.constraintText overrides := by
  obtain ⟨body, hbody⟩ := Option.isSome_iff_exists.1 h
  rw [bodyOf, hbody]
  exact Regex.Body.text_of_ofText? hbody

theorem literalOf_slash {text : String} (h : (Piece.literal text).IsRegular overrides) :
    literalOf ("/" ++ text) = .single (.plain '/') ⟨.char {} (.code '/'.toNat), .yes⟩ (literalOf text) := by
  obtain ⟨e, he⟩ := Option.isSome_iff_exists.1 h
  rw [literalOf, literalOf, literal?_slash he, he]
  rfl

theorem RegularPieces.rest {piece : Piece} {rest : List Piece} (h : RegularPieces overrides (piece :: rest)) :
    RegularPieces overrides rest := h.of_subset (List.subset_cons_self piece rest)

theorem text_compositeOf (naming : Nat → Token → Option String) (i : Nat) (e : Composite) :
    (compositeOf overrides naming i pieces e).text = (compositeOf overrides naming i pieces .done).text ++ e.text := by
  induction pieces generalizing i with
  | nil => rfl
  | cons piece rest ih =>
    cases piece with
    | literal text => rw [compositeOf, compositeOf, Composite.text_append, Composite.text_append, ih, List.append_assoc]
    | token t => cases hname : naming i t <;> simp [compositeOf, Composite.text, hname, ih (i + 1)]

section Pieces

variable {pieces : List Piece} (h : RegularPieces overrides pieces)

include h

theorem readable_compositeOf {naming : Nat → Token → Option String} {i : Nat} {e : Composite}
    (hnaming : ∀ i t, .token t ∈ pieces → ∀ name ∈ naming i t, Text.isIdentifier name = true) (he : e.Readable) :
    (compositeOf overrides naming i pieces e).Readable := by
  induction pieces generalizing i with
  | nil => exact he
  | cons piece rest ih =>
    have hrest := fun i => @ih h.rest i fun i t ht => hnaming i t (List.mem_cons_of_mem _ ht)
    cases piece with
    | literal text => exact Composite.readable_append (literalOf_spec (h _ List.mem_cons_self)).2.1 (hrest i)
    | token t => exact ⟨hnaming i t List.mem_cons_self, hrest (i + 1)⟩

theorem names_compositeOf_unnamed (i n : Nat) (e : Composite) :
    (compositeOf overrides unnamed i pieces e).names n = e.names (n + pieceGroups overrides pieces) := by
  induction pieces generalizing i n with
  | nil => rfl
  | cons piece rest ih =>
    cases piece with
    | literal text =>
      rw [compositeOf, Composite.names_append, (literalOf_spec (h _ List.mem_cons_self)).2.2, ih h.rest, pieceGroups,
        Nat.add_assoc]
      rfl
    | token t =>
      rw [compositeOf, Composite.names, ih h.rest, pieceGroups]
      simp only [Nat.add_assoc]
      rfl

theorem names_compositeOf (f : Nat → Token → String) (i n : Nat) (e : Composite) :
    (compositeOf overrides (fun i t => some (f i t)) i pieces e).names n =
      ((pieces.filterMap Piece.token?).mapIdx fun j t => f (i + j) t).zip (tokenGroups overrides n pieces) ++
        e.names (n + pieceGroups overrides pieces) := by
  induction pieces generalizing i n with
  | nil => rfl
  | cons piece rest ih =>
    cases piece with
    | literal text =>
      rw [compositeOf, Composite.names_append, (literalOf_spec (h _ List.mem_cons_self)).2.2, ih h.rest, pieceGroups,
        Nat.add_assoc]
      rfl
    | token t =>
      have hnames : (compositeOf overrides (fun i t => some (f i t)) i (.token t :: rest) e).names n =
          (f i t, n) :: (compositeOf overrides (fun i t => some (f i t)) (i + 1) rest e).names
            (n + 1 + (bodyOf overrides t).groups) := rfl
      have hnext : (fun j t => f (i + 1 + j) t) = fun j t => f (i + (j + 1)) t := by
        funext j t
        rw [Nat.add_assoc, Nat.add_comm 1 j]
      rw [hnames, ih h.rest, pieceGroups, List.filterMap_cons]
      simp only [Piece.token?, List.mapIdx_cons, tokenGroups, List.zip_cons_cons, List.cons_append, Nat.add_zero]
      rw [hnext]
      simp only [Nat.add_assoc]

end Pieces

/-! ## Constraints -/

/-- The constraint of a regular token is taken as it is. -/
theorem constraint_of_regular {token : Token} (h : (Piece.token token).IsRegular overrides) (pattern : Option String) :
    resolveConstraint token overrides pattern = .ok (token.constraintText overrides) := by
  unfold resolveConstraint
  cases hgiven : token.givenConstraint? overrides with
  | none => simp [Token.constraintText, hgiven]
  | some constraint =>
    obtain ⟨body, hbody⟩ := Option.isSome_iff_exists.1 h
    have htext : body.text = constraint := by
      rw [Regex.Body.text_of_ofText? hbody, Token.constraintText, hgiven]
      rfl
    have hcompile := body.compile_text
    rw [htext] at hcompile
    simp only [compileOr_ok hcompile, ok_bind]
    simp [rejectNamedGroups, Regex.Body.regex, Token.constraintText, hgiven]

theorem mapM_constraints_of_regular {tokens : List Token} (h : ∀ token ∈ tokens, (Piece.token token).IsRegular overrides)
    (pattern : Option String) :
    (tokens.mapM fun token => do
      return (token.name, ← resolveConstraint token overrides pattern) : Except Error (List (String × String))) =
      .ok (tokens.map fun token => (token.name, token.constraintText overrides)) := by
  rw [mapM_eq_ok, List.forall₂_map_right_iff, List.forall₂_same]
  intro token htoken
  rw [constraint_of_regular (h token htoken)]
  rfl

theorem constraintOf_of_nodup {tokens : List Token} (h : (tokens.map (·.name)).Nodup) {token : Token}
    (htoken : token ∈ tokens) :
    constraintOf (tokens.map fun token => (token.name, token.constraintText overrides)) token =
      token.constraintText overrides := by
  have hlookup : (tokens.map fun token => (token.name, token.constraintText overrides)).lookup token.name =
      some (token.constraintText overrides) := by
    refine lookup_of_nodup ?_ (List.mem_map_of_mem (f := fun token : Token =>
      (token.name, token.constraintText overrides)) htoken)
    rwa [List.map_map]
  rw [constraintOf, hlookup]
  rfl

/-! ## The positional form -/

section Positional

variable {pieces : List Piece} {constraint : Token → String}

theorem render_of_regular (h : RegularPieces overrides pieces)
    (hconstraint : ∀ token, .token token ∈ pieces → constraint token = token.constraintText overrides) (i : Nat) :
    render (fun token => "(" ++ constraint token ++ ")") pieces =
      String.ofList (compositeOf overrides unnamed i pieces .done).text := by
  apply String.toList_injective
  rw [String.toList_ofList, render, String.toList_join, List.flatMap_map]
  induction pieces generalizing i with
  | nil => rfl
  | cons piece rest ih =>
    have hrest := fun i => ih h.rest (fun token htoken => hconstraint token (List.mem_cons_of_mem _ htoken)) i
    rw [List.flatMap_cons]
    cases piece with
    | literal text =>
      rw [compositeOf, Composite.text_append, ← hrest i, (literalOf_spec (h _ List.mem_cons_self)).1]
    | token t =>
      rw [compositeOf, unnamed, Composite.text, ← hrest (i + 1), bodyOf_text (h _ List.mem_cons_self)]
      simp [hconstraint t List.mem_cons_self]

theorem renderMarked_of_regular (h : RegularPieces overrides pieces)
    (hconstraint : ∀ token, .token token ∈ pieces → constraint token = token.constraintText overrides) (i : Nat) :
    renderMarked constraint i pieces = String.ofList (compositeOf overrides marked i pieces .done).text := by
  apply String.toList_injective
  rw [String.toList_ofList]
  induction pieces generalizing i with
  | nil => rfl
  | cons piece rest ih =>
    have hrest := fun i => ih h.rest (fun token htoken => hconstraint token (List.mem_cons_of_mem _ htoken)) i
    cases piece with
    | literal text =>
      rw [compositeOf, Composite.text_append, ← hrest i, (literalOf_spec (h _ List.mem_cons_self)).1, renderMarked,
        String.toList_append]
    | token t =>
      rw [compositeOf, marked, Composite.text, ← hrest (i + 1), bodyOf_text (h _ List.mem_cons_self), renderMarked]
      simp [hconstraint t List.mem_cons_self]

theorem names_compositeOf_marked (h : RegularPieces overrides pieces) :
    (compositeOf overrides marked 0 pieces .done).names 1 =
      ((List.range (tokenCount pieces)).map markerName).zip (tokenGroups overrides 1 pieces) := by
  have hnames := names_compositeOf h (fun i _ => markerName i) 0 1 .done
  rw [Composite.names, List.append_nil] at hnames
  refine hnames.trans (congrArg (List.zip · _) (List.ext_getElem (by simp [tokenCount]) fun j h1 h2 => ?_))
  simp

/-- The tokens of a regular variant are found by the groups around them. -/
theorem groupNumbers_of_regular (h : RegularPieces overrides pieces)
    (hconstraint : ∀ token, .token token ∈ pieces → constraint token = token.constraintText overrides)
    (pattern : String) : groupNumbers constraint pattern pieces = .ok (tokenGroups overrides 1 pieces) := by
  have hreadable : (compositeOf overrides marked 0 pieces .done).Readable :=
    readable_compositeOf h (fun i t _ name hname => by
      obtain rfl : markerName i = name := by simpa [marked] using hname
      exact isIdentifier_markerName i) trivial
  have hlength : ((List.range (tokenCount pieces)).map markerName).length = (tokenGroups overrides 1 pieces).length := by
    rw [length_tokenGroups, List.length_map, List.length_range]
  have hfst : ((compositeOf overrides marked 0 pieces .done).names 1).map (·.1) =
      (List.range (tokenCount pieces)).map markerName := by
    rw [names_compositeOf_marked h, List.map_fst_zip hlength.le]
  have hnodup : (((compositeOf overrides marked 0 pieces .done).names 1).map (·.1)).Nodup := by
    rw [hfst]
    exact List.nodup_range.map markerName_injective
  have hcompile := Regex.compile_composite _ hreadable hnodup
  have hreject : rejectNamedGroups (some pattern) ((List.range (tokenCount pieces)).map markerName)
      ⟨Regex.nodeOf ((compositeOf overrides marked 0 pieces .done).items 1),
        (compositeOf overrides marked 0 pieces .done).groups,
        (compositeOf overrides marked 0 pieces .done).names 1⟩ = .ok () := by
    simp only [rejectNamedGroups, hfst]
    rw [List.filter_eq_nil_iff.2 fun name hname => by simpa using hname]
  simp only [groupNumbers, renderMarked_of_regular h hconstraint 0, compileOr_ok hcompile, ok_bind]
  rw [show (pieces.filterMap Piece.token?).length = tokenCount pieces from rfl, hreject, ok_bind, mapM_eq_ok]
  rw [names_compositeOf_marked h, List.map_fst_zip hlength.le] at hnodup
  refine List.forall₂_iff_zip.2 ⟨hlength, fun {marker g} hmem => ?_⟩
  have hnodup' : (((compositeOf overrides marked 0 pieces .done).names 1).map (·.1)).Nodup := by
    rw [hfst]
    exact hnodup
  have hlookup := lookup_of_nodup hnodup' (names_compositeOf_marked h ▸ hmem)
  simp only [Regex.groupNumber?, hlookup]

end Positional

/-- the expression of a variant -/
def variantComposite (overrides : Overrides) (pieces : List Piece) : Composite :=
  compositeOf overrides unnamed 0 pieces .done

def regularMarkForm (layout : Layout) (overrides : Overrides) : MarkForm where
  variants := layout.variants.map fun pieces => String.ofList (variantComposite overrides pieces).text
  attributes := layout.names
  groups := layout.variants.map (tokenGroups overrides 1)

/-- A variant has no other tokens than the layout. -/
theorem token_of_mem_variants {layout : Layout} {pieces : List Piece} (hpieces : pieces ∈ layout.variants)
    {token : Token} (htoken : .token token ∈ pieces) : token ∈ layout.tokens := by
  rcases prefix_of_mem_variants hpieces with ⟨-, rfl⟩ | ⟨hbegins, -⟩
  · simp at htoken
  · rw [Layout.tokens_eq, token_mem_iff]
    exact hbegins.subset htoken

/-- A regular literal by itself is written as it is. -/
theorem text_of_literal {text : String} (h : (Piece.literal text).IsRegular overrides)
    (naming : Nat → Token → Option String) (i : Nat) :
    String.ofList (compositeOf overrides naming i [.literal text] .done).text = text := by
  rw [compositeOf, compositeOf, Composite.text_append, (literalOf_spec h).1, Composite.text, List.append_nil,
    String.ofList_toList]

theorem regularMarkForm_static {text : String} (h : (Piece.literal text).IsRegular overrides) :
    regularMarkForm ⟨[.literal text], []⟩ overrides = ⟨[text], [], [[]]⟩ := by
  show MarkForm.mk [String.ofList (variantComposite overrides [.literal text]).text] [] [[]] = _
  rw [variantComposite, text_of_literal h]

/-- A static path of regular characters compiles, and names no group. -/
theorem compile_static {text : String} (h : (Piece.literal text).IsRegular overrides) :
    ∃ regex, Regex.compile text = .ok regex ∧ regex.names = [] := by
  have hregular : RegularPieces overrides [.literal text] := fun piece hpiece => List.mem_singleton.1 hpiece ▸ h
  have hreadable : (compositeOf overrides unnamed 0 [.literal text] .done).Readable :=
    readable_compositeOf hregular (fun i t ht => by simp at ht) trivial
  have hcompile := Regex.compile_composite _ hreadable (by rw [names_compositeOf_unnamed hregular]; exact .nil)
  rw [text_of_literal h] at hcompile
  exact ⟨_, hcompile, names_compositeOf_unnamed hregular 0 1 .done⟩

/-- **The positional form of a regular layout** has the expression of each variant, with the groups around its tokens. -/
theorem markForm_of_regular {path : String} {layout : Layout} (hread : layoutOf path = .ok layout)
    (h : layout.IsRegular overrides) : MarkForm.parse path overrides = .ok (regularMarkForm layout overrides) := by
  have hwell := wellFormed_of_layoutOf hread
  unfold layoutOf at hread
  unfold MarkForm.parse
  split_ifs at hread ⊢
  · cases hread
    rw [regularMarkForm_static (regular_slash overrides)]
    rfl
  · cases hread
    have hliteral : (Piece.literal path).IsRegular overrides := h _ List.mem_cons_self
    obtain ⟨regex, hcompile, hnames⟩ := compile_static hliteral
    simp only [regularMarkForm_static hliteral, compileOr_ok hcompile, ok_bind, rejectNamedGroups, hnames, List.map_nil,
      List.filter_nil]
    rfl
  · have hconstraint : ∀ pieces ∈ layout.variants, ∀ token, .token token ∈ pieces →
        constraintOf (layout.tokens.map fun token => (token.name, token.constraintText overrides)) token =
          token.constraintText overrides := fun pieces hpieces token htoken =>
      constraintOf_of_nodup hwell.nodup (token_of_mem_variants hpieces htoken)
    have hgroups : layout.variants.mapM (groupNumbers
        (constraintOf (layout.tokens.map fun token => (token.name, token.constraintText overrides))) path) =
          .ok (layout.variants.map (tokenGroups overrides 1)) := by
      rw [mapM_eq_ok, List.forall₂_map_right_iff, List.forall₂_same]
      intro pieces hpieces
      exact groupNumbers_of_regular (regular_variants hwell h hpieces) (hconstraint pieces hpieces) path
    have hvariants : layout.variants.map (render fun token => "(" ++ constraintOf
        (layout.tokens.map fun token => (token.name, token.constraintText overrides)) token ++ ")") =
          layout.variants.map fun pieces => String.ofList (variantComposite overrides pieces).text :=
      List.map_congr_left fun pieces hpieces =>
        render_of_regular (regular_variants hwell h hpieces) (hconstraint pieces hpieces) 0
    rw [hread]
    simp only [ok_bind, mapM_constraints_of_regular (fun token htoken => regular_tokens h htoken), hgroups, hvariants]
    rfl

/-- **The variants of a regular layout are bodies**, and hold the groups around their tokens. -/
theorem body_of_variant {pieces : List Piece} (h : RegularPieces overrides pieces) :
    ∃ body : Regex.Body, body.text = String.ofList (variantComposite overrides pieces).text ∧
      body.root = Regex.nodeOf (pieceItems overrides 1 pieces) ∧ body.groups = pieceGroups overrides pieces := by
  have hreadable : (variantComposite overrides pieces).Readable :=
    readable_compositeOf h (fun i t _ name hname => by simp [unnamed] at hname) trivial
  obtain ⟨body, htext, hroot, hgroups⟩ := Composite.exists_body hreadable (names_compositeOf_unnamed h 0 1 .done)
  refine ⟨body, htext, hroot.trans ?_, hgroups.trans ?_⟩
  · rw [variantComposite, items_compositeOf, Composite.items, List.append_nil]
  · rw [variantComposite, groups_compositeOf, Composite.groups, Nat.add_zero]

/-! ## The named form -/

/-- the one expression of a layout -/
def namedComposite (layout : Layout) (overrides : Overrides) : Composite :=
  let naming := namedBy (captureAliases layout.names)
  compositeOf overrides (fun _ => naming) 0 (namedParts layout).1 (chainOf overrides naming (namedParts layout).2)

/-- Pieces as the named form writes them. -/
def regularText (overrides : Overrides) (captures : List (String × String)) (pieces : List Piece) : String :=
  String.ofList (compositeOf overrides (fun _ => namedBy captures) 0 pieces .done).text

theorem renderNamed_of_regular {pieces : List Piece} (h : RegularPieces overrides pieces) (pattern : String)
    (captures : List (String × String)) (i : Nat) :
    renderNamed pattern overrides captures pieces =
      .ok (String.ofList (compositeOf overrides (fun _ => namedBy captures) i pieces .done).text) := by
  induction pieces generalizing i with
  | nil => rfl
  | cons piece rest ih =>
    cases piece with
    | literal text =>
      rw [renderNamed, ih h.rest i, ok_bind, compositeOf, Composite.text_append, (literalOf_spec (h _ List.mem_cons_self)).1,
        String.ofList_append, String.ofList_toList]
      rfl
    | token t =>
      rw [renderNamed, constraint_of_regular (h _ List.mem_cons_self), ok_bind, ih h.rest (i + 1), ok_bind, compositeOf,
        namedBy, Composite.text, bodyOf_text (h _ List.mem_cons_self)]
      refine congrArg Except.ok (String.toList_injective ?_)
      simp

theorem text_chainOf (captures : List (String × String)) (segments : List (List Piece)) :
    (chainOf overrides (namedBy captures) segments).text =
      (nested (segments.map (regularText overrides captures))).toList := by
  induction segments with
  | nil => rfl
  | cons segment rest ih =>
    rw [chainOf, Composite.text, text_compositeOf, ih, List.map_cons, nested]
    simp [regularText, Composite.text]

/-- the groups around the tokens of pieces, the first group being number `n`, each with the alias of its token -/
def aliasGroups (overrides : Overrides) (captures : List (String × String)) (n : Nat) (pieces : List Piece) :
    List (String × Nat) :=
  ((pieces.filterMap Piece.token?).map fun t => aliasOf captures t.name).zip (tokenGroups overrides n pieces)

theorem map_fst_aliasGroups (captures : List (String × String)) (n : Nat) (pieces : List Piece) :
    (aliasGroups overrides captures n pieces).map (·.1) =
      (pieces.filterMap Piece.token?).map fun t => aliasOf captures t.name := by
  refine List.map_fst_zip (le_of_eq ?_)
  rw [List.length_map, length_tokenGroups, tokenCount]

theorem aliasGroups_append (captures : List (String × String)) (n : Nat) (a b : List Piece) :
    aliasGroups overrides captures n (a ++ b) =
      aliasGroups overrides captures n a ++ aliasGroups overrides captures (n + pieceGroups overrides a) b := by
  rw [aliasGroups, tokenGroups_append, List.filterMap_append, List.map_append, List.zip_append]
  · rfl
  · rw [List.length_map, length_tokenGroups, tokenCount]

/-- The groups of pieces that are named by aliases. -/
theorem names_pieces (captures : List (String × String)) {pieces : List Piece} (h : RegularPieces overrides pieces)
    (n : Nat) (e : Composite) :
    (compositeOf overrides (fun _ => namedBy captures) 0 pieces e).names n =
      aliasGroups overrides captures n pieces ++ e.names (n + pieceGroups overrides pieces) := by
  refine (names_compositeOf h (fun _ t => aliasOf captures t.name) 0 n e).trans ?_
  have haliases : (pieces.filterMap Piece.token?).mapIdx (fun _ t => aliasOf captures t.name) =
      (pieces.filterMap Piece.token?).map fun t => aliasOf captures t.name :=
    List.ext_getElem (by simp) fun j h1 h2 => by simp
  rw [haliases, aliasGroups]

theorem names_chainOf (captures : List (String × String)) {segments : List (List Piece)}
    (h : ∀ segment ∈ segments, RegularPieces overrides segment) (n : Nat) :
    (chainOf overrides (namedBy captures) segments).names n = aliasGroups overrides captures n segments.flatten := by
  induction segments generalizing n with
  | nil => rfl
  | cons segment rest ih =>
    rw [chainOf, Composite.names, Composite.names, List.append_nil, names_pieces captures (h segment List.mem_cons_self),
      ih fun s hs => h s (List.mem_cons_of_mem segment hs), List.flatten_cons, aliasGroups_append]

theorem regular_namedParts {layout : Layout} (h : layout.IsRegular overrides) :
    RegularPieces overrides (namedParts layout).1 ∧
      ∀ segment ∈ (namedParts layout).2, RegularPieces overrides segment :=
  ⟨h.of_subset (List.subset_append_left _ _), fun segment hsegment =>
    h.of_subset fun _ hpiece => List.mem_append_right _ (List.mem_flatten.2 ⟨segment, hsegment, hpiece⟩)⟩

/-- The named groups of the one expression are those around the tokens. -/
theorem names_namedComposite {layout : Layout} (h : layout.IsRegular overrides) :
    (namedComposite layout overrides).names 1 = aliasGroups overrides (captureAliases layout.names) 1
      ((namedParts layout).1 ++ (namedParts layout).2.flatten) := by
  obtain ⟨hbase, hsegments⟩ := regular_namedParts h
  rw [namedComposite, names_pieces _ hbase, names_chainOf _ hsegments, aliasGroups_append]

/-- They have the aliases of the attributes, in order. -/
theorem map_fst_names_namedComposite {layout : Layout} (hnodup : layout.names.Nodup) (h : layout.IsRegular overrides) :
    ((namedComposite layout overrides).names 1).map (·.1) = (captureAliases layout.names).map (·.1) := by
  rw [names_namedComposite h, map_fst_aliasGroups, tokens_namedParts, ← aliases_eq hnodup, Layout.names, List.map_map]
  rfl

theorem readable_chainOf {naming : Token → Option String} {segments : List (List Piece)}
    (hnaming : ∀ segment ∈ segments, ∀ t, .token t ∈ segment → ∀ name ∈ naming t, Text.isIdentifier name = true)
    (h : ∀ segment ∈ segments, RegularPieces overrides segment) : (chainOf overrides naming segments).Readable := by
  induction segments with
  | nil => exact trivial
  | cons segment rest ih =>
    refine ⟨readable_compositeOf (h segment List.mem_cons_self) (fun _ => hnaming segment List.mem_cons_self) ?_, trivial⟩
    exact ih (fun s hs => hnaming s (List.mem_cons_of_mem segment hs)) fun s hs => h s (List.mem_cons_of_mem segment hs)

/-- **The one expression of a regular layout compiles.** -/
theorem compile_namedComposite {layout : Layout} (hnodup : layout.names.Nodup) (h : layout.IsRegular overrides) :
    Regex.compile (String.ofList (namedComposite layout overrides).text) =
      .ok ⟨Regex.nodeOf ((namedComposite layout overrides).items 1), (namedComposite layout overrides).groups,
        (namedComposite layout overrides).names 1⟩ := by
  obtain ⟨hbase, hsegments⟩ := regular_namedParts h
  have hnaming : ∀ token, .token token ∈ (namedParts layout).1 ++ (namedParts layout).2.flatten →
      ∀ name ∈ namedBy (captureAliases layout.names) token, Text.isIdentifier name = true := by
    intro token htoken
    rw [← token_mem_iff, tokens_namedParts] at htoken
    exact isIdentifier_namedBy hnodup htoken
  refine Regex.compile_composite _ ?_ ?_
  · refine readable_compositeOf hbase (fun _ t ht => hnaming t (List.mem_append_left _ ht)) ?_
    refine readable_chainOf (fun segment hsegment t ht => hnaming t (List.mem_append_right _ ?_)) hsegments
    exact List.mem_flatten.2 ⟨segment, hsegment, ht⟩
  · rw [map_fst_names_namedComposite hnodup h]
    exact captureAliases_nodup hnodup

theorem literalOf_nil : literalOf "" = .done := rfl

theorem regular_nil : (Piece.literal "").IsRegular overrides := by
  show (literal? "").isSome = true
  rfl

theorem assemble_of_regular {layout : Layout} (hwell : layout.WellFormed) (h : layout.IsRegular overrides) :
    assemble layout.optionalStart (regularText overrides (captureAliases layout.names) layout.base)
        (layout.segments.map (regularText overrides (captureAliases layout.names))) =
      String.ofList (namedComposite layout overrides).text := by
  apply String.toList_injective
  rw [String.toList_ofList, namedComposite, text_compositeOf, text_chainOf, namedParts]
  cases hstart : layout.optionalStart with
  | false => simp [assemble, regularText]
  | true =>
    obtain ⟨text, first, rest, hsegments⟩ := hwell.slash hstart
    have htext : (Piece.literal text).IsRegular overrides := by
      refine h _ ?_
      simp [namedParts, hstart, hsegments, withoutSlash]
    have hslash := @literalOf_slash overrides "" regular_nil
    rw [String.append_empty, literalOf_nil] at hslash
    simp only [hsegments, List.map_cons, assemble, if_true, String.toList_append, nested, withoutSlash]
    simp [regularText, compositeOf, Composite.text_append, literalOf_slash htext, hslash, Composite.text, Composite.append,
      Regex.Token.chars]

/-- **The named form of a regular layout** is the text of its one expression, with an alias for each attribute. -/
theorem namedForm_of_regular {path : String} {layout : Layout} (hread : layoutOf path = .ok layout)
    (h : layout.IsRegular overrides) : NamedForm.parse path overrides =
      .ok ⟨String.ofList (namedComposite layout overrides).text, captureAliases layout.names⟩ := by
  have hwell := wellFormed_of_layoutOf hread
  unfold layoutOf at hread
  unfold NamedForm.parse
  split_ifs at hread ⊢
  · cases hread
    exact congrArg (fun text => Except.ok (NamedForm.mk text [])) (text_of_literal (regular_slash overrides) _ _).symm
  · cases hread
    have hliteral : (Piece.literal path).IsRegular overrides := h _ List.mem_cons_self
    exact congrArg (fun text => Except.ok (NamedForm.mk text [])) (text_of_literal hliteral _ _).symm
  · have hpieces := h.pieces hwell
    have hbase := renderNamed_of_regular (hpieces.of_subset (List.subset_append_left _ _)) path
      (captureAliases layout.names) 0
    have hsegments : layout.segments.mapM (renderNamed path overrides (captureAliases layout.names)) =
        .ok (layout.segments.map (regularText overrides (captureAliases layout.names))) := by
      rw [mapM_eq_ok, List.forall₂_map_right_iff, List.forall₂_same]
      intro segment hsegment
      refine renderNamed_of_regular (hpieces.of_subset fun piece hpiece => ?_) path _ 0
      exact List.mem_append_right _ (List.mem_flatten.2 ⟨segment, hsegment, hpiece⟩)
    have hassemble := assemble_of_regular hwell h
    rw [regularText] at hassemble
    rw [hread]
    simp only [ok_bind, hsegments, hbase, hassemble, compileOr_ok (compile_namedComposite hwell.nodup h)]
    rfl

end UrlRouter.Pattern
