/-
The names of groups in the expressions of a pattern.

Both parsers put groups around tokens and leave literals and constraints as they are. A constraint must name no group
when it is compiled by itself. The positional parser also compiles each variant with marked groups and refuses names other
than the markers. The named one looks at nothing but whether its expression compiles, and not even that of a static
pattern. So a literal may give the named expression groups of its own, and the groups of variants too, where it opens a
group with the name of a marker and hides that marker's token from the compiler.

Results:
- `Layout.partsTo`: the parts that variants and the one expression have in common.
- `met_of_numbered`: what is met in a variant whose groups were found.
- `named_groups`: whose the named groups of compiled expressions are.
- `foreign_groups_accepted`: groups that neither parser gave a name to, and one that got lost.
-/
import Mathlib.Tactic
import UrlRouter.Proofs.Dispatch.VariantTags
import UrlRouter.Proofs.Pattern.Grammar
import UrlRouter.Proofs.Pattern.MetGroups

namespace UrlRouter.Pattern

open Regex (Cursor Opens)

variable {layout : Layout} {overrides : Overrides}

/-! ## The parts of a layout -/

/-- the base of a layout and its first segments, as they stand in the one expression -/
def Layout.partsTo (layout : Layout) (count : Nat) : List (List Piece) :=
  (namedParts layout).1 :: (namedParts layout).2.take count

theorem length_namedParts (hwell : layout.WellFormed) : (namedParts layout).2.length = layout.segments.length := by
  unfold namedParts
  split_ifs with hstart
  · obtain ⟨text, first, rest, hsegments⟩ := hwell.slash hstart
    rw [hsegments]
    rfl
  · rfl

/-- Whatever the groups are called, the parts have the text of the variant. -/
theorem groupedText_partsTo (hwell : layout.WellFormed) (f : Nat → Token → Option String) (k i : Nat) :
    groupedText overrides f k (layout.partsTo i).flatten = groupedText overrides f k (layout.variantPieces i) := by
  rw [Layout.partsTo, namedParts, Layout.variantPieces]
  cases hstart : layout.optionalStart with
  | false => simp [Layout.piecesTo]
  | true =>
    obtain ⟨text, first, rest, hsegments⟩ := hwell.slash hstart
    cases i with
    | zero => simp [hsegments]
    | succ i =>
      have hbase := (optionalStart_iff.1 hstart).1
      simp [hsegments, withoutSlash, Layout.piecesTo, hbase, groupedText]

theorem variantText_partsTo (hwell : layout.WellFormed) (i : Nat) :
    variantText overrides (layout.partsTo i).flatten = variantText overrides (layout.variantPieces i) := by
  apply String.toList_injective
  rw [toList_variantText 0, toList_variantText 0, groupedText_partsTo hwell]

/-- The parts have the tokens of the layout, and no other literals than it has but for a slash at the start. -/
theorem mem_partsTo {count : Nat} {part : List Piece} (hpart : part ∈ layout.partsTo count) {piece : Piece}
    (hpiece : piece ∈ part) : piece ∈ layout.pieces ∨ piece = .literal "/" ∨
      ∃ text, .literal text ∈ layout.pieces ∧ piece = .literal (String.ofList (text.toList.drop 1)) := by
  have hsegment : ∀ segment ∈ layout.segments, piece ∈ segment → piece ∈ layout.pieces := fun segment hsegment hmem =>
    List.mem_append_right _ (List.mem_flatten.2 ⟨segment, hsegment, hmem⟩)
  have hpart : part = (namedParts layout).1 ∨ part ∈ (namedParts layout).2 :=
    (List.mem_cons.1 hpart).imp_right List.mem_of_mem_take
  unfold namedParts at hpart
  split_ifs at hpart
  · cases hsegments : layout.segments with
    | nil =>
      rw [hsegments] at hpart
      obtain rfl : part = [.literal "/"] := by simpa using hpart
      exact .inr (.inl (List.mem_singleton.1 hpiece))
    | cons first rest =>
      rw [hsegments] at hpart hsegment
      rcases hpart with rfl | hpart
      · exact .inr (.inl (List.mem_singleton.1 hpiece))
      rcases List.mem_cons.1 hpart with rfl | hpart
      · cases first with
        | nil => cases hpiece
        | cons initial more =>
          cases initial with
          | token token => exact .inl (hsegment _ List.mem_cons_self hpiece)
          | literal text =>
            rcases List.mem_cons.1 hpiece with rfl | hmore
            · refine .inr (.inr ⟨text, ?_, rfl⟩)
              exact List.mem_append_right _ (List.mem_flatten.2 ⟨_, hsegments ▸ List.mem_cons_self, List.mem_cons_self⟩)
            · exact .inl (hsegment _ List.mem_cons_self (List.mem_cons_of_mem _ hmore))
      · exact .inl (hsegment part (List.mem_cons_of_mem first hpart) hpiece)
  · rcases hpart with rfl | hpart
    · exact .inl (List.mem_append_left _ hpiece)
    · exact .inl (hsegment part hpart hpiece)

theorem token_of_mem_partsTo {count : Nat} {part : List Piece} (hpart : part ∈ layout.partsTo count) {token : Token}
    (htoken : .token token ∈ part) : token ∈ layout.tokens := by
  rw [Layout.tokens_eq, token_mem_iff]
  rcases mem_partsTo hpart htoken with h | h | ⟨_, -, h⟩
  · exact h
  · cases h
  · cases h

/-- What is written in a part is written in the layout. -/
theorem written_of_part {count : Nat} {part : List Piece} (hpart : part ∈ layout.partsTo count) {name : String}
    (h : Written overrides name part) : Written overrides name layout.pieces := by
  rcases h with ⟨text, htext, hopens⟩ | ⟨token, htoken, hopens⟩
  · rcases mem_partsTo hpart htext with hmem | heq | ⟨whole, hmem, heq⟩
    · exact .inl ⟨text, hmem, hopens⟩
    · cases heq
      have hmem : '(' ∈ "/".toList := hopens.subset List.mem_cons_self
      exact absurd hmem (by decide)
    · cases heq
      rw [String.toList_ofList] at hopens
      exact .inl ⟨whole, hmem, hopens.trans (List.drop_suffix 1 _).isInfix⟩
  · exact .inr ⟨token, token_mem_iff.1 (Layout.tokens_eq layout ▸ token_of_mem_partsTo hpart htoken), hopens⟩

theorem apart_of_mayPrecede {a b : Piece} (h : MayPrecede a b) : Apart a b := by
  cases a with
  | literal text =>
    cases b with
    | literal other => exact h
    | token token => trivial
  | token token => cases b <;> trivial

theorem isChain_withoutSlash {pieces : List Piece} (h : pieces.IsChain Apart) : (withoutSlash pieces).IsChain Apart := by
  match pieces, h with
  | [], h => exact h
  | .token token :: rest, h => exact h
  | [.literal text], _ => exact List.isChain_singleton _
  | .literal text :: next :: rest, h =>
    obtain ⟨hnext, hrest⟩ := List.isChain_cons_cons.1 h
    refine List.isChain_cons_cons.2 ⟨?_, hrest⟩
    cases next with
    | literal other => exact hnext
    | token token => trivial

/-- No part has two literals side by side. -/
theorem isChain_partsTo (h : layout.Grammatical) {count : Nat} {part : List Piece} (hpart : part ∈ layout.partsTo count) :
    part.IsChain Apart := by
  have hsegment : ∀ segment ∈ layout.segments, segment.IsChain Apart := fun segment hsegment =>
    (h.segments segment hsegment).2.neighbours.imp fun _ _ => apart_of_mayPrecede
  have hpart : part = (namedParts layout).1 ∨ part ∈ (namedParts layout).2 :=
    (List.mem_cons.1 hpart).imp_right List.mem_of_mem_take
  unfold namedParts at hpart
  split_ifs at hpart
  · cases hsegments : layout.segments with
    | nil =>
      rw [hsegments] at hpart
      obtain rfl : part = [.literal "/"] := by simpa using hpart
      exact List.isChain_singleton _
    | cons first rest =>
      rw [hsegments] at hpart hsegment
      rcases hpart with rfl | hpart
      · exact List.isChain_singleton _
      rcases List.mem_cons.1 hpart with rfl | hpart
      · exact isChain_withoutSlash (hsegment first List.mem_cons_self)
      · exact hsegment part (List.mem_cons_of_mem first hpart)
  · rcases hpart with rfl | hpart
    · exact h.base.neighbours.imp fun _ _ => apart_of_mayPrecede
    · exact hsegment part hpart

theorem unquestioned_partsTo (h : Resolves overrides layout.tokens) (count : Nat) :
    Unquestioned overrides (layout.partsTo count).flatten := by
  refine Resolves.unquestioned fun token htoken => ?_
  obtain ⟨part, hpart, hmem⟩ := List.mem_flatten.1 (token_mem_iff.1 htoken)
  exact h token (token_of_mem_partsTo hpart hmem)

/-! ## Variants -/

/-- the marker of a group, by number -/
def marking : Nat → Token → Option String := fun i _ => some (markerName i)

theorem markers_mono {a b : Nat} (h : a ≤ b) : markers a ⊆ markers b := List.map_subset _ (List.range_subset.2 h)

/-- **What is met in a variant whose groups were found.** A cursor may end behind it, and what it meets has, with the
markers for names, the names of all markers and no others. -/
theorem met_of_numbered (hwell : layout.WellFormed) (hresolves : Resolves overrides layout.tokens) {i : Nat}
    {groups : List Nat} (h : Numbered overrides (layout.variantPieces i) groups) :
    (({} : Cursor).after (variantText overrides (layout.partsTo i).flatten).toList).Ends ∧
      ∀ name, name ∈ (met overrides {} 0 (layout.partsTo i).flatten).filterMap (metName? marking) ↔
        name ∈ markers (layout.tokensTo i).length := by
  obtain ⟨regex, hcompile, hallowed, hgroups⟩ := h.compiles
  rw [tokens_variantPieces] at hallowed hgroups
  obtain ⟨hends, hnames⟩ := Regex.cursor_of_compile hcompile
  obtain ⟨hafter, hmet⟩ := names_grouped (unquestioned_partsTo hresolves i) (f := marking)
    (fun j token _ name hname => by cases hname; exact isIdentifier_markerName j) {} 0
  rw [toList_markedText, ← groupedText_partsTo hwell] at hends hnames
  refine ⟨hafter ▸ hends, fun name => ?_⟩
  rw [← hmet, show Regex.Cursor.names {} (groupedText overrides marking 0 (layout.partsTo i).flatten) = _ from hnames]
  refine ⟨hallowed name, fun hname => ?_⟩
  obtain ⟨j, hj, rfl⟩ := List.getElem_of_mem hname
  have hfound := hgroups.get hj (hgroups.length_eq ▸ hj)
  obtain ⟨before, behind, hsplit, -⟩ := List.lookup_eq_some_iff.1 hfound
  rw [hsplit, List.map_append, List.map_cons]
  exact List.mem_append_right _ List.mem_cons_self

/-- The named groups of a variant with groups around its tokens are those met in its literals and constraints. -/
theorem names_variant (hwell : layout.WellFormed) (hresolves : Resolves overrides layout.tokens) {i : Nat} {regex : Regex}
    (h : Regex.compile (variantText overrides (layout.variantPieces i)) = .ok regex) {name : String} :
    name ∈ regex.names.map (·.1) ↔ .inl name ∈ met overrides {} 0 (layout.partsTo i).flatten := by
  obtain ⟨-, hnames⟩ := Regex.cursor_of_compile h
  obtain ⟨-, hmet⟩ := names_grouped (unquestioned_partsTo hresolves i) (f := fun _ _ => none)
    (fun _ _ _ _ hname => by cases hname) {} 0
  rw [← hnames, ← variantText_partsTo hwell, toList_variantText 0,
    show Regex.Cursor.names {} (groupedText overrides _ 0 (layout.partsTo i).flatten) = _ from hmet, List.mem_filterMap]
  constructor
  · rintro ⟨own | ⟨j, token⟩, hmem, hname⟩
    · cases hname
      exact hmem
    · cases hname
  · exact fun hmem => ⟨.inl name, hmem, rfl⟩

/-- The groups of the first variants were found. -/
def NumberedTo (overrides : Overrides) (layout : Layout) (count : Nat) : Prop :=
  ∀ i ≤ count, ∃ groups, Numbered overrides (layout.variantPieces i) groups

/-- What is met in literals and constraints of a variant is written in the layout, and imitates a marker. -/
theorem written_of_met_variant (hwell : layout.WellFormed) (hgrammar : layout.Grammatical)
    (hresolves : Resolves overrides layout.tokens) {i : Nat} (hnumbered : NumberedTo overrides layout i) {name : String}
    (h : .inl name ∈ met overrides {} 0 (layout.partsTo i).flatten) :
    name ∈ markers (layout.tokensTo i).length ∧ Written overrides name layout.pieces := by
  constructor
  · obtain ⟨groups, hgroups⟩ := hnumbered i le_rfl
    exact ((met_of_numbered hwell hresolves hgroups).2 name).1 (List.mem_filterMap.2 ⟨_, h, rfl⟩)
  · have hs : ∀ count ≤ (layout.partsTo i).length,
        (({} : Cursor).after (variantText overrides ((layout.partsTo i).take count).flatten).toList).spot.trail = [] := by
      intro count hcount
      cases count with
      | zero => rfl
      | succ count =>
        rw [Layout.partsTo, List.length_cons, List.length_take] at hcount
        have htake : (layout.partsTo i).take (count + 1) = layout.partsTo count := by
          rw [Layout.partsTo, List.take_succ_cons, List.take_take, Nat.min_eq_left (by omega), Layout.partsTo]
        obtain ⟨groups, hgroups⟩ := hnumbered count (by omega)
        rw [htake]
        exact (met_of_numbered hwell hresolves hgroups).1.trail
    obtain ⟨part, hpart, hwritten⟩ := written_of_met_parts (unquestioned_partsTo hresolves i)
      (fun part hpart => isChain_partsTo hgrammar hpart) hs h
    exact written_of_part hpart hwritten

/-! ## The one expression -/

theorem toList_nested (texts : List String) : (nested texts).toList = Cursor.nestedText (texts.map String.toList) := by
  induction texts with
  | nil => rfl
  | cons text rest ih => simp [nested, Cursor.nestedText, ih]

/-- the alias of a token as the name of its group -/
def aliasing (layout : Layout) : Nat → Token → Option String := fun _ => namedBy (captureAliases layout.names)

theorem toList_assemble (hwell : layout.WellFormed) :
    (assemble layout.optionalStart (aliasedText overrides (captureAliases layout.names) layout.base)
        (layout.segments.map (aliasedText overrides (captureAliases layout.names)))).toList =
      groupedText overrides (aliasing layout) 0 (namedParts layout).1 ++
        Cursor.nestedText ((namedParts layout).2.map (groupedText overrides (aliasing layout) 0)) := by
  have htexts : ∀ segments : List (List Piece),
      (segments.map (aliasedText overrides (captureAliases layout.names))).map String.toList =
        segments.map (groupedText overrides (aliasing layout) 0) := fun segments => by
    rw [List.map_map]
    exact List.map_congr_left fun segment _ => toList_aliasedText _ 0 segment
  rw [namedParts]
  cases hstart : layout.optionalStart with
  | false =>
    rw [assemble, String.toList_append, toList_aliasedText _ 0, toList_nested, htexts]
    · rfl
    · simp
  | true =>
    obtain ⟨text, first, rest, hsegments⟩ := hwell.slash hstart
    have hfirst : (aliasedText overrides (captureAliases layout.names) (.literal ("/" ++ text) :: first)).toList.drop 1 =
        groupedText overrides (aliasing layout) 0 (withoutSlash (.literal ("/" ++ text) :: first)) := by
      rw [toList_aliasedText _ 0]
      show (groupedText overrides (aliasing layout) 0 _).drop 1 = _
      simp [groupedText, withoutSlash]
    have hslash : groupedText overrides (aliasing layout) 0 [.literal "/"] = "/".toList := by simp [groupedText]
    rw [hsegments, List.map_cons, assemble, String.toList_append, toList_nested, List.map_cons, String.toList_ofList,
      hfirst, htexts, if_pos rfl, hslash, List.map_cons, String.toList_ofList]
    rfl

/-- The alias of a token is one of the aliases, and an identifier. -/
theorem aliasing_mem (hnodup : layout.names.Nodup) {i : Nat} {token : Token} (htoken : token ∈ layout.tokens)
    {name : String} (hname : aliasing layout i token = some name) :
    name ∈ (captureAliases layout.names).map (·.1) ∧ Text.isIdentifier name = true := by
  refine ⟨?_, isIdentifier_namedBy hnodup htoken name hname⟩
  cases hname
  rw [← aliases_eq hnodup]
  exact List.mem_map_of_mem (List.mem_map_of_mem htoken)

/-- **A named group of the one expression** has an alias, or its name is written in the layout. -/
theorem names_expression (hwell : layout.WellFormed) (hgrammar : layout.Grammatical)
    (hresolves : Resolves overrides layout.tokens) {text : String} {regex : Regex}
    (htext : text.toList = groupedText overrides (aliasing layout) 0 (namedParts layout).1 ++
      Cursor.nestedText ((namedParts layout).2.map (groupedText overrides (aliasing layout) 0)))
    (h : Regex.compile text = .ok regex) {name : String} (hname : name ∈ regex.names.map (·.1)) :
    name ∈ (captureAliases layout.names).map (·.1) ∨ Written overrides name layout.pieces := by
  obtain ⟨-, hnames⟩ := Regex.cursor_of_compile h
  -- the name is met in one of the parts
  obtain ⟨part, hpart, t, ht, hmet⟩ : ∃ part ∈ layout.partsTo layout.segments.length, ∃ t : Cursor, t.spot.trail = [] ∧
      name ∈ t.names (groupedText overrides (aliasing layout) 0 part) := by
    rw [← hnames, htext, Cursor.names_append, List.mem_append] at hname
    rcases hname with hname | hname
    · exact ⟨_, List.mem_cons_self, {}, rfl, hname⟩
    · obtain ⟨_, htext, t, ht, hmet⟩ := Cursor.exists_of_names_nested hname
      obtain ⟨part, hpart, rfl⟩ := List.mem_map.1 htext
      refine ⟨part, List.mem_cons_of_mem _ ?_, t, ht, hmet⟩
      rwa [List.take_of_length_le (length_namedParts hwell).le]
  have hunquestioned : Unquestioned overrides part := (unquestioned_partsTo hresolves _).of_subset fun piece hpiece =>
    List.mem_flatten.2 ⟨part, hpart, hpiece⟩
  rw [(names_grouped hunquestioned (fun i token htoken name hname =>
    (aliasing_mem hwell.nodup (token_of_mem_partsTo hpart htoken) hname).2) t 0).2] at hmet
  obtain ⟨own | ⟨j, token⟩, hmem, hown⟩ := List.mem_filterMap.1 hmet
  · cases hown
    exact .inr (written_of_part hpart (written_of_met (isChain_partsTo hgrammar hpart) (fun _ _ => ht) hmem))
  · have htoken : token ∈ part.filterMap Piece.token? := by
      have hright := (sublist_met t 0 part).subset (List.mem_filterMap.2 ⟨_, hmem, rfl⟩)
      obtain ⟨⟨other, k⟩, hother, heq⟩ := List.mem_map.1 hright
      cases heq
      exact List.fst_mem_of_mem_zipIdx hother
    exact .inl (aliasing_mem (i := j) hwell.nodup (token_of_mem_partsTo hpart (token_mem_iff.1 htoken)) hown).1

theorem tokensTo_segments (layout : Layout) : layout.tokensTo layout.segments.length = layout.tokens := by
  rw [Layout.tokensTo, Layout.piecesTo, List.take_length, Layout.tokens_eq, Layout.pieces]

theorem tokens_partsTo (hwell : layout.WellFormed) :
    (layout.partsTo layout.segments.length).flatten.filterMap Piece.token? = layout.tokens := by
  rw [Layout.partsTo, List.take_of_length_le (length_namedParts hwell).le, List.flatten_cons, tokens_namedParts]

theorem eq_map_inr {α β : Type} {found : List (α ⊕ β)} (h : ∀ a, .inl a ∉ found) :
    found = (found.filterMap Sum.getRight?).map .inr := by
  induction found with
  | nil => rfl
  | cons first rest ih =>
    cases first with
    | inl a => exact absurd List.mem_cons_self (h a)
    | inr b => exact congrArg (Sum.inr b :: ·) (ih fun a ha => h a (List.mem_cons_of_mem _ ha))

/-- What is met where all groups were found and no marker is imitated: the group of each token. -/
theorem met_eq_tokens (hwell : layout.WellFormed) (hgrammar : layout.Grammatical)
    (hresolves : Resolves overrides layout.tokens) (hnumbered : NumberedTo overrides layout layout.segments.length)
    (howned : ∀ marker ∈ markers layout.tokens.length, ¬Written overrides marker layout.pieces) :
    met overrides {} 0 (layout.partsTo layout.segments.length).flatten =
      layout.tokens.zipIdx.map fun (token, i) => .inr (i, token) := by
  set found := met overrides {} 0 (layout.partsTo layout.segments.length).flatten with hfound
  have hnone : ∀ name, .inl name ∉ found := by
    intro name hname
    obtain ⟨hmarker, hwritten⟩ := written_of_met_variant hwell hgrammar hresolves hnumbered hname
    rw [tokensTo_segments] at hmarker
    exact howned name hmarker hwritten
  have hsublist : List.Sublist (found.filterMap Sum.getRight?) (layout.tokens.zipIdx.map Prod.swap) := by
    rw [← tokens_partsTo hwell, hfound]
    exact sublist_met {} 0 _
  -- every marker is met, so that none of the groups is missing
  have hnumbers : List.range layout.tokens.length ⊆ (found.filterMap Sum.getRight?).map Prod.fst := by
    intro i hi
    obtain ⟨groups, hgroups⟩ := hnumbered layout.segments.length le_rfl
    have hmarker : markerName i ∈ markers (layout.tokensTo layout.segments.length).length := by
      rw [tokensTo_segments]
      exact List.mem_map_of_mem hi
    obtain ⟨own | ⟨j, token⟩, hmem, hname⟩ :=
      List.mem_filterMap.1 (((met_of_numbered hwell hresolves hgroups).2 _).2 hmarker)
    · exact absurd hmem (hnone own)
    · obtain rfl : j = i := markerName_injective (Option.some.inj hname)
      exact List.mem_map.2 ⟨(j, token), List.mem_filterMap.2 ⟨_, hmem, rfl⟩, rfl⟩
  have hlength := (List.nodup_range.subperm hnumbers).length_le
  have hright : found.filterMap Sum.getRight? = layout.tokens.zipIdx.map Prod.swap :=
    hsublist.eq_of_length_le (by simpa using hlength)
  rw [eq_map_inr hnone, hright, List.map_map]
  rfl

theorem groupedText_flatten (parts : List (List Piece)) (k : Nat) :
    groupedText overrides (aliasing layout) k parts.flatten =
      (parts.map (groupedText overrides (aliasing layout) 0)).flatten := by
  induction parts generalizing k with
  | nil => rfl
  | cons part rest ih =>
    have hpart : groupedText overrides (aliasing layout) k part = groupedText overrides (aliasing layout) 0 part :=
      (toList_aliasedText _ k part).symm.trans (toList_aliasedText _ 0 part)
    rw [List.flatten_cons, groupedText_append, ih, hpart, List.map_cons, List.flatten_cons]

theorem filterMap_aliasing (hnodup : layout.names.Nodup) :
    layout.tokens.zipIdx.filterMap (fun (token, i) => aliasing layout i token) =
      (captureAliases layout.names).map (·.1) := by
  calc layout.tokens.zipIdx.filterMap (fun (token, i) => aliasing layout i token)
      = layout.tokens.zipIdx.map (fun (token, _) => aliasOf (captureAliases layout.names) token.name) :=
        congrFun (List.filterMap_eq_map (f := fun pair : Token × Nat => aliasOf (captureAliases layout.names) pair.1.name)) _
    _ = layout.tokens.map (fun token => aliasOf (captureAliases layout.names) token.name) := by
        conv_rhs => rw [← List.zipIdx_map_fst 0 layout.tokens, List.map_map]
        rfl
    _ = (captureAliases layout.names).map (·.1) := by
        rw [← aliases_eq hnodup, Layout.names, List.map_map]
        rfl

/-- **The named groups of the one expression are the aliases**, in order, where the positional parser finds all groups and
no marker is imitated. -/
theorem names_expression_eq (hwell : layout.WellFormed) (hgrammar : layout.Grammatical)
    (hresolves : Resolves overrides layout.tokens) (hnumbered : NumberedTo overrides layout layout.segments.length)
    (howned : ∀ marker ∈ markers layout.tokens.length, ¬Written overrides marker layout.pieces) {text : String}
    {regex : Regex}
    (htext : text.toList = groupedText overrides (aliasing layout) 0 (namedParts layout).1 ++
      Cursor.nestedText ((namedParts layout).2.map (groupedText overrides (aliasing layout) 0)))
    (h : Regex.compile text = .ok regex) : regex.names.map (·.1) = (captureAliases layout.names).map (·.1) := by
  obtain ⟨-, hnames⟩ := Regex.cursor_of_compile h
  have hidentifier : ∀ count i token, .token token ∈ (layout.partsTo count).flatten → ∀ name ∈ aliasing layout i token,
      Text.isIdentifier name = true := by
    intro count i token htoken name hname
    obtain ⟨part, hpart, hmem⟩ := List.mem_flatten.1 htoken
    exact (aliasing_mem hwell.nodup (token_of_mem_partsTo hpart hmem) hname).2
  have hgrouped := fun count => names_grouped (unquestioned_partsTo hresolves count) (hidentifier count) {} 0
  set head := groupedText overrides (aliasing layout) 0 (namedParts layout).1 with hhead
  set texts := (namedParts layout).2.map (groupedText overrides (aliasing layout) 0) with htexts
  have hflat : ∀ count, groupedText overrides (aliasing layout) 0 (layout.partsTo count).flatten =
      head ++ (texts.take count).flatten := by
    intro count
    rw [groupedText_flatten, Layout.partsTo, List.map_cons, List.flatten_cons, List.map_take]
  have hlength : texts.length = layout.segments.length := by rw [htexts, List.length_map, length_namedParts hwell]
  -- an expression may end before each segment
  have hends : ∀ count ≤ texts.length, ((({} : Cursor).after head).after (texts.take count).flatten).Ends := by
    intro count hcount
    obtain ⟨groups, hgroups⟩ := hnumbered count (hlength ▸ hcount)
    rw [← Cursor.after_append, ← hflat, (hgrouped count).1]
    exact (met_of_numbered hwell hresolves hgroups).1
  have hnested := Cursor.names_nested [] hends
  rw [Cursor.under_nil] at hnested
  have hall := (hgrouped layout.segments.length).2
  rw [hflat, List.take_of_length_le hlength.le, met_eq_tokens hwell hgrammar hresolves hnumbered howned] at hall
  rw [← hnames, htext, Cursor.names_append, hnested, ← Cursor.names_append, hall, List.filterMap_map]
  exact filterMap_aliasing hwell.nodup

/-! ## Refusals -/

theorem rejectNamedGroups_named {regex : Regex} (h : regex.names ≠ []) (pattern : Option String) :
    rejectNamedGroups pattern [] regex =
      .error (.fault (.namedGroups ((regex.names.map (·.1)).mergeSort fun a b => a ≤ b)) pattern) := by
  have hall : (regex.names.map (·.1)).filter (!([] : List String).contains ·) = regex.names.map (·.1) := by simp
  unfold rejectNamedGroups
  rw [hall]
  cases hnames : regex.names.map (·.1) with
  | nil => exact absurd (List.map_eq_nil_iff.1 hnames) h
  | cons name rest => rfl

/-- **A constraint that names a group** is refused with the names that it gives. -/
theorem resolveConstraint_named {token : Token} {regex : Regex}
    (h : Regex.compile (token.constraintText overrides) = .ok regex) (hnamed : regex.names ≠ []) (pattern : Option String) :
    resolveConstraint token overrides pattern =
      .error (.fault (.namedGroups ((regex.names.map (·.1)).mergeSort fun a b => a ≤ b)) pattern) := by
  unfold resolveConstraint
  cases hgiven : token.givenConstraint? overrides with
  | none =>
    obtain ⟨plain, hplain, hnone⟩ := compile_defaultConstraint
    rw [Token.constraintText, hgiven, Option.getD_none, hplain] at h
    cases h
    exact absurd hnone hnamed
  | some given =>
    rw [Token.constraintText, hgiven, Option.getD_some] at h
    simp only [compileOr_ok h, ok_bind, rejectNamedGroups_named hnamed]
    rfl

/-- The result is the error of a constraint that does not resolve. -/
def FailsOnConstraint (overrides : Overrides) (pattern : String) (tokens : List Token) {α : Type}
    (result : Except Error α) : Prop :=
  ∃ token ∈ tokens, ∃ e, resolveConstraint token overrides (some pattern) = .error e ∧ result = .error e

theorem markForm_failsOnConstraint {pattern : String} (hdynamic : isDynamic pattern = true)
    (hlayout : analyze pattern = .ok layout) (hresolves : ¬Resolves overrides layout.tokens) :
    FailsOnConstraint overrides pattern layout.tokens (MarkForm.parse pattern overrides) := by
  unfold MarkForm.parse
  rw [if_neg (not_root_of_dynamic hdynamic), if_neg (by simp [hdynamic]), hlayout, ok_bind]
  cases hconstraints : (layout.tokens.mapM fun token => do
      return (token.name, ← resolveConstraint token overrides (some pattern)) : Except Error _) with
  | ok constraints => exact absurd (resolves_of_mapM hconstraints).1 hresolves
  | error e =>
    obtain ⟨token, htoken, h⟩ := exists_of_mapM_eq_error hconstraints
    rcases bind_eq_error.1 h with h | ⟨_, -, h⟩
    · exact ⟨token, htoken, e, h, rfl⟩
    · cases h

theorem renderNamed_eq_error {pattern : String} {captures : List (String × String)} {pieces : List Piece} {e : Error}
    (h : renderNamed pattern overrides captures pieces = .error e) :
    ∃ token ∈ pieces.filterMap Piece.token?, resolveConstraint token overrides (some pattern) = .error e := by
  induction pieces with
  | nil => cases h
  | cons piece rest ih =>
    cases piece with
    | literal text =>
      rcases bind_eq_error.1 h with h | ⟨_, -, h⟩
      · exact ih h
      · cases h
    | token token =>
      rcases bind_eq_error.1 h with h | ⟨_, -, h⟩
      · exact ⟨token, List.mem_cons_self, h⟩
      rcases bind_eq_error.1 h with h | ⟨_, -, h⟩
      · obtain ⟨other, hother, herror⟩ := ih h
        exact ⟨other, List.mem_cons_of_mem token hother, herror⟩
      · cases h

theorem namedForm_failsOnConstraint {pattern : String} (hdynamic : isDynamic pattern = true)
    (hlayout : analyze pattern = .ok layout) (hresolves : ¬Resolves overrides layout.tokens) :
    FailsOnConstraint overrides pattern layout.tokens (NamedForm.parse pattern overrides) := by
  unfold NamedForm.parse
  rw [if_neg (not_root_of_dynamic hdynamic), if_neg (by simp [hdynamic]), hlayout, ok_bind]
  -- the segments are rendered before the base
  cases hsegments : layout.segments.mapM (renderNamed pattern overrides (captureAliases layout.names)) with
  | error e =>
    obtain ⟨segment, hsegment, h⟩ := exists_of_mapM_eq_error hsegments
    obtain ⟨token, htoken, herror⟩ := renderNamed_eq_error h
    have hmem : token ∈ layout.tokens := List.mem_append_right _ (List.mem_flatMap.2 ⟨segment, hsegment, htoken⟩)
    exact ⟨token, hmem, e, herror, by simp only [hsegments, error_bind]⟩
  | ok segments =>
    cases hbase : renderNamed pattern overrides (captureAliases layout.names) layout.base with
    | error e =>
      obtain ⟨token, htoken, herror⟩ := renderNamed_eq_error hbase
      exact ⟨token, List.mem_append_left _ htoken, e, herror, by simp only [hsegments, hbase, ok_bind, error_bind]⟩
    | ok base => exact absurd (resolves_of_rendered hsegments hbase) hresolves

/-- **A static pattern that names a group** is refused by the positional parser. -/
theorem markForm_named {pattern : String} {regex : Regex} (hstatic : isDynamic pattern = false)
    (h : Regex.compile pattern = .ok regex) (hnamed : regex.names ≠ []) :
    MarkForm.parse pattern overrides =
      .error (.fault (.namedGroups ((regex.names.map (·.1)).mergeSort fun a b => a ≤ b)) (some pattern)) := by
  have hroot : ¬(pattern = "" ∨ pattern = "/") := by
    intro hroot
    have hnames := (Regex.cursor_of_compile h).2
    rcases hroot with rfl | rfl
    · exact hnamed (List.map_eq_nil_iff.1 hnames.symm)
    · exact hnamed (List.map_eq_nil_iff.1 hnames.symm)
  unfold MarkForm.parse
  rw [if_neg (by simpa using hroot), if_pos (by rw [hstatic]; rfl)]
  simp only [compileOr_ok h, ok_bind, rejectNamedGroups_named hnamed]
  rfl

/-! ## Whose the named groups are -/

theorem grammatical_of_analyze {pattern : String} {layout : Layout} (h : analyze pattern = .ok layout) :
    layout.Grammatical := by
  unfold analyze at h
  cases hread : readLayout pattern with
  | error fault => rw [hread] at h; cases h
  | ok found =>
    rw [hread] at h
    cases h
    exact grammatical_of_readLayout hread

/-- The positional parser finds the groups of every variant. -/
theorem numberedTo_of_parse {groups : List (List Nat)}
    (h : List.Forall₂ (Numbered overrides) layout.variants groups) :
    NumberedTo overrides layout layout.segments.length := by
  intro i hi
  obtain ⟨hlt, hpieces⟩ := List.getElem?_eq_some_iff.1 (getElem?_variants layout i hi)
  have hnumbered := h.get hlt (h.length_eq ▸ hlt)
  rw [List.get_eq_getElem, hpieces] at hnumbered
  exact ⟨_, hnumbered⟩

/-- Of a variant: they are written in literals and constraints, and imitate markers. -/
theorem names_variant_of_parse {pattern : String} {form : MarkForm} (h : MarkForm.parse pattern overrides = .ok form) :
    ∃ layout, layoutOf pattern = .ok layout ∧
      ∀ i variant regex, form.variants[i]? = some variant → Regex.compile variant = .ok regex →
        ∀ name ∈ regex.names.map (·.1),
          name ∈ markers (layout.tokensTo i).length ∧ Written overrides name layout.pieces := by
  cases hdynamic : isDynamic pattern with
  | false =>
    obtain ⟨rfl, plain, hplain, hnone⟩ := markForm_of_static hdynamic h
    refine ⟨_, layoutOf_static hdynamic, fun i variant regex hvariant hregex name hname => ?_⟩
    obtain rfl := List.mem_singleton.1 (List.mem_of_getElem? hvariant)
    cases hplain.symm.trans hregex
    rw [hnone] at hname
    exact absurd hname List.not_mem_nil
  | true =>
    obtain ⟨layout, hlayout, hwell, hresolves, hvariants, -, hgroups⟩ := markForm_of_parse hdynamic h
    refine ⟨layout, (layoutOf_dynamic hdynamic).trans hlayout, fun i variant regex hvariant hregex name hname => ?_⟩
    have hi : i ≤ layout.segments.length := by
      have hlt := (List.getElem?_eq_some_iff.1 hvariant).1
      rw [hvariants, List.length_map, length_variants] at hlt
      omega
    rw [hvariants, List.getElem?_map, getElem?_variants layout i hi] at hvariant
    obtain rfl : variantText overrides (layout.variantPieces i) = variant := Option.some.inj hvariant
    exact written_of_met_variant hwell (grammatical_of_analyze hlayout) hresolves
      (fun j hj => numberedTo_of_parse hgroups j (hj.trans hi)) ((names_variant hwell hresolves hregex).1 hname)

/-- Of the one expression: they are aliases, or written in literals and constraints. -/
theorem names_expression_of_parse {pattern : String} {form : NamedForm}
    (h : NamedForm.parse pattern overrides = .ok form) :
    ∃ layout, layoutOf pattern = .ok layout ∧
      ∀ regex, Regex.compile form.regex = .ok regex → ∀ name ∈ regex.names.map (·.1),
        name ∈ form.captures.map (·.1) ∨ Written overrides name layout.pieces := by
  cases hdynamic : isDynamic pattern with
  | false =>
    cases (namedForm_of_static hdynamic).symm.trans h
    refine ⟨_, layoutOf_static hdynamic, fun regex hregex name hname => .inr (.inl ⟨_, List.mem_singleton_self _, ?_⟩)⟩
    rw [← (Regex.cursor_of_compile hregex).2] at hname
    exact Cursor.opens_of_names [] (s := {}) List.nil_suffix hname
  | true =>
    obtain ⟨layout, hlayout, hresolves, hcaptures, htext⟩ := namedForm_of_parse hdynamic h
    have hlayoutOf := (layoutOf_dynamic hdynamic).trans hlayout
    have hwell := wellFormed_of_layoutOf hlayoutOf
    refine ⟨layout, hlayoutOf, fun regex hregex name hname => ?_⟩
    rw [hcaptures] at htext ⊢
    exact names_expression hwell (grammatical_of_analyze hlayout) hresolves (htext ▸ toList_assemble hwell) hregex hname

/-- Where both parsers accept and nothing imitates a marker, the groups of the one expression are the aliases. -/
theorem names_of_both {pattern : String} {mark : MarkForm} {named : NamedForm} {layout : Layout}
    (hmark : MarkForm.parse pattern overrides = .ok mark) (hnamed : NamedForm.parse pattern overrides = .ok named)
    (hlayout : layoutOf pattern = .ok layout)
    (howned : ∀ marker ∈ markers layout.tokens.length, ¬Written overrides marker layout.pieces) {regex : Regex}
    (hregex : Regex.compile named.regex = .ok regex) :
    regex.names.map (·.1) = named.captures.map (·.1) ∧ (named.captures.map (·.1)).Nodup := by
  cases hdynamic : isDynamic pattern with
  | false =>
    obtain ⟨-, plain, hplain, hnone⟩ := markForm_of_static hdynamic hmark
    cases (namedForm_of_static hdynamic).symm.trans hnamed
    cases hplain.symm.trans hregex
    exact ⟨by rw [hnone]; rfl, List.nodup_nil⟩
  | true =>
    obtain ⟨_, hanalyzed, hwell, hresolves, -, -, hgroups⟩ := markForm_of_parse hdynamic hmark
    obtain ⟨_, hanalyzed', -, hcaptures, htext⟩ := namedForm_of_parse hdynamic hnamed
    rw [layoutOf_dynamic hdynamic] at hlayout
    cases hanalyzed.symm.trans hlayout
    cases hanalyzed'.symm.trans hlayout
    rw [hcaptures] at htext ⊢
    exact ⟨names_expression_eq hwell (grammatical_of_analyze hlayout) hresolves (numberedTo_of_parse hgroups) howned
      (htext ▸ toList_assemble hwell) hregex, captureAliases_nodup hwell.nodup⟩

/-- A constraint that names a group keeps both parsers from accepting. -/
theorem failsOnConstraint_of_named {pattern : String} {layout : Layout} (hlayout : layoutOf pattern = .ok layout)
    {token : Token} (htoken : token ∈ layout.tokens) {regex : Regex}
    (hregex : Regex.compile (token.constraintText overrides) = .ok regex) (hnames : regex.names ≠ []) :
    FailsOnConstraint overrides pattern layout.tokens (MarkForm.parse pattern overrides) ∧
      FailsOnConstraint overrides pattern layout.tokens (NamedForm.parse pattern overrides) := by
  have hdynamic : isDynamic pattern = true := by
    by_contra hstatic
    cases (layoutOf_static (Bool.eq_false_iff.2 hstatic)).symm.trans hlayout
    exact List.not_mem_nil htoken
  have hresolves : ¬Resolves overrides layout.tokens := by
    intro hresolves
    obtain ⟨plain, hplain, hnone⟩ := hresolves.compile htoken
    cases hplain.symm.trans hregex
    exact hnames hnone
  rw [layoutOf_dynamic hdynamic] at hlayout
  exact ⟨markForm_failsOnConstraint hdynamic hlayout hresolves, namedForm_failsOnConstraint hdynamic hlayout hresolves⟩

/-- **Whose the named groups are.** Of every pattern, static or dynamic, and all overrides:
- a named group of a compiled variant has the marker of a token of the variant for its name, and that name is written in a
  literal or a constraint;
- a named group of the compiled named expression has an alias for its name, or a name written in a literal or a
  constraint;
- where both parsers accept the pattern and no literal or constraint opens a group with the name of a marker, no variant
  has a named group and those of the named expression are the aliases, each once and in order;
- a constraint that names a group, inline or given, is refused with its names, and both parsers fail with the error of
  this constraint or of another;
- a static pattern that names a group is refused by the positional parser. -/
theorem named_groups (pattern : String) (overrides : Overrides) :
    (∀ form, MarkForm.parse pattern overrides = .ok form → ∃ layout, layoutOf pattern = .ok layout ∧
      ∀ i variant regex, form.variants[i]? = some variant → Regex.compile variant = .ok regex →
        ∀ name ∈ regex.names.map (·.1),
          name ∈ markers (layout.tokensTo i).length ∧ Written overrides name layout.pieces) ∧
    (∀ form, NamedForm.parse pattern overrides = .ok form → ∃ layout, layoutOf pattern = .ok layout ∧
      ∀ regex, Regex.compile form.regex = .ok regex → ∀ name ∈ regex.names.map (·.1),
        name ∈ form.captures.map (·.1) ∨ Written overrides name layout.pieces) ∧
    (∀ mark named layout, MarkForm.parse pattern overrides = .ok mark → NamedForm.parse pattern overrides = .ok named →
      layoutOf pattern = .ok layout → (∀ marker ∈ markers layout.tokens.length, ¬Written overrides marker layout.pieces) →
        (∀ variant ∈ mark.variants, ∀ regex, Regex.compile variant = .ok regex → regex.names = []) ∧
        ∀ regex, Regex.compile named.regex = .ok regex →
          regex.names.map (·.1) = named.captures.map (·.1) ∧ (named.captures.map (·.1)).Nodup) ∧
    (∀ layout token regex, layoutOf pattern = .ok layout → token ∈ layout.tokens →
      Regex.compile (token.constraintText overrides) = .ok regex → regex.names ≠ [] →
        resolveConstraint token overrides (some pattern) =
          .error (.fault (.namedGroups ((regex.names.map (·.1)).mergeSort fun a b => a ≤ b)) (some pattern)) ∧
        FailsOnConstraint overrides pattern layout.tokens (MarkForm.parse pattern overrides) ∧
        FailsOnConstraint overrides pattern layout.tokens (NamedForm.parse pattern overrides)) ∧
    ∀ regex, isDynamic pattern = false → Regex.compile pattern = .ok regex → regex.names ≠ [] →
      MarkForm.parse pattern overrides =
        .error (.fault (.namedGroups ((regex.names.map (·.1)).mergeSort fun a b => a ≤ b)) (some pattern)) := by
  refine ⟨fun form hform => names_variant_of_parse hform, fun form hform => names_expression_of_parse hform, ?both, ?refused,
    fun regex hstatic hregex hnames => markForm_named hstatic hregex hnames⟩
  case both =>
    intro mark named layout hmark hnamed hlayout howned
    refine ⟨fun variant hvariant regex hregex => ?_, fun regex hregex => names_of_both hmark hnamed hlayout howned hregex⟩
    obtain ⟨_, hlayout', hnames⟩ := names_variant_of_parse hmark
    cases hlayout'.symm.trans hlayout
    obtain ⟨i, hi⟩ := List.getElem?_of_mem hvariant
    refine names_eq_nil_of_forall fun name hname => ?_
    obtain ⟨hmarker, hwritten⟩ := hnames i variant regex hi hregex name hname
    exact howned name (markers_mono (prefix_tokensTo layout i).length_le hmarker) hwritten
  case refused =>
    intro layout token regex hlayout htoken hregex hnames
    exact ⟨resolveConstraint_named hregex hnames _, failsOnConstraint_of_named hlayout htoken hregex hnames⟩

/-- the layout of `/(?:p|q)/{page}[/{key}]` -/
def sortedPages : Layout where
  base := [.literal "/(?:p|q)/", .token ⟨"\x7bpage\x7d", "page", none⟩]
  segments := [[.literal "/", .token ⟨"\x7bkey\x7d", "key", none⟩]]

theorem sortedPages_unnamed (name : String) : ¬Written [] name sortedPages.pieces := by
  rintro (⟨text, htext, hopens⟩ | ⟨token, htoken, hopens⟩)
  · have hmem : '<' ∈ text.toList := hopens.subset (by simp [Regex.naming])
    have hliterals : ∀ text, .literal text ∈ sortedPages.pieces → '<' ∉ text.toList := by
      simp [sortedPages, Layout.pieces]
    exact hliterals text htext hmem
  · have hmem : '<' ∈ (token.constraintText []).toList := hopens.subset (by simp [Regex.naming])
    have hconstraints : ∀ token ∈ sortedPages.tokens, '<' ∉ (token.constraintText []).toList := by decide
    exact hconstraints token (Layout.tokens_eq sortedPages ▸ token_mem_iff.2 htoken) hmem

theorem sortedPages_groups :
    (∃ named regex, NamedForm.parse "/(?:p|q)/\x7bpage\x7d[/\x7bkey\x7d]" [] = .ok named ∧
      Regex.compile named.regex = .ok regex ∧ regex.names.map (·.1) = named.captures.map (·.1)) ∧
      MarkForm.parse "/p/(?P<k>a)" [] = .error (.fault (.namedGroups ["k"]) (some "/p/(?P<k>a)")) := by
  constructor
  · have hlayout : layoutOf "/(?:p|q)/\x7bpage\x7d[/\x7bkey\x7d]" = .ok sortedPages :=
      toOption_eq_some.1 (by decide +kernel)
    obtain ⟨mark, hmark⟩ : ∃ mark, MarkForm.parse "/(?:p|q)/\x7bpage\x7d[/\x7bkey\x7d]" [] = .ok mark :=
      exists_of_isSome (by decide +kernel)
    obtain ⟨named, hnamed, hcompiles⟩ : ∃ named, NamedForm.parse "/(?:p|q)/\x7bpage\x7d[/\x7bkey\x7d]" [] = .ok named ∧
        ∃ regex, Regex.compile named.regex = .ok regex := by
      have hboth : ((NamedForm.parse "/(?:p|q)/\x7bpage\x7d[/\x7bkey\x7d]" []).toOption.bind fun named =>
          (Regex.compile named.regex).toOption).isSome = true := by decide +kernel
      obtain ⟨regex, hregex⟩ := Option.isSome_iff_exists.1 hboth
      obtain ⟨named, hnamed, hregex⟩ := Option.bind_eq_some_iff.1 hregex
      exact ⟨named, toOption_eq_some.1 hnamed, regex, toOption_eq_some.1 hregex⟩
    obtain ⟨regex, hregex⟩ := hcompiles
    have hown := (named_groups "/(?:p|q)/\x7bpage\x7d[/\x7bkey\x7d]" []).2.2.1 mark named sortedPages hmark hnamed hlayout
      fun marker _ => sortedPages_unnamed marker
    exact ⟨named, regex, hnamed, hregex, (hown.2 regex hregex).1⟩
  · obtain ⟨regex, hregex, hnames⟩ : ∃ regex, Regex.compile "/p/(?P<k>a)" = .ok regex ∧ regex.names = [("k", 1)] := by
      have hnames : (Regex.compile "/p/(?P<k>a)").toOption.map (·.names) = some [("k", 1)] := by decide +kernel
      obtain ⟨regex, hregex, hnames⟩ := Option.map_eq_some_iff.1 hnames
      exact ⟨regex, toOption_eq_some.1 hregex, hnames⟩
    have hrefused := (named_groups "/p/(?P<k>a)" []).2.2.2.2 regex (by decide +kernel) hregex (by simp [hnames])
    rwa [hnames, List.map_singleton, List.mergeSort_singleton] at hrefused

/-- **Groups that nobody named and a group that got lost.** The named parser lets a literal or a static pattern name a
group, which the positional parser refuses. A comment in a literal may hide a token, whose alias the expression then does
not have. The positional parser takes a group for its own that is called like a marker whose token is hidden. -/
theorem foreign_groups_accepted :
    ((NamedForm.parse "/p/(?P<k>a|b)/\x7bpage\x7d" []).toOption.bind fun form =>
        (Regex.compile form.regex).toOption.map fun regex => (regex.names.map (·.1), form.captures)) =
      some (["k", "page"], [("page", "page")]) ∧
    MarkForm.parse "/p/(?P<k>a|b)/\x7bpage\x7d" [] =
      .error (.fault (.namedGroups ["k"]) (some "/p/(?P<k>a|b)/\x7bpage\x7d")) ∧
    ((NamedForm.parse "/p/(?P<k>a)" []).toOption.bind fun form =>
        (Regex.compile form.regex).toOption.map fun regex => (regex.names.map (·.1), form.captures)) =
      some (["k"], []) ∧
    ((NamedForm.parse "/(?#\x7ba\x7dx" []).toOption.bind fun form =>
        (Regex.compile form.regex).toOption.map fun regex => (regex.names.map (·.1), form.captures)) =
      some ([], [("a", "a")]) ∧
    ((MarkForm.parse "/(?#\x7ba\x7d(?P<_sw0>x)" []).toOption.map fun form =>
        form.variants.filterMap fun variant => (Regex.compile variant).toOption.map fun regex => regex.names.map (·.1)) =
      some [["_sw0"]] := by
  exact ⟨by decide +kernel, by decide +kernel, by decide +kernel, by decide +kernel, by decide +kernel⟩

end UrlRouter.Pattern
