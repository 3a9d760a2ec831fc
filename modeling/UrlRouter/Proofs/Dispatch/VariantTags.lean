/-
Variants, groups and attributes side by side.

The variants of a pattern, the groups of each and the attributes of all come from three passes over its layout. They are
put together by position alone: the `i`th tuple of groups belongs to the `i`th variant, and as many of the attributes as
it has groups are those of the variant's tokens. A pattern that opens with its chain has the root path in the place of
its first variant, which has no token.

Results:
- `getElem?_variants`: the variants by number.
- `prefix_variantText`: the text of a variant begins with that of the variant before it.
- `markChunk_lookup`: what stands behind the tag of a variant in a chunk.
- `variants_aligned`: variants, groups and attributes fit together.
-/
import Mathlib.Tactic
import UrlRouter.Proofs.Dispatch.Tags
import UrlRouter.Proofs.Pattern.ParsedForms
import UrlRouter.Proofs.Route.Generation

namespace UrlRouter

open Pattern (Layout Piece Token MarkForm NamedForm Overrides variantText)

/-! ## Variants by number -/

/-- the pieces of the `i`th variant, which has the first `i` segments -/
def Pattern.Layout.variantPieces (layout : Layout) (i : Nat) : List Piece :=
  if layout.optionalStart ∧ i = 0 then [.literal "/"] else layout.piecesTo i

theorem getElem?_extensions (start : List Piece) (segments : List (List Piece)) (i : Nat) (hi : i < segments.length) :
    (Layout.extensions start segments)[i]? = some (start ++ (segments.take (i + 1)).flatten) := by
  induction segments generalizing start i with
  | nil => exact absurd hi (Nat.not_lt_zero i)
  | cons segment rest ih =>
    rw [Layout.extensions]
    cases i with
    | zero => simp
    | succ i =>
      rw [List.getElem?_cons_succ, ih (start ++ segment) i (Nat.lt_of_succ_lt_succ hi), List.take_succ_cons,
        List.flatten_cons, List.append_assoc]

theorem length_extensions (start : List Piece) (segments : List (List Piece)) :
    (Layout.extensions start segments).length = segments.length := by
  induction segments generalizing start with
  | nil => rfl
  | cons segment rest ih => rw [Layout.extensions, List.length_cons, ih, List.length_cons]

theorem length_variants (layout : Layout) : layout.variants.length = 1 + layout.segments.length := by
  rw [Pattern.variants_eq, List.length_cons, length_extensions, Nat.add_comm]

/-- **The variants by number.** -/
theorem getElem?_variants (layout : Layout) (i : Nat) (hi : i ≤ layout.segments.length) :
    layout.variants[i]? = some (layout.variantPieces i) := by
  rw [Pattern.variants_eq, Layout.variantPieces]
  cases i with
  | zero =>
    rw [List.getElem?_cons_zero, Layout.piecesTo, List.take_zero, List.flatten_nil, List.append_nil]
    simp only [and_true]
  | succ i =>
    rw [List.getElem?_cons_succ, getElem?_extensions _ _ i hi, if_neg (fun h => Nat.succ_ne_zero i h.2),
      Layout.piecesTo]

/-- The tokens of a variant are those of the base and of the segments that it has. -/
theorem tokens_variantPieces (layout : Layout) (i : Nat) :
    (layout.variantPieces i).filterMap Piece.token? = layout.tokensTo i := by
  rw [Layout.variantPieces]
  split_ifs with hstart
  · obtain ⟨hstart, rfl⟩ := hstart
    rw [Layout.tokensTo, Layout.piecesTo, (Pattern.optionalStart_iff.1 hstart).1]
    rfl
  · rfl

theorem prefix_tokensTo (layout : Layout) (i : Nat) : layout.tokensTo i <+: layout.tokens := by
  rw [Layout.tokens_eq]
  exact ((List.prefix_append_right_inj _).2 (Pattern.prefix_flatten_take _ _)).filterMap Piece.token?

/-- **A variant goes on where the one before it ends**, also when the chain opens the pattern. -/
theorem prefix_variantText {layout : Layout} (hwell : layout.WellFormed) (overrides : Overrides) (i : Nat)
    (hi : i < layout.segments.length) :
    (variantText overrides (layout.variantPieces i)).toList <+:
      (variantText overrides (layout.variantPieces (i + 1))).toList := by
  have hnext : layout.variantPieces (i + 1) = layout.piecesTo (i + 1) := if_neg fun h => Nat.succ_ne_zero i h.2
  rw [hnext]
  by_cases hroot : layout.optionalStart = true ∧ i = 0
  · obtain ⟨hstart, rfl⟩ := hroot
    obtain ⟨text, first, rest, hsegments⟩ := hwell.slash hstart
    have hfirst : layout.piecesTo 1 = .literal ("/" ++ text) :: first := by
      rw [Layout.piecesTo, (Pattern.optionalStart_iff.1 hstart).1, hsegments]
      simp
    rw [Layout.variantPieces, if_pos ⟨hstart, rfl⟩, hfirst]
    exact ⟨text.toList ++ (variantText overrides first).toList, by simp [variantText, Pattern.render]⟩
  · rw [Layout.variantPieces, if_neg hroot]
    have hlonger : layout.piecesTo (i + 1) = layout.piecesTo i ++ layout.segments[i] := by
      rw [Layout.piecesTo, Layout.piecesTo, List.take_succ_eq_append_getElem hi, List.flatten_append, List.append_assoc]
      simp
    rw [hlonger, variantText, variantText, Pattern.toList_render_append]
    exact List.prefix_append _ _

/-! ## Tags -/

/-- **What stands behind the tag of a variant**: its route, its share of the attributes and its groups. -/
theorem markChunk_lookup {routes : List (Collected .mark)} {k : Nat} {route : Collected .mark}
    (hroute : routes[k]? = some route) {i : Nat} {variant : String} {groups : List Nat}
    (hvariant : route.form.variants[i]? = some variant) (hgroups : route.form.groups[i]? = some groups) :
    (markChunk routes).tags.lookup (variantTagName k i) =
      some ⟨route.name, route.form.attributes.take groups.length, groups.map Int.ofNat⟩ := by
  refine lookup_of_nodup (nodup_tags_markChunk routes) ?_
  have htag : (variantTagName k i, variant,
      (⟨route.name, route.form.attributes.take groups.length, groups.map Int.ofNat⟩ : VariantTag)) ∈
        routeTags k route := by
    refine List.mem_map.2 ⟨((variant, groups), i), ?_, rfl⟩
    rw [List.mem_zipIdx_iff_getElem?, List.getElem?_zip_eq_some]
    exact ⟨hvariant, hgroups⟩
  refine List.mem_map.2 ⟨_, List.mem_flatten.2 ⟨routeTags k route, List.mem_map.2 ⟨(route, k), ?_, rfl⟩, htag⟩, rfl⟩
  rwa [List.mem_zipIdx_iff_getElem?]

/-! ## Side by side -/

/-- **Variants, groups and attributes fit together.** Where a dynamic pattern has a positional form:
- there are one more variants than segments and as many tuples of groups, the `i`th variant being the text of the base
  with the first `i` segments, or the root path where the chain opens the pattern and no segment is there;
- the text of a variant begins with that of the variant before it;
- the attributes are the names of all tokens from left to right, each once;
- the `i`th tuple has one group for every token of the `i`th variant, so that as many of the attributes are the names of
  just these tokens, and in a chunk the tag of the variant stands for them;
- the named form of the pattern, where there is one, has the same attributes. -/
theorem variants_aligned (pattern : String) (overrides : Overrides) (form : MarkForm)
    (hdynamic : Pattern.isDynamic pattern = true) (hform : MarkForm.parse pattern overrides = .ok form) :
    ∃ layout, Pattern.analyze pattern = .ok layout ∧
      form.variants.length = 1 + layout.segments.length ∧ form.groups.length = 1 + layout.segments.length ∧
      (∀ i ≤ layout.segments.length, form.variants[i]? = some (variantText overrides (layout.variantPieces i))) ∧
      (∀ i shorter longer, form.variants[i]? = some shorter → form.variants[i + 1]? = some longer →
        shorter.toList <+: longer.toList) ∧
      form.attributes = layout.tokens.map (·.name) ∧ form.attributes.Nodup ∧
      (∀ i groups, form.groups[i]? = some groups →
        groups.length = (layout.tokensTo i).length ∧
        form.attributes.take groups.length = (layout.tokensTo i).map (·.name) ∧
        ∀ routes k name, routes[k]? = some ⟨name, form⟩ → (markChunk routes).tags.lookup (variantTagName k i) =
          some ⟨name, (layout.tokensTo i).map (·.name), groups.map Int.ofNat⟩) ∧
      ∀ others named, NamedForm.parse pattern others = .ok named → named.attributes = form.attributes := by
  obtain ⟨layout, hlayout, hwell, -, hvariants, hattributes, hnumbered⟩ := Pattern.markForm_of_parse hdynamic hform
  have hlength : form.groups.length = 1 + layout.segments.length := by
    rw [← hnumbered.length_eq, length_variants]
  have htext : ∀ i ≤ layout.segments.length,
      form.variants[i]? = some (variantText overrides (layout.variantPieces i)) := by
    intro i hi
    rw [hvariants, List.getElem?_map, getElem?_variants layout i hi, Option.map_some]
  refine ⟨layout, hlayout, ?_, hlength, htext, ?_, hattributes, ?_, ?_, ?_⟩
  · rw [hvariants, List.length_map, length_variants]
  · intro i shorter longer hshorter hlonger
    have hi : i < layout.segments.length := by
      have hbound := (List.getElem?_eq_some_iff.1 hlonger).1
      rw [hvariants, List.length_map, length_variants] at hbound
      omega
    obtain rfl := Option.some.inj ((htext i hi.le).symm.trans hshorter)
    obtain rfl := Option.some.inj ((htext (i + 1) hi).symm.trans hlonger)
    exact prefix_variantText hwell overrides i hi
  · rw [hattributes]
    exact hwell.nodup
  · intro i groups hgroups
    have hi : i ≤ layout.segments.length := by
      have hbound := (List.getElem?_eq_some_iff.1 hgroups).1
      omega
    have hcount : groups.length = (layout.tokensTo i).length := by
      rw [← tokens_variantPieces]
      have hpair : (layout.variants.zip form.groups)[i]? = some (layout.variantPieces i, groups) :=
        List.getElem?_zip_eq_some.2 ⟨getElem?_variants layout i hi, hgroups⟩
      exact (List.forall₂_zip hnumbered (List.mem_of_getElem? hpair)).length_eq
    have hnames : form.attributes.take groups.length = (layout.tokensTo i).map (·.name) := by
      rw [hattributes, Layout.names, hcount, ← List.map_take, ← List.prefix_iff_eq_take.1 (prefix_tokensTo layout i)]
    refine ⟨hcount, hnames, fun routes k name hroute => ?_⟩
    rw [← hnames]
    exact markChunk_lookup hroute (htext i hi) hgroups
  · intro others named hnamed
    obtain ⟨found, hfound, -, hcaptures, -⟩ := Pattern.namedForm_of_parse hdynamic hnamed
    obtain rfl : layout = found := Except.ok.inj (hlayout.symm.trans hfound)
    rw [NamedForm.attributes, hcaptures, Pattern.captureAliases_names, hattributes]

/-- A page whose chain opens the pattern, with a group in a constraint. Its last variant has three of four groups. -/
theorem bookPage_aligned :
    ∃ (form : MarkForm) (layout : Layout),
      MarkForm.parse "[/\x7blang:(en|de)\x7d;/books;/\x7bbook-id\x7d.\x7bpage\x7d]" [("page", "\\d+")] = .ok form ∧
      form.variants = ["/", "/((en|de))", "/((en|de))/books", "/((en|de))/books/([^/]+).(\\d+)"] ∧
      form.groups = [[], [1], [1], [1, 3, 4]] ∧ form.attributes = layout.tokens.map (·.name) ∧
      ∀ i (groups : List Nat), form.groups[i]? = some groups →
        form.attributes.take groups.length = (layout.tokensTo i).map (·.name) := by
  have hparsed : (MarkForm.parse "[/\x7blang:(en|de)\x7d;/books;/\x7bbook-id\x7d.\x7bpage\x7d]"
      [("page", "\\d+")]).toOption.map (fun form => (form.variants, form.groups)) =
      some (["/", "/((en|de))", "/((en|de))/books", "/((en|de))/books/([^/]+).(\\d+)"], [[], [1], [1], [1, 3, 4]]) := by
    decide +kernel
  obtain ⟨form, hform, hparts⟩ := Option.map_eq_some_iff.1 hparsed
  obtain ⟨layout, -, -, -, -, -, hattributes, -, hgroups, -⟩ :=
    variants_aligned _ _ form (by decide +kernel) (toOption_eq_some.1 hform)
  exact ⟨form, layout, toOption_eq_some.1 hform, (Prod.mk.inj hparts).1, (Prod.mk.inj hparts).2, hattributes,
    fun i groups hi => (hgroups i groups hi).2.1⟩

end UrlRouter
