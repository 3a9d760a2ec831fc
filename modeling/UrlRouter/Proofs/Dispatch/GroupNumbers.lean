/-
Group numbers in chunks.

The number of a group in a chunk is put together from two: that of the tag, looked up in the expression of the chunk, and
one counted from the tag, found before in another rendering of the variant. Where literals mean just themselves, both
follow from the patterns, and their sum is the number of the group around the token.

Results:
- `markForm_of_layoutOf`: what the positional form of any pattern is.
- `collected_eq_ok`, `markChunk_of_collected`: what routes are collected as, and the chunk of them.
- `groups_counted_from_tags`: the numbers of tags and tokens, and the groups that they stand for.
-/
import Mathlib.Tactic
import UrlRouter.Proofs.Dispatch.MarkRoutes
import UrlRouter.Proofs.Dispatch.ChunkVariants
import UrlRouter.Proofs.Route.Written

namespace UrlRouter

open Pattern (Laid Layout MarkForm Numbered Overrides Piece PlainLiteral Readable Resolves layoutOf ownGroups variantText)
open Regex (Node groupsOf numbersFrom)
open ChunkVariant (tagNumbers)

/-! ## Forms -/

namespace Pattern

variable {pattern : String} {overrides : Overrides} {form : MarkForm} {layout : Layout}

/-- **The positional form of a pattern**, dynamic or static, has the text of each variant and the groups found in it. -/
theorem markForm_of_layoutOf (h : MarkForm.parse pattern overrides = .ok form) :
    ∃ layout, layoutOf pattern = .ok layout ∧ Resolves overrides layout.tokens ∧
      form.variants = layout.variants.map (variantText overrides) ∧ form.attributes = layout.names ∧
      List.Forall₂ (Numbered overrides) layout.variants form.groups := by
  cases hdynamic : isDynamic pattern with
  | true =>
    obtain ⟨layout, hlayout, -, hform⟩ := markForm_of_parse hdynamic h
    exact ⟨layout, by rw [layoutOf_dynamic hdynamic, hlayout], hform⟩
  | false =>
    obtain ⟨rfl, regex, hregex, hnames⟩ := markForm_of_static hdynamic h
    set text := if pattern.isEmpty then "/" else pattern with htext
    have hvariants : (⟨[.literal text], []⟩ : Layout).variants = [[.literal text]] := rfl
    refine ⟨_, layoutOf_static hdynamic, fun token htoken => absurd htoken List.not_mem_nil, ?_, rfl, ?_⟩
    · rw [hvariants]
      simp [variantText, render]
    · have hmarked : markedText overrides 0 [.literal text] = text := by simp [markedText, renderMarked]
      rw [hvariants]
      exact .cons ⟨regex, by rw [hmarked, hregex], by simp [hnames], .nil⟩ .nil

/-- Where the literals of a pattern are plain, so are those of its variants. -/
theorem readable_of_mem_variants (hliterals : ∀ text, .literal text ∈ layout.pieces → PlainLiteral text)
    (hresolves : Resolves overrides layout.tokens) {pieces : List Piece} (h : pieces ∈ layout.variants) :
    Readable overrides pieces where
  literals := by
    intro text htext
    rcases prefix_of_mem_variants h with ⟨-, rfl⟩ | ⟨hbegins, -⟩
    · cases List.mem_singleton.1 htext
      decide
    · exact hliterals text (hbegins.subset htext)
  constraints token htoken := hresolves.compile (token_of_mem_variants h htoken)

/-- the text of a literal -/
def Piece.literal? : Piece → Option String
  | literal text => some text
  | token _ => none

end Pattern

/-- No character of a literal in the route's pattern means anything in an expression. Constraints may be anything. -/
def Route.HasPlainLiterals (route : Route) : Prop :=
  ∀ layout, layoutOf route.path = .ok layout → ∀ text, .literal text ∈ layout.pieces → PlainLiteral text

theorem forall_literal_iff {p : String → Prop} {pieces : List Piece} :
    (∀ text, .literal text ∈ pieces → p text) ↔ ∀ text ∈ pieces.filterMap Piece.literal?, p text := by
  refine forall_congr' fun text => imp_congr_left ?_
  rw [List.mem_filterMap]
  refine ⟨fun h => ⟨_, h, rfl⟩, ?_⟩
  rintro ⟨piece, hpiece, h⟩
  cases piece with
  | literal own => cases h; exact hpiece
  | token token => cases h

instance : DecidablePred Route.HasPlainLiterals := fun route =>
  match h : layoutOf route.path with
  | .error _ => isTrue fun _ hlayout => by rw [h] at hlayout; cases hlayout
  | .ok layout => decidable_of_iff (∀ text ∈ layout.pieces.filterMap Piece.literal?, PlainLiteral text) (by
      rw [Route.HasPlainLiterals, h, ← forall_literal_iff]
      exact ⟨fun hplain _ hlayout => Except.ok.inj hlayout ▸ hplain, fun hplain => hplain layout rfl⟩)

/-- The groups around the tokens of a variant, one for each token: it comes behind the groups around the tokens before and
behind the groups in their constraints. -/
structure CountsTokens (overrides : Overrides) (pieces : List Piece) (groups : List Nat) : Prop where
  length_eq : groups.length = (pieces.filterMap Piece.token?).length
  number : ∀ k < (pieces.filterMap Piece.token?).length,
    groups[k]? = some (1 + k + (((pieces.filterMap Piece.token?).take k).map (ownGroups overrides)).sum)
  /-- Every constraint compiles, so that it is known how many groups it holds. -/
  own : ∀ token, .token token ∈ pieces →
    ∃ regex, Regex.compile (token.constraintText overrides) = .ok regex ∧ ownGroups overrides token = regex.groups

theorem countsTokens_numbersFrom {overrides : Overrides} {pieces : List Piece} (h : Readable overrides pieces) :
    CountsTokens overrides pieces (numbersFrom (ownGroups overrides) 1 (pieces.filterMap Piece.token?)) where
  length_eq := Regex.length_numbersFrom 1 _
  number := by
    intro k hk
    rw [Regex.getElem?_numbersFrom hk, Regex.groupsOf_eq, List.length_take, Nat.min_eq_left hk.le, Nat.add_assoc]
  own := by
    intro token htoken
    obtain ⟨regex, hregex, -⟩ := h.constraints token htoken
    exact ⟨regex, hregex, Pattern.ownGroups_eq hregex⟩

/-- **What a route is collected as**, when its literals are plain, can be read from the layout of its pattern. -/
theorem collected_eq_ok {route : Route} {item : Collected .mark} (hliterals : route.HasPlainLiterals)
    (h : route.collected .mark = .ok item) :
    ∃ layout, layoutOf route.path = .ok layout ∧ (∀ pieces ∈ layout.variants, Readable route.tokens pieces) ∧
      item = ⟨route.name, layout.variants.map (variantText route.tokens), layout.names,
        layout.variants.map fun pieces => numbersFrom (ownGroups route.tokens) 1 (pieces.filterMap Piece.token?)⟩ := by
  obtain ⟨⟨variants, attributes, groups⟩, hform, hitem⟩ := bind_eq_ok.1 h
  cases hitem
  obtain ⟨layout, hlayout, hresolves, hvariants, hattributes, hnumbered⟩ := Pattern.markForm_of_layoutOf hform
  dsimp only at hvariants hattributes hnumbered
  have hreadable : ∀ pieces ∈ layout.variants, Readable route.tokens pieces := fun pieces =>
    Pattern.readable_of_mem_variants (hliterals layout hlayout) hresolves
  have hgroups : groups =
      layout.variants.map fun pieces => numbersFrom (ownGroups route.tokens) 1 (pieces.filterMap Piece.token?) := by
    rw [← List.map_id groups]
    refine map_of_forall₂ (forall₂_imp_of_mem hnumbered fun pieces hpieces groups h => ?_)
    exact Pattern.numbers_of_numbered (hreadable pieces hpieces) h
  exact ⟨layout, hlayout, hreadable, by rw [hvariants, hattributes, hgroups]⟩

/-! ## The variants of a chunk -/

/-- the variants of a route that has this number in its chunk -/
def Route.numberedVariants (route : Route) (index : Nat) : List ChunkVariant :=
  match layoutOf route.path with
  | .error _ => []
  | .ok layout => layout.variants.zipIdx.map fun (pieces, j) => ⟨route, index, j, pieces⟩

/-- the variants of a chunk of routes, in the order of the routes -/
def variantsOf (routes : List Route) : List ChunkVariant :=
  routes.zipIdx.flatMap fun (route, i) => route.numberedVariants i

/-- what a chunk holds for a variant: its tag, its expression and what the tag stands for -/
def ChunkVariant.entry (v : ChunkVariant) : TagEntry :=
  (v.tag, variantText v.route.tokens v.pieces,
    ⟨v.route.name, v.tokens.map (·.name), (v.numbers 1).map Int.ofNat⟩)

theorem routeTags_of_collected {route : Route} {item : Collected .mark} (hliterals : route.HasPlainLiterals)
    (h : route.collected .mark = .ok item) (i : Nat) :
    routeTags i item = (route.numberedVariants i).map ChunkVariant.entry ∧
      ∀ v ∈ route.numberedVariants i, Readable v.route.tokens v.pieces := by
  obtain ⟨layout, hlayout, hreadable, rfl⟩ := collected_eq_ok hliterals h
  have hvariants : route.numberedVariants i = layout.variants.zipIdx.map fun (pieces, j) => ⟨route, i, j, pieces⟩ := by
    rw [Route.numberedVariants, hlayout]
  rw [hvariants]
  constructor
  · rw [routeTags, List.zip_map', List.zipIdx_map, List.map_map, List.map_map]
    refine List.map_congr_left ?_
    rintro ⟨pieces, j⟩ hpieces
    have hprefix := Pattern.tokens_prefix_of_mem_variants (List.fst_mem_of_mem_zipIdx hpieces)
    have hnames : layout.names.take (pieces.filterMap Piece.token?).length =
        (pieces.filterMap Piece.token?).map (·.name) := by
      rw [Layout.names, ← List.map_take, ← List.prefix_iff_eq_take.1 hprefix]
    simp only [Function.comp, Prod.map, id, Regex.length_numbersFrom, hnames]
    rfl
  · intro v hv
    obtain ⟨⟨pieces, j⟩, hpieces, rfl⟩ := List.mem_map.1 hv
    exact hreadable pieces (List.fst_mem_of_mem_zipIdx hpieces)

/-- The tags of a chunk are those of its variants. -/
theorem chunkTags_of_collected {routes : List Route} {items : List (Collected .mark)}
    (h : List.Forall₂ (fun route item => route.collected .mark = .ok item) routes items)
    (hliterals : ∀ route ∈ routes, route.HasPlainLiterals) (n : Nat) :
    ((items.zipIdx n).map fun pair => routeTags pair.2 pair.1).flatten =
        ((routes.zipIdx n).flatMap fun pair => pair.1.numberedVariants pair.2).map ChunkVariant.entry ∧
      ∀ v ∈ (routes.zipIdx n).flatMap fun pair => pair.1.numberedVariants pair.2, Readable v.route.tokens v.pieces := by
  induction h generalizing n with
  | nil => exact ⟨rfl, fun v hv => absurd hv List.not_mem_nil⟩
  | @cons route item routes items hitem _ ih =>
    obtain ⟨hown, hreadable⟩ := routeTags_of_collected (hliterals route List.mem_cons_self) hitem n
    obtain ⟨hrest, hreadable'⟩ := ih (fun other hother => hliterals other (List.mem_cons_of_mem route hother)) (n + 1)
    rw [List.zipIdx_cons, List.zipIdx_cons, List.map_cons, List.flatten_cons, List.flatMap_cons, List.map_append, hown,
      hrest]
    exact ⟨rfl, fun v hv => (List.mem_append.1 hv).elim (hreadable v) (hreadable' v)⟩

theorem ChunkVariant.text_entry (v : ChunkVariant) : (TagEntry.text v.entry).toList = v.text := by
  simp [TagEntry.text, entry, text, Pattern.groupText, Regex.naming]

/-- **A chunk of routes** is the alternation of its variants. -/
theorem markChunk_of_collected {routes : List Route} {items : List (Collected .mark)}
    (h : List.Forall₂ (fun route item => route.collected .mark = .ok item) routes items)
    (hliterals : ∀ route ∈ routes, route.HasPlainLiterals) :
    markChunk items = ⟨items.map (·.name), String.ofList (Regex.alternationText ((variantsOf routes).map (·.text))),
      (variantsOf routes).map fun v => (v.tag, v.entry.2.2)⟩ :=
  markChunk_of_variants (chunkTags_of_collected h hliterals 0).1 ChunkVariant.text_entry

theorem map_fst_tags_of_collected {routes : List Route} {items : List (Collected .mark)}
    (h : List.Forall₂ (fun route item => route.collected .mark = .ok item) routes items)
    (hliterals : ∀ route ∈ routes, route.HasPlainLiterals) :
    (markChunk items).tags.map (·.1) = (variantsOf routes).map (·.tag) := by
  rw [markChunk_of_collected h hliterals, List.map_map]
  rfl

/-- What the expression of a chunk is compiled to. -/
theorem compile_of_collected {routes : List Route} {items : List (Collected .mark)}
    (h : List.Forall₂ (fun route item => route.collected .mark = .ok item) routes items)
    (hliterals : ∀ route ∈ routes, route.HasPlainLiterals) {regex : Regex}
    (hregex : Regex.compile (markChunk items).regex = .ok regex) :
    ∃ nodes, ChunkVariant.AllReadAs 1 (variantsOf routes) nodes ∧
      regex = ⟨.ofAlternatives nodes, groupsOf ChunkVariant.groups (variantsOf routes),
        tagNumbers 1 (variantsOf routes)⟩ := by
  have hnodup := nodup_tags_markChunk items
  rw [map_fst_tags_of_collected h hliterals] at hnodup
  rw [markChunk_of_collected h hliterals] at hregex
  exact compile_choice (chunkTags_of_collected h hliterals 0).2 hnodup hregex

/-! ## Tags and tokens -/

/-- What the expression of a chunk and the chunk itself know about a variant: the number of its tag, the groups counted
from it, and that both together give the groups around its tokens. -/
structure ChunkVariant.CountedFrom (v : ChunkVariant) (base : Nat) (chunk : MarkChunk) (regex : Regex) (node : Node) :
    Prop where
  tag : regex.groupNumber? v.tag = some base
  counted : ∃ groups parts, chunk.tags.lookup v.tag = some ⟨v.route.name, v.tokens.map (·.name), groups.map Int.ofNat⟩ ∧
    CountsTokens v.route.tokens v.pieces groups ∧ node = .group base (.ofList parts) ∧
    Laid v.route.tokens v.pieces (groups.map (base + ·)) parts
  /-- The group of the tag holds as many groups as the variant has. -/
  within : node.numbers = List.range' base (1 + v.groups)
  /-- So does the variant's own expression, where it compiles. -/
  alone : ∀ own, Regex.compile (variantText v.route.tokens v.pieces) = .ok own → own.groups = v.groups

theorem countedFrom_of_readAs {v : ChunkVariant} {base : Nat} {chunk : MarkChunk} {regex : Regex} {node : Node}
    (hv : Readable v.route.tokens v.pieces) (htag : regex.groupNumber? v.tag = some base)
    (hlookup : chunk.tags.lookup v.tag = some v.entry.2.2) (hnode : v.ReadAs base node) :
    v.CountedFrom base chunk regex node := by
  obtain ⟨parts, rfl, hlaid⟩ := hnode
  have hnumbers : (Node.group base (.ofList parts)).numbers = List.range' base (1 + v.groups) := by
    rw [Node.numbers, Regex.ofList_numbers, hlaid.flatMap_numbers, Nat.add_comm 1, List.range'_succ]
    rfl
  rw [ChunkVariant.numbers, Regex.numbersFrom_add] at hlaid
  exact ⟨htag, ⟨v.numbers 1, parts, hlookup, countsTokens_numbersFrom hv, rfl, hlaid⟩, hnumbers,
    fun own hown => Pattern.compile_variantText hv hown⟩

/-- **Groups are counted from the tags.** Where the literals of all routes are plain and the chunk of the routes compiles,
whatever the constraints are:
- the `k`th token of a variant has the group number one and `k` and the number of groups in the constraints of the tokens
  before it;
- a chunk has one tag for each variant, in the order of the routes and of their variants, and its expression numbers all
  groups by their opening parentheses;
- the `j`th tag has the number one and, for each variant before it, one and the number of groups of that variant;
- the tag's number and a group counted from it make the number of the group around the token, which stands in the
  expression of the chunk where the token stands in the variant. -/
theorem groups_counted_from_tags {routes : List Route} {items : List (Collected .mark)} {regex : Regex}
    (hitems : routes.mapM (Route.collected .mark) = .ok items) (hliterals : ∀ route ∈ routes, route.HasPlainLiterals)
    (hregex : Regex.compile (markChunk items).regex = .ok regex) :
    List.Forall₂ (fun route item => ∃ layout, layoutOf route.path = .ok layout ∧
        item.form.variants = layout.variants.map (variantText route.tokens) ∧
        List.Forall₂ (CountsTokens route.tokens) layout.variants item.form.groups) routes items ∧
      (markChunk items).tags.map (·.1) = (variantsOf routes).map (·.tag) ∧
      regex.root.numbers = List.range' 1 regex.groups ∧
      ∃ nodes, regex.root = .ofAlternatives nodes ∧ nodes.length = (variantsOf routes).length ∧
        ∀ (j : Nat) (v : ChunkVariant), (variantsOf routes)[j]? = some v → ∃ node, nodes[j]? = some node ∧
          v.CountedFrom (1 + (((variantsOf routes).take j).map fun w => 1 + w.groups).sum) (markChunk items) regex
            node := by
  have hcollected := mapM_eq_ok.1 hitems
  have hreadable : ∀ v ∈ variantsOf routes, Readable v.route.tokens v.pieces :=
    (chunkTags_of_collected hcollected hliterals 0).2
  have htags := congrArg MarkChunk.tags (markChunk_of_collected hcollected hliterals)
  have hfst := map_fst_tags_of_collected hcollected hliterals
  have hnodup := nodup_tags_markChunk items
  have hnodup' : ((tagNumbers 1 (variantsOf routes)).map (·.1)).Nodup := by
    rw [ChunkVariant.map_fst_tagNumbers, ← hfst]
    exact hnodup
  obtain ⟨nodes, hreadAs, heq⟩ := compile_of_collected hcollected hliterals hregex
  refine ⟨?_, hfst, Regex.compile_numbers hregex, nodes, by rw [heq], hreadAs.length_eq, fun j v hv => ?_⟩
  · refine forall₂_imp_of_mem hcollected fun route hroute item hitem => ?_
    obtain ⟨layout, hlayout, hreadable, rfl⟩ := collected_eq_ok (hliterals route hroute) hitem
    refine ⟨layout, hlayout, rfl, List.forall₂_map_right_iff.2 (List.forall₂_same.2 fun pieces hpieces => ?_)⟩
    exact countsTokens_numbersFrom (hreadable pieces hpieces)
  · obtain ⟨node, hnode, htag, hread⟩ := hreadAs.exists_node hv
    have hnumber : regex.groupNumber? v.tag = some (1 + groupsOf ChunkVariant.groups ((variantsOf routes).take j)) := by
      rw [heq]
      exact lookup_of_nodup hnodup' htag
    have hlookup : (markChunk items).tags.lookup v.tag = some v.entry.2.2 := by
      refine lookup_of_nodup hnodup ?_
      rw [htags]
      exact List.mem_map.2 ⟨v, List.mem_of_getElem? hv, rfl⟩
    exact ⟨node, hnode, countedFrom_of_readAs (hreadable v (List.mem_of_getElem? hv)) hnumber hlookup hread⟩

/-- A static route and two whose constraints hold groups, the last with a reference to a group of its own. -/
def groupedRoutes : List Route :=
  ["/about", "/\x7bkind:(post|page)\x7d/\x7bslug\x7d", "[/\x7blang:(en|de)\x7d;/\x7bspan:((a)b)\\2\x7d;/\x7bpage\x7d]"].map
    fun path => ⟨path, path, none, [], none, none, none⟩

/-- The last of six variants: its tag is number sixteen, and its tokens have the numbers one, three and six from there. -/
theorem lastVariant_counted :
    ∃ items regex nodes node v, groupedRoutes.mapM (Route.collected .mark) = .ok items ∧
      Regex.compile (markChunk items).regex = .ok regex ∧ regex.groups = 22 ∧
      items.map (·.form.groups) = [[[]], [[1, 3]], [[], [1], [1, 3], [1, 3, 6]]] ∧
      (variantsOf groupedRoutes)[5]? = some v ∧ v.tag = "_r2_3" ∧ regex.root = .ofAlternatives nodes ∧
      nodes[5]? = some node ∧ v.CountedFrom 16 (markChunk items) regex node := by
  have hparsed : (groupedRoutes.mapM (Route.collected .mark)).toOption.map (fun items =>
      (items.map (·.form.groups), (Regex.compile (markChunk items).regex).toOption.map (·.groups))) =
      some ([[[]], [[1, 3]], [[], [1], [1, 3], [1, 3, 6]]], some 22) := by decide +kernel
  obtain ⟨items, hitems, hparts⟩ := Option.map_eq_some_iff.1 hparsed
  obtain ⟨regex, hregex, hcount⟩ := Option.map_eq_some_iff.1 (Prod.mk.inj hparts).2
  have hbase : 1 + (((variantsOf groupedRoutes).take 5).map fun w => 1 + w.groups).sum = 16 := by decide +kernel
  have hlast : ((variantsOf groupedRoutes)[5]?).map (·.tag) = some "_r2_3" := by decide +kernel
  obtain ⟨v, hv, htag⟩ := Option.map_eq_some_iff.1 hlast
  obtain ⟨-, -, -, nodes, hroot, -, hcounted⟩ := groups_counted_from_tags (toOption_eq_some.1 hitems)
    (by decide +kernel : ∀ route ∈ groupedRoutes, route.HasPlainLiterals) (toOption_eq_some.1 hregex)
  obtain ⟨node, hnode, hnumbers⟩ := hcounted 5 v hv
  rw [hbase] at hnumbers
  exact ⟨items, regex, nodes, node, v, toOption_eq_some.1 hitems, toOption_eq_some.1 hregex, hcount,
    (Prod.mk.inj hparts).1, hv, htag, hroot, hnode, hnumbers⟩

end UrlRouter
