/-
Plain routes, matched without regular expressions.

A plain route matches a path when some variant of its pattern spells it; the first such variant counts, with the
values that are longest from the left. Both strategies find just that, for every size of the chunks.

Results:
- `markTest_of_plain`, `namedTest_of_plain`: either strategy finds the values of the first variant.
- `plainTest_eq_some`: what the test of a plain route says.
- `plain_routes_match`: collecting plain routes and matching a request gives the answer of the scan.
-/
import Mathlib.Tactic
import UrlRouter.Proofs.Dispatch.Strategies
import UrlRouter.Proofs.Pattern.Captures

namespace UrlRouter

open Pattern (Layout Piece layoutOf reading? tokenCount captureAliases aliasOf Spells)

/-! ## The test of a plain route -/

/-- the values of the first variant that spells the path -/
def plainValues? (layout : Layout) (path : String) : Option (List (List Char)) :=
  layout.variants.findSome? (reading? · path.toList)

def plainTest : RouteTest := fun route path =>
  match layoutOf route.path with
  | .ok layout => (plainValues? layout path).map (decoded layout.names)
  | .error _ => none

/-- The path can be read, and its literals and tokens are plain. -/
def Route.IsPlain (route : Route) : Prop :=
  ∃ layout, layoutOf route.path = .ok layout ∧ layout.IsPlain route.tokens

instance : DecidablePred Route.IsPlain := fun route =>
  match h : layoutOf route.path with
  | .ok layout => decidable_of_iff (layout.IsPlain route.tokens)
      ⟨fun hplain => ⟨layout, h, hplain⟩, fun ⟨_, hread, hplain⟩ => Except.ok.inj (h.symm.trans hread) ▸ hplain⟩
  | .error _ => isFalse fun ⟨_, hread, _⟩ => by rw [h] at hread; cases hread

theorem plainTest_eq {route : Route} {layout : Layout} (h : layoutOf route.path = .ok layout) (path : String) :
    plainTest route path = (plainValues? layout path).map (decoded layout.names) := by
  simp only [plainTest, h]

/-- The values come from some variant, one for each of its tokens. -/
theorem exists_variant_of_plainValues? {layout : Layout} {path : String} {values : List (List Char)}
    (h : plainValues? layout path = some values) :
    ∃ pieces ∈ layout.variants, Spells pieces values path.toList := by
  obtain ⟨pieces, hpieces, hread⟩ := List.exists_of_findSome?_eq_some h
  exact ⟨pieces, hpieces, (Pattern.reading?_eq_some.1 hread).1⟩

/-- the layout of a route's path -/
def Route.layout (route : Route) : Layout := (layoutOf route.path).toOption.getD ⟨[], []⟩

theorem Route.IsPlain.layout_eq {route : Route} (h : route.IsPlain) :
    layoutOf route.path = .ok route.layout ∧ route.layout.WellFormed ∧ route.layout.IsPlain route.tokens := by
  obtain ⟨layout, hread, hplain⟩ := h
  have heq : route.layout = layout := by rw [Route.layout, hread]; rfl
  rw [heq]
  exact ⟨hread, Pattern.wellFormed_of_layoutOf hread, hplain⟩

/-! ## Values of groups -/

/-- **Groups that hold values**, one after the other, give the values under the names in front of them. -/
theorem valued_of_groups {m : Regex.Match} (names : List String) {values : List (List Char)} {count n : Nat}
    (hvalues : ∀ i < count, m.group? (n + i) = values[i]?.map String.ofList) (hcount : values.length ≤ count)
    (hne : ∀ value ∈ values, value ≠ []) :
    (names.zip (List.range' n count)).filterMap (valued? m) = decoded names values := by
  induction count generalizing n names values with
  | zero =>
    obtain rfl := List.length_eq_zero_iff.1 (Nat.le_zero.1 hcount)
    rw [decoded, List.zip_nil_right, List.range'_zero, List.zip_nil_right]
    rfl
  | succ count ih =>
    cases names with
    | nil => rfl
    | cons name names =>
      have hfirst := hvalues 0 (Nat.succ_pos count)
      have hrest : ∀ i < count, m.group? (n + 1 + i) = values.tail[i]?.map String.ofList := by
        intro i hi
        rw [List.getElem?_tail, ← hvalues (i + 1) (by omega)]
        congr 1
        omega
      have htail := ih names hrest (by rw [List.length_tail]; omega) fun value hvalue =>
        hne value (List.mem_of_mem_tail hvalue)
      rw [List.range'_succ, List.zip_cons_cons]
      cases values with
      | nil =>
        have hnone : valued? m (name, n) = none := by
          rw [valued?, valueOf?, show m.group? n = none from hfirst]
          rfl
        rw [List.filterMap_cons_none hnone, htail, decoded, decoded, List.tail_nil, List.zip_nil_right,
          List.zip_nil_right]
      | cons value values =>
        have hnonempty : String.ofList value ≠ "" := fun heq => hne value List.mem_cons_self (ofList_eq_empty.1 heq)
        have hsome : valued? m (name, n) = some (name, Text.percentDecode (String.ofList value)) := by
          rw [valued?, valueOf?, show m.group? n = some (String.ofList value) from hfirst]
          simp [hnonempty]
        rw [List.filterMap_cons_some hsome, htail]
        rfl

/-- A match that holds the values of a text has them, decoded, for its attributes. -/
theorem map_valued {found : Option Regex.Match} {values : Option (List (List Char))} {count : Nat} (names : List String)
    (h : Option.Rel (Pattern.Holds count) found values)
    (hvalues : ∀ vs, values = some vs → vs.length ≤ count ∧ ∀ value ∈ vs, value ≠ []) :
    found.map (fun m => (names.zip (List.range' 1 count)).filterMap (valued? m)) = values.map (decoded names) := by
  cases h with
  | none => rfl
  | some hholds =>
    obtain ⟨hcount, hne⟩ := hvalues _ rfl
    exact congrArg some (valued_of_groups names hholds hcount hne)

theorem captured?_eq_valued? (m : Regex.Match) {captures : List (String × String)} {group name : String}
    (h : captures.lookup group = some name) (n : Nat) : captured? m captures (group, n) = valued? m (name, n) := by
  simp only [captured?, h, valued?, valueOf?]
  cases m.group? n with
  | none => rfl
  | some value => by_cases hvalue : value = "" <;> simp [hvalue]

theorem lookup_aliasOf {names : List String} (h : names.Nodup) {name : String} (hname : name ∈ names) :
    (captureAliases names).lookup (aliasOf (captureAliases names) name) = some name := by
  rw [← Pattern.captureAliases_names names] at hname
  obtain ⟨capture, hcapture, rfl⟩ := List.mem_map.1 hname
  rw [Pattern.aliasOf_captureAliases h hcapture]
  exact lookup_of_nodup (Pattern.captureAliases_nodup h) hcapture

/-- Captures under the aliases of the attributes are their values. -/
theorem captured_aliasGroups (m : Regex.Match) {overrides : Pattern.Overrides} {layout : Layout}
    (hnodup : layout.names.Nodup) {pieces : List Piece} (htokens : pieces.filterMap Piece.token? = layout.tokens) :
    (Pattern.aliasGroups overrides (captureAliases layout.names) 1 pieces).filterMap
        (captured? m (captureAliases layout.names)) =
      (layout.names.zip (Pattern.tokenGroups overrides 1 pieces)).filterMap (valued? m) := by
  rw [Pattern.aliasGroups, htokens, Layout.names, List.zip_map_left, List.zip_map_left, List.filterMap_map,
    List.filterMap_map]
  refine List.filterMap_congr fun pair hpair => ?_
  have hname : pair.1.name ∈ layout.names := List.mem_map_of_mem (List.of_mem_zip hpair).1
  exact captured?_eq_valued? m (lookup_aliasOf hnodup hname) pair.2

/-! ## Either strategy -/

theorem Route.IsPlain.agrees {route : Route} (h : route.IsPlain) : route.Agrees := by
  obtain ⟨hread, -, hplain⟩ := h.layout_eq
  exact agrees_of_layout hread hplain.isRegular

/-- The expression of a variant finds the values with which it spells the path. -/
theorem variantTest_of_plain {overrides : Pattern.Overrides} {pieces : List Piece}
    (h : Pattern.PlainPieces overrides pieces) (names : List String) (path : String) :
    variantTest names path
        (String.ofList (Pattern.variantComposite overrides pieces).text, Pattern.tokenGroups overrides 1 pieces) =
      (reading? pieces path.toList).map (decoded names) := by
  obtain ⟨body, htext, hroot, -⟩ := Pattern.body_of_variant h.isRegular
  have hfind := Pattern.find_variant h body.regex hroot path.toList
  rw [String.ofList_toList] at hfind
  simp only [variantTest, ← htext, body.compile_text, Pattern.tokenGroups_of_plain h]
  refine map_valued names hfind fun values hvalues => ?_
  have hspells := (Pattern.reading?_eq_some.1 hvalues).1
  exact ⟨hspells.length_eq.le, hspells.ne_nil⟩

/-- **The mark strategy** finds the values of the first variant that spells the path. -/
theorem markTest_of_plain {route : Route} (h : route.IsPlain) (path : String) :
    markTest route path = plainTest route path := by
  obtain ⟨hread, -, hplain⟩ := h.layout_eq
  simp only [markTest, Pattern.markForm_of_regular hread hplain.isRegular, Pattern.regularMarkForm, List.zip_map',
    List.findSome?_map]
  rw [plainTest_eq hread, plainValues?, List.map_findSome?]
  refine findSome?_of_forall₂ (List.forall₂_same.2 fun pieces hpieces => ?_)
  exact variantTest_of_plain (Pattern.plain_of_mem_variants hplain hpieces) route.layout.names path

/-- **The named strategy** finds them, too. -/
theorem namedTest_of_plain {route : Route} (h : route.IsPlain) (path : String) :
    namedTest route path = plainTest route path := by
  obtain ⟨hread, hwell, hplain⟩ := h.layout_eq
  have hregular := hplain.isRegular
  have hparts := Pattern.plain_namedParts hplain
  have hcompile := Pattern.compile_namedComposite hwell.nodup hregular
  have hnames : ∀ m : Regex.Match, ((Pattern.namedComposite route.layout route.tokens).names 1).filterMap
      (captured? m (captureAliases route.layout.names)) =
        (route.layout.names.zip (List.range' 1 route.layout.tokens.length)).filterMap (valued? m) := by
    intro m
    rw [Pattern.names_namedComposite hregular, captured_aliasGroups m hwell.nodup (Pattern.tokens_namedParts _),
      Pattern.tokenGroups_of_plain hparts, tokenCount, Pattern.tokens_namedParts]
  have hfind := Pattern.find_layout hwell hplain ⟨_, (Pattern.namedComposite route.layout route.tokens).groups,
    (Pattern.namedComposite route.layout route.tokens).names 1⟩ rfl path.toList
  rw [String.ofList_toList] at hfind
  rw [plainTest_eq hread]
  simp only [namedTest, Pattern.namedForm_of_regular hread hregular, hcompile, hnames]
  refine map_valued route.layout.names hfind fun values hvalues => ?_
  obtain ⟨pieces, hpieces, hspells⟩ := exists_variant_of_plainValues? hvalues
  refine ⟨?_, hspells.ne_nil⟩
  rw [hspells.length_eq]
  exact (Pattern.tokens_prefix_of_mem_variants hpieces).length_le

/-- Plain routes are collected, compiled and matched by either strategy. -/
theorem exists_matcher_of_plain (strategy : Strategy) {size : Int} (hsize : 1 ≤ size) {routes : List Route}
    (hnames : (routes.map (·.name)).Nodup) (hplain : ∀ route ∈ routes, route.IsPlain) :
    ∃ collector matcher, Collector.make strategy.name size = .ok collector ∧
      (collector.addRoutes routes).2 = .ok () ∧
      Matcher.ofData (collector.addRoutes routes).1.data = .ok matcher ∧
      ∀ path method, matcher.match' path method = .ok (answer plainTest routes path method) := by
  have hsuits : ∀ route ∈ routes, strategy.Suits route := by
    intro route hroute
    have hagrees := (hplain route hroute).agrees
    cases strategy with
    | mark => exact hagrees.selfContained
    | named => exact hagrees.compiles
  have htest : ∀ path, ∀ route ∈ routes, plainTest route path = strategy.test route path := by
    intro path route hroute
    cases strategy with
    | mark => exact (markTest_of_plain (hplain route hroute) path).symm
    | named => exact (namedTest_of_plain (hplain route hroute) path).symm
  obtain ⟨matcher, hmatcher, hmatch⟩ := Strategy.exists_freshMatcher hsize hnames hsuits
  obtain ⟨collector, hmake, hadded, hdata⟩ := freshMatcher_eq_ok.1 hmatcher
  refine ⟨collector, matcher, hmake, hadded, hdata, fun path method => ?_⟩
  rw [hmatch, answer_of_same_tests (htest path)]
  have hpath := answer_path strategy.test routes path method
  generalize answer strategy.test routes path method = result at hpath ⊢
  obtain rfl := hpath
  rfl

/-! ## What the test of a plain route says -/

/-- The path is the variant at this depth with these values for its tokens; no shallower variant fits, and no other
values at this depth are longer from the left. -/
structure MatchesAt (layout : Layout) (path : String) (depth : Nat) (values : List (List Char)) : Prop where
  spells : ∃ pieces, layout.variants[depth]? = some pieces ∧ Spells pieces values path.toList ∧
    ∀ others, Spells pieces others path.toList → others = values ∨ Pattern.LongerFirst values others
  shallowest : ∀ shallower < depth, ∀ pieces, layout.variants[shallower]? = some pieces →
    ∀ others, ¬Spells pieces others path.toList

theorem plainValues?_eq_some {layout : Layout} {path : String} {values : List (List Char)} :
    plainValues? layout path = some values ↔ ∃ depth, MatchesAt layout path depth values := by
  rw [plainValues?, List.findSome?_eq_some_iff]
  constructor
  · rintro ⟨before, pieces, after, hsplit, hread, hbefore⟩
    obtain ⟨hspells, hlongest⟩ := Pattern.reading?_eq_some.1 hread
    refine ⟨before.length, ⟨pieces, by simp [hsplit], hspells, hlongest⟩, fun shallower hlt ps hps => ?_⟩
    rw [hsplit, List.getElem?_append_left hlt] at hps
    exact Pattern.reading?_eq_none.1 (hbefore ps (List.mem_of_getElem? hps))
  · rintro ⟨depth, ⟨pieces, hpieces, hspells, hlongest⟩, hshallowest⟩
    obtain ⟨hlt, hget⟩ := List.getElem?_eq_some_iff.1 hpieces
    refine ⟨layout.variants.take depth, pieces, layout.variants.drop (depth + 1), ?_,
      Pattern.reading?_eq_some.2 ⟨hspells, hlongest⟩, fun ps hps => ?_⟩
    · rw [← hget, List.cons_getElem_drop_succ, List.take_append_drop]
    · obtain ⟨i, hi, rfl⟩ := List.mem_take_iff_getElem.1 hps
      exact Pattern.reading?_eq_none.2 (hshallowest i (by omega) _ (List.getElem?_eq_getElem (by omega)))

/-- A plain route matches with the decoded values of the shallowest variant that fits, and only so. -/
theorem plainTest_eq_some {route : Route} {layout : Layout} (h : layoutOf route.path = .ok layout) {path : String}
    {attributes : List (String × String)} :
    plainTest route path = some attributes ↔
      ∃ depth values, MatchesAt layout path depth values ∧ attributes = decoded layout.names values := by
  rw [plainTest_eq h, Option.map_eq_some_iff]
  constructor
  · rintro ⟨values, hvalues, rfl⟩
    obtain ⟨depth, hdepth⟩ := plainValues?_eq_some.1 hvalues
    exact ⟨depth, values, hdepth, rfl⟩
  · rintro ⟨depth, values, hdepth, rfl⟩
    exact ⟨values, plainValues?_eq_some.2 ⟨depth, hdepth⟩, rfl⟩

/-- **Plain routes are matched as they are written.** With either strategy and chunks of any size, routes whose
literals and tokens are plain are collected and compiled, and every request gets the answer of the scan in which a
route matches a path when the path is one of its variants with values for the tokens. The shallowest variant and then
the longest values from the left are taken, and the attributes are the decoded values. -/
theorem plain_routes_match (strategy : Strategy) (size : Int) (hsize : 1 ≤ size) (routes : List Route)
    (hnames : (routes.map (·.name)).Nodup) (hplain : ∀ route ∈ routes, route.IsPlain) :
    (∃ collector matcher, Collector.make strategy.name size = .ok collector ∧
      (collector.addRoutes routes).2 = .ok () ∧
      Matcher.ofData (collector.addRoutes routes).1.data = .ok matcher ∧
      ∀ path method, matcher.match' path method = .ok (answer plainTest routes path method)) ∧
    ∀ route ∈ routes, ∀ path attributes, plainTest route path = some attributes ↔
      ∃ depth values, MatchesAt route.layout path depth values ∧
        attributes = decoded route.layout.names values := by
  refine ⟨exists_matcher_of_plain strategy hsize hnames hplain, fun route hroute path attributes => ?_⟩
  exact plainTest_eq_some (hplain route hroute).layout_eq.1

def archiveRoutes : List Route := [
  ⟨"/archive[/\x7byear\x7d;/\x7bmonth\x7d]", "archive", none, [], none, none, none⟩,
  ⟨"/users/\x7bid\x7d", "user", some [.get], [("id", "")], none, none, none⟩]

theorem archiveRoutes_match :
    ∃ collector matcher, Collector.make Strategy.mark.name 1 = .ok collector ∧
      (collector.addRoutes archiveRoutes).2 = .ok () ∧
      Matcher.ofData (collector.addRoutes archiveRoutes).1.data = .ok matcher ∧
      matcher.match' "/archive/20%20/x" "get" = .ok
        { status := .found, method := "GET", path := "/archive/20%20/x", route := some "archive",
          attributes := [("year", "20 "), ("month", "x")] } := by
  obtain ⟨⟨collector, matcher, hmake, hadd, hdata, hmatch⟩, -⟩ :=
    plain_routes_match .mark 1 (by decide) archiveRoutes (by decide) (by decide +kernel)
  exact ⟨collector, matcher, hmake, hadd, hdata, (hmatch _ _).trans (by decide +kernel)⟩

end UrlRouter
