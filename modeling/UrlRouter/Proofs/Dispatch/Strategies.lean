/-
Strategies and chunk sizes as choices of performance.

A route is regular when its literals and constraints refer to nothing outside of themselves. Both strategies accept such
a route, and one of its variants matches a path just when its one nested expression does. Within one strategy less is
asked of a route: named expressions never stand together, and in an alternation each variant has to stand for itself.

Results:
- `isSome_chain`: optional segments nested in each other match when one of the variants does.
- `agrees_of_regular`: both strategies accept a regular route and find it on the same paths.
- `Strategy.exists_freshMatcher`: routes that suit a strategy make a matcher, which tries each of them by itself.
- `configurations_agree`: matchers of the same routes choose the same routes, whatever their configurations, if the
  routes mean the same under both strategies.
-/
import Mathlib.Tactic
import UrlRouter.Proofs.Dispatch.Building
import UrlRouter.Proofs.Dispatch.MarkRoutes
import UrlRouter.Proofs.Pattern.RegularForms

namespace UrlRouter

open Pattern (Layout Piece pieceItems pieceGroups compositeOf chainOf namedParts namedComposite)
open Regex (Place Continuation)

/-! ## Nested segments and variants -/

section Pieces

variable (overrides : Pattern.Overrides) (text : List Char)

/-- whether pieces match from a place on, the first group being number `n` -/
def piecesMatch (n : Nat) (p : Place) (k : Continuation) (pieces : List Piece) : Bool :=
  ((Regex.nodeOf (pieceItems overrides n pieces)).run text.toArray p k).isSome

/-- **Optional segments nested in each other** match behind a base when one of the variants matches. -/
theorem isSome_chain (naming : Pattern.Token → Option String) (segments : List (List Piece)) (base : List Piece)
    (n : Nat) (p : Place) (k : Continuation) :
    ((Regex.nodeOf (pieceItems overrides n base ++
        (chainOf overrides naming segments).items (n + pieceGroups overrides base))).run text.toArray p k).isSome =
      (base :: Layout.extensions base segments).any (piecesMatch overrides text n p k) := by
  induction segments generalizing base with
  | nil =>
    rw [chainOf, Regex.Composite.items, List.append_nil, Layout.extensions, List.any_cons, List.any_nil, Bool.or_false]
    rfl
  | cons segment rest ih =>
    have hitems : pieceItems overrides n (base ++ segment) ++
        (chainOf overrides naming rest).items (n + pieceGroups overrides (base ++ segment)) =
          pieceItems overrides n base ++ (compositeOf overrides (fun _ => naming) 0 segment
            (chainOf overrides naming rest)).items (n + pieceGroups overrides base) := by
      rw [Pattern.pieceItems_append, Pattern.pieceGroups_append, Pattern.items_compositeOf, List.append_assoc,
        Nat.add_assoc]
    -- what is tried behind the base: this segment with those inside it, and then nothing
    have hlonger := ih (base ++ segment)
    rw [hitems, Regex.run_nodeOf_append] at hlonger
    rw [chainOf, Regex.Composite.items, Regex.Composite.items, Regex.run_nodeOf_append, Layout.extensions, List.any_cons]
    have hoptional : ∀ node q, (Regex.nodeOf [⟨.loop .greedy 0 (some 1) node, .already⟩]).run text.toArray q k =
        (node.run text.toArray q k).or (k q) := fun node q => Regex.run_optional text node q k
    simp only [hoptional]
    rw [Regex.isSome_run_or, hlonger, Bool.or_comm]
    rfl

/-- Segments behind bases that are read alike are read alike. -/
theorem any_extensions_congr {a b : List Piece} (n : Nat) (p : Place) (k : Continuation)
    (hitems : pieceItems overrides n a = pieceItems overrides n b)
    (hgroups : pieceGroups overrides a = pieceGroups overrides b)
    (segments : List (List Piece)) :
    (Layout.extensions a segments).any (piecesMatch overrides text n p k) =
      (Layout.extensions b segments).any (piecesMatch overrides text n p k) := by
  induction segments generalizing a b with
  | nil => rfl
  | cons segment rest ih =>
    have hitems' : pieceItems overrides n (a ++ segment) = pieceItems overrides n (b ++ segment) := by
      rw [Pattern.pieceItems_append, Pattern.pieceItems_append, hitems, hgroups]
    have hgroups' : pieceGroups overrides (a ++ segment) = pieceGroups overrides (b ++ segment) := by
      rw [Pattern.pieceGroups_append, Pattern.pieceGroups_append, hgroups]
    rw [Layout.extensions, Layout.extensions, List.any_cons, List.any_cons, ih hitems' hgroups', piecesMatch, piecesMatch,
      hitems']

/-- Taking the first slash out of an opening chain does not change what the variants match. -/
theorem any_namedParts {overrides : Pattern.Overrides} {layout : Layout} (hwell : layout.WellFormed)
    (h : layout.IsRegular overrides) (p : Place) (k : Continuation) :
    ((namedParts layout).1 :: Layout.extensions (namedParts layout).1 (namedParts layout).2).any
        (piecesMatch overrides text 1 p k) = layout.variants.any (piecesMatch overrides text 1 p k) := by
  cases hstart : layout.optionalStart with
  | false => simp only [namedParts, Layout.variants, hstart, Bool.false_eq_true, if_false]
  | true =>
    obtain ⟨t, first, rest, hsegments⟩ := hwell.slash hstart
    have hregular : (Piece.literal t).IsRegular overrides := by
      refine h _ ?_
      simp [namedParts, hstart, hsegments, Pattern.withoutSlash]
    have hdrop : String.ofList (("/" ++ t).toList.drop 1) = t := by simp
    have hslash := @Pattern.literalOf_slash overrides "" Pattern.regular_nil
    rw [String.append_empty, Pattern.literalOf_nil] at hslash
    have hitems : ∀ pieces, pieceItems overrides 1 ([.literal "/"] ++ .literal t :: pieces) =
        pieceItems overrides 1 (.literal ("/" ++ t) :: pieces) := by
      intro pieces
      simp [pieceItems, Pattern.literalOf_slash hregular, hslash, Regex.Composite.items, Regex.Composite.groups]
    have hgroups : ∀ pieces, pieceGroups overrides ([.literal "/"] ++ .literal t :: pieces) =
        pieceGroups overrides (.literal ("/" ++ t) :: pieces) := by
      intro pieces
      simp [pieceGroups, Pattern.literalOf_slash hregular, hslash, Regex.Composite.groups]
    simp only [namedParts, Layout.variants, hstart, hsegments, if_true, Pattern.withoutSlash, hdrop, Layout.extensions,
      List.any_cons, List.nil_append]
    rw [any_extensions_congr overrides text 1 p k (hitems first) (hgroups first), piecesMatch, piecesMatch, piecesMatch,
      hitems first]

end Pieces

/-! ## Regular routes -/

/-- The pattern can be read, and its layout is regular. -/
def Pattern.ReadsRegular (overrides : Pattern.Overrides) (path : String) : Prop :=
  ∃ layout, Pattern.analyze path = .ok layout ∧ layout.IsRegular overrides

instance (overrides : Pattern.Overrides) : DecidablePred (Pattern.ReadsRegular overrides) := fun path =>
  match h : Pattern.analyze path with
  | .error _ => isFalse fun ⟨_, hread, _⟩ => by rw [h] at hread; cases hread
  | .ok layout => decidable_of_iff (layout.IsRegular overrides)
      ⟨fun hregular => ⟨layout, h, hregular⟩, fun ⟨_, hread, hregular⟩ => Except.ok.inj (h.symm.trans hread) ▸ hregular⟩

/-- The literals and constraints of the route refer to nothing outside of themselves. A static path is a body as a
whole. -/
def Route.IsRegular (route : Route) : Prop :=
  if Pattern.isDynamic route.path then Pattern.ReadsRegular route.tokens route.path
  else (Regex.Body.ofText? route.path).isSome

instance : DecidablePred Route.IsRegular := fun route =>
  inferInstanceAs (Decidable (if Pattern.isDynamic route.path then Pattern.ReadsRegular route.tokens route.path
    else (Regex.Body.ofText? route.path).isSome = true))

/-- An expression matches a path when it does so from the start to the end. -/
theorem isSome_fullMatch? (regex : Regex) (path : String) :
    (regex.fullMatch? path).isSome = (regex.root.run path.toList.toArray {} fun p =>
      if p.position = path.toList.toArray.size then some p else none).isSome := Option.isSome_map

/-- what both strategies make of a route, and on which paths they find it -/
structure Route.Agrees (route : Route) : Prop where
  selfContained : route.IsSelfContained
  compiles : route.Compiles
  found : ∀ path, (markTest route path).isSome = (namedTest route path).isSome

/-- A static path is one expression for both strategies. -/
theorem agrees_of_static {route : Route} {body : Regex.Body}
    (hmark : Pattern.MarkForm.parse route.path route.tokens = .ok ⟨[body.text], [], [[]]⟩)
    (hnamed : Pattern.NamedForm.parse route.path route.tokens = .ok ⟨body.text, []⟩) : route.Agrees where
  selfContained := by
    refine ⟨_, hmark, fun variant hvariant => ?_⟩
    obtain rfl := List.mem_singleton.1 hvariant
    exact ⟨body, rfl, fun g hg => absurd hg List.not_mem_nil⟩
  compiles := ⟨_, _, hnamed, body.compile_text⟩
  found path := by
    simp only [markTest, namedTest, hmark, hnamed, body.compile_text, List.zip_cons_cons, List.zip_nil_left,
      List.findSome?_singleton, variantTest, Option.isSome_map]

theorem exists_slash_body : ∃ body : Regex.Body, body.text = "/" := by
  obtain ⟨body, hbody⟩ := Option.isSome_iff_exists.1 (show (Regex.Body.ofText? "/").isSome = true by decide +kernel)
  exact ⟨body, Regex.Body.text_of_ofText? hbody⟩

section Layout

variable {route : Route} {layout : Layout} (hread : Pattern.layoutOf route.path = .ok layout)
  (hregular : layout.IsRegular route.tokens)

include hread hregular

theorem selfContained_of_layout : route.IsSelfContained := by
  have hwell := Pattern.wellFormed_of_layoutOf hread
  refine ⟨_, Pattern.markForm_of_regular hread hregular, fun variant hvariant => ?_⟩
  rw [Pattern.regularMarkForm, List.zip_map'] at hvariant
  obtain ⟨pieces, hpieces, rfl⟩ := List.mem_map.1 hvariant
  obtain ⟨body, htext, -, hgroups⟩ := Pattern.body_of_variant (Pattern.regular_variants hwell hregular hpieces)
  refine ⟨body, htext, fun g hg => ?_⟩
  have hbounds := Pattern.tokenGroups_bounds _ 1 pieces g hg
  omega

theorem compiles_of_layout : route.Compiles :=
  ⟨_, _, Pattern.namedForm_of_regular hread hregular,
    Pattern.compile_namedComposite (Pattern.wellFormed_of_layoutOf hread).nodup hregular⟩

/-- The mark strategy finds the route when one of its variants matches the path. -/
theorem isSome_markTest (path : String) :
    (markTest route path).isSome = layout.variants.any (piecesMatch route.tokens path.toList 1 {} fun p =>
      if p.position = path.toList.toArray.size then some p else none) := by
  have hwell := Pattern.wellFormed_of_layoutOf hread
  simp only [markTest, Pattern.markForm_of_regular hread hregular, Pattern.regularMarkForm, List.zip_map']
  rw [Regex.isSome_findSome?, List.any_map, Bool.eq_iff_iff, List.any_eq_true, List.any_eq_true]
  refine exists_congr fun pieces => and_congr_right fun hpieces => ?_
  obtain ⟨body, htext, hroot, -⟩ := Pattern.body_of_variant (Pattern.regular_variants hwell hregular hpieces)
  simp only [Function.comp, variantTest, ← htext, body.compile_text, Option.isSome_map, isSome_fullMatch?,
    Regex.Body.regex, hroot, piecesMatch]

/-- The named strategy finds it just then. -/
theorem isSome_namedTest (path : String) :
    (namedTest route path).isSome = layout.variants.any (piecesMatch route.tokens path.toList 1 {} fun p =>
      if p.position = path.toList.toArray.size then some p else none) := by
  have hwell := Pattern.wellFormed_of_layoutOf hread
  rw [← any_namedParts path.toList hwell hregular, ← isSome_chain route.tokens path.toList
    (Pattern.namedBy (Pattern.captureAliases layout.names))]
  simp only [namedTest, Pattern.namedForm_of_regular hread hregular, Pattern.compile_namedComposite hwell.nodup hregular,
    Option.isSome_map, isSome_fullMatch?]
  rw [namedComposite, Pattern.items_compositeOf]

/-- **Both strategies take a route with a regular layout**, and find it on the same paths. -/
theorem agrees_of_layout : route.Agrees where
  selfContained := selfContained_of_layout hread hregular
  compiles := compiles_of_layout hread hregular
  found path := (isSome_markTest hread hregular path).trans (isSome_namedTest hread hregular path).symm

end Layout

/-- **Both strategies take a regular route**, and find it on the same paths. -/
theorem agrees_of_regular {route : Route} (h : route.IsRegular) : route.Agrees := by
  unfold Route.IsRegular at h
  split_ifs at h with hdynamic
  · obtain ⟨layout, hread, hregular⟩ := h
    exact agrees_of_layout ((Pattern.layoutOf_dynamic hdynamic).trans hread) hregular
  · have hstatic : (!Pattern.isDynamic route.path) = true := by simp [hdynamic]
    by_cases hroot : (decide (route.path = "") || decide (route.path = "/")) = true
    · obtain ⟨body, hbody⟩ := exists_slash_body
      refine @agrees_of_static route body ?_ ?_
      · rw [Pattern.MarkForm.parse, if_pos hroot, hbody]
        rfl
      · rw [Pattern.NamedForm.parse, if_pos hroot, hbody]
        rfl
    · obtain ⟨body, hbody⟩ := Option.isSome_iff_exists.1 h
      have htext : body.text = route.path := Regex.Body.text_of_ofText? hbody
      have hcompile := body.compile_text
      rw [htext] at hcompile
      refine @agrees_of_static route body ?_ ?_
      · rw [Pattern.MarkForm.parse, if_neg hroot, if_pos hstatic, Pattern.compileOr_ok hcompile, htext]
        rfl
      · rw [Pattern.NamedForm.parse, if_neg hroot, if_pos hstatic, htext]
        rfl

/-! ## Answers of two tests -/

/-- the same answer, but for the attributes -/
structure MatchResult.SameRoute (a b : MatchResult) : Prop where
  status : a.status = b.status
  route : a.route = b.route
  allowed : a.allowed = b.allowed
  failed : a.failed = b.failed

section Answers

variable {test test' : RouteTest} {path : String}

theorem firstMatch_name_congr {routes : List Route}
    (h : ∀ route ∈ routes, (test route path).isSome = (test' route path).isSome) :
    (firstMatch test path routes).map (·.1) = (firstMatch test' path routes).map (·.1) := by
  induction routes with
  | nil => rfl
  | cons route rest ih =>
    have hroute := h route List.mem_cons_self
    have hrest := ih fun other hother => h other (List.mem_cons_of_mem route hother)
    rw [firstMatch, firstMatch, List.findSome?_cons, List.findSome?_cons]
    cases hown : test route path <;> cases hown' : test' route path <;> rw [hown, hown'] at hroute
    · exact hrest
    · cases hroute
    · cases hroute
    · rfl

/-- Tests that accept the same paths choose the same routes. -/
theorem answer_congr {routes : List Route}
    (h : ∀ route ∈ routes, (test route path).isSome = (test' route path).isSome) (method : String) :
    (answer test routes path method).SameRoute (answer test' routes path method) := by
  have hfilter : ∀ p : Route → Bool, (firstMatch test path (routes.filter p)).map (·.1) =
      (firstMatch test' path (routes.filter p)).map (·.1) := fun p =>
    firstMatch_name_congr fun route hroute => h route (List.mem_of_mem_filter hroute)
  have hfound : ((firstMatch test path (routesListing (Text.toUpper method) routes)).or
      (firstMatch test path (routesForAny routes))).map (·.1) =
        ((firstMatch test' path (routesListing (Text.toUpper method) routes)).or
          (firstMatch test' path (routesForAny routes))).map (·.1) := by
    rw [Option.map_or, Option.map_or, routesListing, routesForAny, hfilter, hfilter]
  have hmethods : matchingMethods test path routes = matchingMethods test' path routes := by
    refine List.filterMap_congr fun listed _ => ?_
    have hlisted := congrArg (Option.map (listed, ·)) (hfilter (·.methodNames.contains listed))
    simpa only [routesListing, Option.map_map, Function.comp_def] using hlisted
  simp only [answer, hmethods]
  revert hfound
  generalize (firstMatch test path (routesListing (Text.toUpper method) routes)).or _ = found
  generalize (firstMatch test' path (routesListing (Text.toUpper method) routes)).or _ = found'
  intro hfound
  cases found <;> cases found'
  · cases matchingMethods test' path routes <;> exact ⟨rfl, rfl, rfl, rfl⟩
  · cases hfound
  · cases hfound
  · exact ⟨rfl, hfound, rfl, rfl⟩

end Answers

/-! ## Configurations -/

namespace Strategy

/-- what a route finds by itself -/
def test : Strategy → RouteTest
  | mark => markTest
  | named => namedTest

/-- whether chunks of the strategy take the route as it is by itself -/
def Suits : Strategy → Route → Prop
  | mark, route => route.IsSelfContained
  | named, route => route.Compiles

variable {strategy : Strategy} {routes : List Route}

theorem chunksFind_of_suits (h : ∀ route ∈ routes, strategy.Suits route) : ChunksFind strategy strategy.test routes := by
  cases strategy with
  | mark => exact markChunks_find h
  | named => exact namedChunks_find fun route hroute item hitem => entryFinds_of_compiles (h route hroute) hitem

theorem exists_collected {route : Route} (h : strategy.Suits route) : ∃ item, route.collected strategy = .ok item := by
  cases strategy with
  | mark =>
    obtain ⟨form, hform, -⟩ := h
    exact ⟨⟨route.name, form⟩, by rw [Route.collected, parse, hform]; rfl⟩
  | named =>
    obtain ⟨form, -, hform, -⟩ := h
    exact ⟨⟨route.name, form⟩, by rw [Route.collected, parse, hform]; rfl⟩

/-- **Routes that suit a strategy make a matcher** for every size of the chunks, and every request gets the answer of the
scan in which each route is tried by itself. -/
theorem exists_freshMatcher {size : Int} (hsize : 1 ≤ size) (hnames : (routes.map (·.name)).Nodup)
    (h : ∀ route ∈ routes, strategy.Suits route) :
    ∃ matcher, freshMatcher strategy.name size routes = .ok matcher ∧
      ∀ path method, matcher.match' path method = .ok (answer strategy.test routes path method) := by
  obtain ⟨collector, hmake, rfl⟩ := Collector.make_of_pos strategy hsize
  have hempty := (Collector.make_eq_ok hmake).1
  obtain ⟨parsed, hparsed⟩ := forall₂_of_exists fun route hroute => exists_collected (h route hroute)
  rw [← mapM_eq_ok] at hparsed
  obtain ⟨matcher, hmatcher, hmatch⟩ := ofData_of_chunks hempty hnames hparsed (chunksFind_of_suits h)
  exact ⟨matcher, freshMatcher_eq_ok.2 ⟨collector, hmake, (data_of_collected hempty hnames hparsed).1, hmatcher⟩, hmatch⟩

/-- Named routes of a matcher suit their strategy. -/
theorem suits_of_freshMatcher {size : Int} {matcher : Matcher} (hnames : (routes.map (·.name)).Nodup)
    (hmatcher : freshMatcher named.name size routes = .ok matcher) : ∀ route ∈ routes, named.Suits route := by
  obtain ⟨collector, hmake, hadded, hmatcher⟩ := freshMatcher_eq_ok.1 hmatcher
  have hempty := (Collector.make_eq_ok hmake).1
  exact compiles_of_matcher hempty (Collector.strategy_of_make hmake) hnames hadded hmatcher

/-- A matcher of routes that suit its strategy gives the answers of the scan. -/
theorem match'_of_suits {size : Int} {matcher : Matcher} (hnames : (routes.map (·.name)).Nodup)
    (hmatcher : freshMatcher strategy.name size routes = .ok matcher) (h : ∀ route ∈ routes, strategy.Suits route)
    (path method : String) : matcher.match' path method = .ok (answer strategy.test routes path method) := by
  obtain ⟨collector, hmake, -⟩ := freshMatcher_eq_ok.1 hmatcher
  have hsize : 1 ≤ size := by
    have hpos := collector.chunkSize_pos
    have hchunk := (Collector.make_eq_ok hmake).2.2
    omega
  obtain ⟨other, hother, hmatch⟩ := exists_freshMatcher hsize hnames h
  obtain rfl : matcher = other := Except.ok.inj (hmatcher.symm.trans hother)
  exact hmatch path method

end Strategy

/-- A regular route suits both strategies. -/
theorem Route.IsRegular.suits {route : Route} (h : route.IsRegular) (strategy : Strategy) : strategy.Suits route := by
  have hagrees := agrees_of_regular h
  cases strategy with
  | mark => exact hagrees.selfContained
  | named => exact hagrees.compiles

/-- The route means the same under both strategies. Named expressions never stand together, so that nothing is asked of
them; in an alternation each variant has to stand for itself; and between the strategies the pattern has to be regular,
part by part. -/
def Route.IsPortable (strategy strategy' : Strategy) (route : Route) : Prop :=
  match strategy, strategy' with
  | .named, .named => True
  | .mark, .mark => route.IsSelfContained
  | _, _ => route.IsRegular

instance (strategy strategy' : Strategy) : DecidablePred (Route.IsPortable strategy strategy') := fun route =>
  match strategy, strategy' with
  | .named, .named => inferInstanceAs (Decidable True)
  | .mark, .mark => inferInstanceAs (Decidable route.IsSelfContained)
  | .mark, .named => inferInstanceAs (Decidable route.IsRegular)
  | .named, .mark => inferInstanceAs (Decidable route.IsRegular)

/-- Routes of two matchers that mean the same under both strategies suit both, and are found on the same paths. -/
theorem suits_of_portable {strategy strategy' : Strategy} {routes : List Route}
    (hroutes : ∀ route ∈ routes, route.IsPortable strategy strategy')
    (hnamed : strategy = .named → ∀ route ∈ routes, route.Compiles) :
    (∀ route ∈ routes, strategy.Suits route) ∧ (∀ route ∈ routes, strategy'.Suits route) ∧
      ∀ route ∈ routes, ∀ path, (strategy.test route path).isSome = (strategy'.test route path).isSome := by
  cases strategy with
  | mark =>
    cases strategy' with
    | mark => exact ⟨hroutes, hroutes, fun _ _ _ => rfl⟩
    | named =>
      have hagrees := fun route hroute => agrees_of_regular (hroutes route hroute)
      exact ⟨fun route hroute => (hagrees route hroute).selfContained, fun route hroute => (hagrees route hroute).compiles,
        fun route hroute path => (hagrees route hroute).found path⟩
  | named =>
    cases strategy' with
    | named => exact ⟨hnamed rfl, hnamed rfl, fun _ _ _ => rfl⟩
    | mark =>
      have hagrees := fun route hroute => agrees_of_regular (hroutes route hroute)
      exact ⟨fun route hroute => (hagrees route hroute).compiles, fun route hroute => (hagrees route hroute).selfContained,
        fun route hroute path => ((hagrees route hroute).found path).symm⟩

/-- Regular routes make a matcher in every configuration. -/
theorem exists_freshMatcher_of_regular (strategy : Strategy) {size : Int} (hsize : 1 ≤ size) {routes : List Route}
    (hnames : (routes.map (·.name)).Nodup) (hroutes : ∀ route ∈ routes, route.IsRegular) :
    ∃ matcher, freshMatcher strategy.name size routes = .ok matcher := by
  have hsuits : ∀ route ∈ routes, strategy.Suits route := fun route hroute => (hroutes route hroute).suits strategy
  obtain ⟨matcher, hmatcher, -⟩ := Strategy.exists_freshMatcher hsize hnames hsuits
  exact ⟨matcher, hmatcher⟩

/-- **Strategy and chunk size are choices of performance.** Two matchers of the same routes, whatever their
configurations, answer every request, and with the same status, route and allowed methods, if every route means the same
under both strategies. -/
theorem configurations_agree (strategy strategy' : Strategy) (size size' : Int) (routes : List Route)
    (hnames : (routes.map (·.name)).Nodup) (hroutes : ∀ route ∈ routes, route.IsPortable strategy strategy')
    (matcher matcher' : Matcher) (hmatcher : freshMatcher strategy.name size routes = .ok matcher)
    (hmatcher' : freshMatcher strategy'.name size' routes = .ok matcher') (path method : String) :
    ∃ result result', matcher.match' path method = .ok result ∧ matcher'.match' path method = .ok result' ∧
      result.SameRoute result' := by
  have hnamed : strategy = .named → ∀ route ∈ routes, route.Compiles := by
    rintro rfl
    exact Strategy.suits_of_freshMatcher hnames hmatcher
  obtain ⟨hsuits, hsuits', hfound⟩ := suits_of_portable hroutes hnamed
  exact ⟨_, _, Strategy.match'_of_suits hnames hmatcher hsuits path method,
    Strategy.match'_of_suits hnames hmatcher' hsuits' path method,
    answer_congr (fun route hroute => hfound route hroute path) method⟩

/-- pages in two languages, with a number that may be left out, and a file whose path has an escaped dot -/
def pageRoutes : List Route := [
  routeAt "/v\\d+/\x7blang:en|de\x7d[/\x7bpage:[a-z]+\x7d;/\x7bpart:(\\d)*\x7d]" "page",
  ⟨"/v\\d+/(map|index)\\.json", "map", some [.get], [], none, none, none⟩]

/-- The pages get the same answers one by one under the mark strategy and in pairs under the named one. -/
theorem pageRoutes_agree :
    ∃ matcher matcher', freshMatcher Strategy.mark.name 1 pageRoutes = .ok matcher ∧
      freshMatcher Strategy.named.name 2 pageRoutes = .ok matcher' ∧
      ∀ path method, ∃ result result', matcher.match' path method = .ok result ∧
        matcher'.match' path method = .ok result' ∧ result.SameRoute result' := by
  have hnames : (pageRoutes.map (·.name)).Nodup := by decide
  have hregular : ∀ route ∈ pageRoutes, route.IsRegular := by decide +kernel
  obtain ⟨matcher, hmatcher⟩ := exists_freshMatcher_of_regular .mark (by decide : 1 ≤ (1 : Int)) hnames hregular
  obtain ⟨matcher', hmatcher'⟩ := exists_freshMatcher_of_regular .named (by decide : 1 ≤ (2 : Int)) hnames hregular
  exact ⟨matcher, matcher', hmatcher, hmatcher', fun path method =>
    configurations_agree .mark .named 1 2 pageRoutes hnames hregular matcher matcher' hmatcher hmatcher' path method⟩

end UrlRouter
