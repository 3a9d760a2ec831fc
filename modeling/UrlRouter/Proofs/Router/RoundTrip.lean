/-
A written path leads back to its route.

When a router writes a path for a plain route whose tokens end their segments, and no other of its routes is found on
this path, then a request for the path finds the route, with the values that were written and no others.

Results:
- `foundAlone_iff`: a plain route is found on its own exactly where its test succeeds.
- `answer_of_only`: the scan answers with the only route that matches.
- `found_answer`: a found answer comes from a route whose test succeeds.
- `HoldsPlain.match'`, `HoldsPlain.generateUri`: what a router of plain routes answers and writes.
- `written_path_found`: after any calls, a path that was written for a route is answered with this route.
-/
import Mathlib.Tactic
import UrlRouter.Proofs.Route.Written
import UrlRouter.Proofs.Router.Coherence

namespace UrlRouter

open Pattern (tokensEndSegments)

/-! ## The only route that matches -/

theorem firstMatch_none {test : RouteTest} {path : String} {routes : List Route}
    (h : ∀ route ∈ routes, test route path = none) : firstMatch test path routes = none := by
  rw [firstMatch, List.findSome?_eq_none_iff]
  intro route hroute
  rw [h route hroute]
  rfl

theorem firstMatch_of_only {test : RouteTest} {path : String} {routes : List Route} {route : Route}
    (hroute : route ∈ routes) {attributes : List (String × String)} (htest : test route path = some attributes)
    (hothers : ∀ other ∈ routes, other ≠ route → test other path = none) :
    firstMatch test path routes = some (route.name, attributes) := by
  induction routes with
  | nil => exact absurd hroute List.not_mem_nil
  | cons first rest ih =>
    rw [firstMatch, List.findSome?_cons]
    by_cases hfirst : first = route
    · rw [hfirst, htest]
      rfl
    · rw [hothers first List.mem_cons_self hfirst]
      have hrest := (List.mem_cons.1 hroute).resolve_left fun heq => hfirst heq.symm
      exact ih hrest fun other hother => hothers other (List.mem_cons_of_mem first hother)

/-- A method that a route allows is listed by it, or the route is for any method. -/
theorem allowsMethod_cases {route : Route} {method : String} (h : route.allowsMethod method = true) :
    route.methodNames.contains (Text.toUpper method) = true ∨ route.sortedMethods = [] := by
  rcases Bool.or_eq_true_iff.1 h with hany | hlisted
  · right
    rw [Route.sortedMethods, Option.isNone_iff_eq_none.1 hany]
    rfl
  · exact .inl hlisted

/-- **The only route that matches is the answer** for the methods that it lists, or for any if it lists none. -/
theorem answer_of_only {test : RouteTest} {routes : List Route} {route : Route} (hroute : route ∈ routes)
    {path : String} {attributes : List (String × String)} (htest : test route path = some attributes)
    (hothers : ∀ other ∈ routes, other ≠ route → test other path = none) {method : String}
    (hmethod : route.methodNames.contains (Text.toUpper method) = true ∨ route.sortedMethods = []) :
    answer test routes path method =
      { status := .found, method := Text.toUpper method, path, route := some route.name, attributes } := by
  have hlisting : ∀ part : List Route, part ⊆ routes → route ∈ part →
      firstMatch test path part = some (route.name, attributes) := fun part hpart hmem =>
    firstMatch_of_only hmem htest fun other hother => hothers other (hpart hother)
  have hfound : (firstMatch test path (routesListing (Text.toUpper method) routes)).or
      (firstMatch test path (routesForAny routes)) = some (route.name, attributes) := by
    by_cases hlists : route.methodNames.contains (Text.toUpper method) = true
    · rw [routesListing, hlisting _ (List.filter_subset_self _) (List.mem_filter.2 ⟨hroute, hlists⟩), Option.some_or]
    · -- the routes that list the method do not match, since the only one that does is not among them
      have hnone : firstMatch test path (routesListing (Text.toUpper method) routes) = none := by
        refine firstMatch_none fun other hother => ?_
        obtain ⟨hmem, hother⟩ := List.mem_filter.1 hother
        exact hothers other hmem fun heq => hlists (heq ▸ hother)
      have hany := List.isEmpty_iff.2 (hmethod.resolve_left hlists)
      rw [hnone, Option.none_or, routesForAny, hlisting _ (List.filter_subset_self _)
        (List.mem_filter.2 ⟨hroute, hany⟩)]
  unfold answer
  dsimp only
  rw [hfound]

/-! ## What a found answer says -/

section

variable {test : RouteTest} {path : String} {routes : List Route}

theorem exists_of_firstMatch {hit : Hit} (h : firstMatch test path routes = some hit) :
    ∃ route ∈ routes, test route path = some hit.2 ∧ hit.1 = route.name := by
  obtain ⟨route, hroute, hhit⟩ := List.exists_of_findSome?_eq_some h
  obtain ⟨attributes, htest, rfl⟩ := Option.map_eq_some_iff.1 hhit
  exact ⟨route, hroute, htest, rfl⟩

/-- **A found answer** names a route whose test succeeds, with what the test gives. -/
theorem found_answer {method : String} (h : (answer test routes path method).status = .found) :
    ∃ route ∈ routes, test route path = some (answer test routes path method).attributes ∧
      (answer test routes path method).route = some route.name := by
  unfold answer at h ⊢
  dsimp only at h ⊢
  cases hfirst : (firstMatch test path (routesListing (Text.toUpper method) routes)).or
      (firstMatch test path (routesForAny routes)) with
  | some hit =>
    have hpart : ∃ part : List Route, part ⊆ routes ∧ firstMatch test path part = some hit := by
      rcases Option.or_eq_some_iff.1 hfirst with hlisted | ⟨-, hany⟩
      · exact ⟨_, List.filter_subset_self _, hlisted⟩
      · exact ⟨_, List.filter_subset_self _, hany⟩
    obtain ⟨part, hsubset, hhit⟩ := hpart
    obtain ⟨route, hroute, htest, hname⟩ := exists_of_firstMatch hhit
    exact ⟨route, hsubset hroute, htest, congrArg some hname⟩
  | none =>
    rw [hfirst] at h
    dsimp only at h
    split at h
    · cases h
    · cases h

end

/-! ## Plain routes on their own -/

theorem freshMatch_of_plain (strategy : Strategy) {size : Int} (hsize : 1 ≤ size) {routes : List Route}
    (hnames : (routes.map (·.name)).Nodup) (hplain : ∀ route ∈ routes, route.IsPlain) (path method : String) :
    freshMatch strategy.name size routes path method = .ok (answer plainTest routes path method) := by
  obtain ⟨collector, matcher, hmake, hadd, hdata, hmatch⟩ := exists_matcher_of_plain strategy hsize hnames hplain
  rw [freshMatch, freshMatcher_eq_ok.2 ⟨collector, hmake, hadd, hdata⟩, ok_bind, hmatch]
  rfl

/-- A router of this kind with no other route finds this one on the path, for some method. -/
def FoundAlone (strategy : String) (size : Int) (route : Route) (path : String) : Prop :=
  ∃ method result, freshMatch strategy size [route] path method = .ok result ∧ result.status = .found

/-- **A plain route is found on its own** on the paths on which its test succeeds. -/
theorem foundAlone_iff (strategy : Strategy) {size : Int} (hsize : 1 ≤ size) {route : Route} (hplain : route.IsPlain)
    (path : String) : FoundAlone strategy.name size route path ↔ ∃ attributes, plainTest route path = some attributes := by
  have hmatch := @freshMatch_of_plain strategy size hsize [route] (List.nodup_singleton _)
    fun other hother => List.mem_singleton.1 hother ▸ hplain
  constructor
  · rintro ⟨method, result, hresult, hfound⟩
    rw [hmatch] at hresult
    obtain rfl := Except.ok.inj hresult
    obtain ⟨other, hother, htest, -⟩ := found_answer hfound
    obtain rfl := List.mem_singleton.1 hother
    exact ⟨_, htest⟩
  · rintro ⟨attributes, htest⟩
    obtain ⟨method, hmethod⟩ : ∃ method, route.methodNames.contains (Text.toUpper method) = true ∨
        route.sortedMethods = [] := by
      cases hmethods : route.sortedMethods with
      | nil => exact ⟨"", .inr rfl⟩
      | cons method rest =>
        refine ⟨method.name, .inl ?_⟩
        rw [toUpper_methodName, Route.methodNames, hmethods]
        simp
    have hanswer := answer_of_only (List.mem_singleton_self route) htest
      (fun other hother hne => absurd (List.mem_singleton.1 hother) hne) hmethod
    exact ⟨method, _, hmatch path method, congrArg MatchResult.status hanswer⟩

/-! ## Routers of plain routes -/

/-- a router with this strategy and chunks of this size that came about by calls and holds plain routes only -/
structure RouterState.HoldsPlain (strategy : Strategy) (size : Int) (state : RouterState) : Prop where
  coherent : Coherent state.router state.cache
  strategy : state.router.strategy = strategy.name
  size : state.router.chunkSize = size
  plain : ∀ route ∈ state.router.routes, route.IsPlain

theorem RouterState.holdsPlain_run (strategy : Strategy) (size : Int) (key : String) (tokens : Mapping String)
    (cached : Bool) (calls : List RouterCall) {state : RouterState}
    (hstate : state = (RouterState.opened strategy.name size key tokens cached).run calls)
    (hplain : ∀ route ∈ state.router.routes, route.IsPlain) : state.HoldsPlain strategy size := by
  subst hstate
  obtain ⟨hcoherent, hstrategy, hsize⟩ := coherent_run (coherent_opened strategy.name size key tokens cached) calls
  exact ⟨hcoherent, hstrategy, hsize, hplain⟩

section

variable {strategy : Strategy} {size : Int} {state : RouterState}

/-- Calls that register nothing leave the routes. -/
theorem RouterState.HoldsPlain.step (h : state.HoldsPlain strategy size) (call : RouterCall)
    (hcall : ∀ registration, call ≠ .addRoute registration) :
    (state.step call).HoldsPlain strategy size ∧ (state.step call).router.routes = state.router.routes := by
  obtain ⟨hcoherent, hstrategy, hsize, hroutes⟩ := coherent_step h.coherent call
  have hroutes := hroutes hcall
  exact ⟨⟨hcoherent, hstrategy.trans h.strategy, hsize.trans h.size, hroutes ▸ h.plain⟩, hroutes⟩

/-- Every request gets the answer of the scan. -/
theorem RouterState.HoldsPlain.match' (h : state.HoldsPlain strategy size) (hsize : 1 ≤ size) (path method : String) :
    (RouterM.outcome (RouterM.match' path method) state).1 =
      .ok (answer plainTest state.router.routes path method) := by
  obtain ⟨after, hmatch, -⟩ := RouterM.match'_spec h.coherent path method
  rw [hmatch, h.strategy, h.size]
  exact freshMatch_of_plain strategy hsize h.coherent.names h.plain path method

/-- Every path is written from the layout of its route. -/
theorem RouterState.HoldsPlain.generateUri (h : state.HoldsPlain strategy size) (name : String)
    (attributes : Attributes) :
    (RouterM.outcome (RouterM.generateUri name attributes []) state).1 =
      (freshPath state.router.routes name attributes).mapError RouterError.generate := by
  obtain ⟨generator, events, hgenerate, -⟩ := RouterM.generateUri_spec h.coherent name attributes []
  rw [hgenerate]
  cases freshPath state.router.routes name attributes <;> rfl

end

/-! ## Writing and matching -/

/-- What a router writes for a registered route comes from the layout of this route. -/
theorem freshPath_of_mem {routes : List Route} (hnames : (routes.map (·.name)).Nodup) {route : Route}
    (hroute : route ∈ routes) (attributes : Attributes) :
    freshPath routes route.name attributes =
      match RouteLayout.ofRoute route with
      | .error e => .error (.pattern e)
      | .ok info => info.path route attributes.given := by
  unfold freshPath
  cases hfind : routes.find? (·.name == route.name) with
  | none =>
    have hnone := List.find?_eq_none.1 hfind route hroute
    exact absurd (beq_self_eq_true route.name) hnone
  | some found =>
    have hname : found.name = route.name := by simpa using List.find?_some hfind
    obtain rfl := eq_of_name_eq hnames (List.mem_of_find?_eq_some hfind) hroute hname
    rfl

theorem freshPath_eq_ok {routes : List Route} (hnames : (routes.map (·.name)).Nodup) {route : Route}
    (hroute : route ∈ routes) {attributes : Attributes} {path : String}
    (h : freshPath routes route.name attributes = .ok path) :
    ∃ info, RouteLayout.ofRoute route = .ok info ∧ info.path route attributes.given = .ok path := by
  rw [freshPath_of_mem hnames hroute] at h
  cases hinfo : RouteLayout.ofRoute route with
  | error e =>
    rw [hinfo] at h
    cases h
  | ok info =>
    rw [hinfo] at h
    exact ⟨info, rfl, h⟩

/-- **A written path leads back to its route.** A router is opened with either strategy and chunks of any size, and
after any calls holds plain routes. It writes a path for one of them whose tokens are each followed by a slash or by
nothing; what stands before a token does not matter. If no other route would be found on this path on its own, then a
request for the path with any method that the route allows finds the route. The attributes are the tokens of the base
and of the segments that were written, each with the text of the value that was given for it, and no others. -/
theorem written_path_found (strategy : Strategy) (size : Int) (hsize : 1 ≤ size) (key : String)
    (tokens : Mapping String) (cached : Bool) (calls : List RouterCall) (state : RouterState)
    (hstate : state = (RouterState.opened strategy.name size key tokens cached).run calls)
    (hplain : ∀ route ∈ state.router.routes, route.IsPlain) (route : Route) (hroute : route ∈ state.router.routes)
    (hend : tokensEndSegments route.layout.pieces = true) (attributes : Attributes) (path : String)
    (hpath : (RouterM.outcome (RouterM.generateUri route.name attributes []) state).1 = .ok path)
    (halone : ∀ other ∈ state.router.routes, other.name ≠ route.name → ¬FoundAlone strategy.name size other path)
    (method : String) (hmethod : route.allowsMethod method = true) :
    ∃ found, (RouterM.outcome (RouterM.match' path method) (state.step (.generateUri route.name attributes []))).1 =
        .ok { status := .found, method := Text.toUpper method, path, route := some route.name, attributes := found } ∧
      found.map (fun entry => (entry.1, some entry.2)) =
        (route.layout.writtenTokens attributes.given).map fun token =>
          (token.name, attributes.given.lookup token.name) := by
  have hholds := RouterState.holdsPlain_run strategy size key tokens cached calls hstate hplain
  have hnames := hholds.coherent.names
  -- the path is written from the layout of the route
  rw [hholds.generateUri, mapError_eq_ok] at hpath
  obtain ⟨info, hinfo, hwritten⟩ := freshPath_eq_ok hnames hroute hpath
  obtain ⟨found, htest, hfound⟩ := plainTest_of_path (hplain route hroute) hend hinfo hwritten
  refine ⟨found, ?_, hfound⟩
  -- no other route matches, so that the scan answers with this one
  have hothers : ∀ other ∈ state.router.routes, other ≠ route → plainTest other path = none := by
    intro other hother hne
    have hname : other.name ≠ route.name := fun heq => hne (eq_of_name_eq hnames hother hroute heq)
    rw [Option.eq_none_iff_forall_ne_some]
    intro values hvalues
    exact halone other hother hname ((foundAlone_iff strategy hsize (hplain other hother) path).2 ⟨values, hvalues⟩)
  obtain ⟨hafter, hroutes⟩ := hholds.step (.generateUri route.name attributes []) fun _ hcall => by cases hcall
  rw [hafter.match' hsize, hroutes, answer_of_only hroute htest hothers (allowsMethod_cases hmethod)]

def archivePage : Registration := pageRegistration "/archive[/\x7byear\x7d;/\x7bmonth\x7d]" "archive"

def userPage : Registration := pageRegistration "/users/\x7bid\x7d" "user"

/-- The segment of the month is not written, and its token is no attribute. -/
theorem archivePath_found :
    let calls := [.addRoute archivePage, .addRoute userPage]
    let state := (RouterState.opened Strategy.mark.name 1 "k" [] true).run calls
    let attributes : Attributes := [("year", .string "20 24"), ("month", .null)]
    let path := "/archive/20%2024"
    (RouterM.outcome (RouterM.generateUri "archive" attributes []) state).1 = .ok path ∧
    ∃ found, (RouterM.outcome (RouterM.match' path "get") (state.step (.generateUri "archive" attributes []))).1 =
        .ok { status := .found, method := "GET", path, route := some "archive", attributes := found } ∧
      found.map (fun entry => (entry.1, some entry.2)) = [("year", some "20 24")] := by
  intro calls state attributes path
  have hroutes : state.router.routes = [archivePage.route, userPage.route] := by decide +kernel
  have hplain : ∀ route ∈ state.router.routes, route.IsPlain := by
    rw [hroutes]
    decide +kernel
  have hpath : (RouterM.outcome (RouterM.generateUri "archive" attributes []) state).1 = .ok path :=
    toOption_eq_some.1 (by decide +kernel)
  have halone : ∀ other ∈ state.router.routes, other.name ≠ archivePage.route.name →
      ¬FoundAlone Strategy.mark.name 1 other path := by
    intro other hother hname
    rw [foundAlone_iff .mark (by decide) (hplain other hother)]
    rw [hroutes, List.mem_pair] at hother
    rcases hother with rfl | rfl
    · exact absurd rfl hname
    · have hnone : plainTest userPage.route path = none := by decide +kernel
      rintro ⟨found, hfound⟩
      rw [hnone] at hfound
      cases hfound
  have hmethod : Text.toUpper "get" = "GET" := by decide +kernel
  obtain ⟨found, hmatch, hfound⟩ := written_path_found .mark 1 (by decide) "k" [] true calls state rfl hplain
    archivePage.route (by rw [hroutes]; exact List.mem_cons_self) (by decide +kernel) attributes path hpath halone
    "get" (by decide +kernel)
  rw [hmethod] at hmatch
  exact ⟨hpath, found, hmatch, hfound.trans (by decide +kernel)⟩

end UrlRouter
