/-
A router never answers from stale data.

The router remembers a matcher, the data that it compiled or loaded, whether these are stale, and the layouts of the
routes that it has written. `Coherent` says that whatever it remembers is what the routes give now, and that its reader
of cache entries understands what the router writes there. Every call keeps this, also one that fails on the way, and so
every answer is that of a router that has just been made.

Results:
- `dispatchData_spec`, `getMatcher_spec`, `match'_spec`: a coherent router answers as one that has just been made.
- `coherent_step`, `coherent_run`: every call keeps a router coherent.
- `router_answers_fresh`: after any calls, a request gets the answer of a new matcher over the registered routes.
-/
import Mathlib.Tactic
import UrlRouter.Proofs.Dispatch.DataText
import UrlRouter.Proofs.Router.Outcome

namespace UrlRouter

/-! ## Coherent routers -/

/-- what the router remembers is what its routes give -/
structure Coherent (router : Router) (cache : Option Cache) : Prop where
  memory : InMemory cache
  decodes : ∀ data : DispatchData, data.Keyed → router.decode data.text = .ok data
  names : (router.routes.map (·.name)).Nodup
  detected : router.detector.names = router.routes.map (·.name)
  matcher : ∀ matcher, router.matcher = some matcher →
    freshMatcher router.strategy router.chunkSize router.routes = .ok matcher
  unloaded : router.loaded = false → router.stale = false ∧ heldText cache router.cacheKey = none
  entry : router.stale = false → ∀ text, heldText cache router.cacheKey = some text →
    ∃ data, collectedData router.strategy router.chunkSize router.routes = .ok data ∧ data.text = text
  layouts : ∀ kept ∈ router.generator.cache,
    ∃ route ∈ router.routes, route.name = kept.1 ∧ RouteLayout.ofRoute route = .ok kept.2

/-- the router with nothing changed but what it remembers of its compiled routes -/
def Router.SameBut (before after : Router) : Prop :=
  after = { before with matcher := after.matcher, loaded := after.loaded, stale := after.stale }

theorem Router.SameBut.fields {before after : Router} (h : before.SameBut after) :
    after.strategy = before.strategy ∧ after.chunkSize = before.chunkSize ∧ after.routes = before.routes := by
  rw [h]
  exact ⟨rfl, rfl, rfl⟩

/-- Collected data are those of a collector that was given the routes and nothing else. -/
theorem collector_of_collectedData {strategy : String} {size : Int} {routes : List Route} {data : DispatchData}
    (h : collectedData strategy size routes = .ok data) :
    ∃ collector : Collector, collector.Gathers routes ∧ collector.data = data := by
  obtain ⟨collector, hmake, -, rfl⟩ := collectedData_eq_ok.1 h
  exact ⟨_, gathers_addRoutes ((Collector.make_eq_ok hmake).1.gathers routes) fun _ hroute => hroute, rfl⟩

theorem keyed_of_collectedData {strategy : String} {size : Int} {routes : List Route} {data : DispatchData}
    (h : collectedData strategy size routes = .ok data) : data.Keyed := by
  obtain ⟨collector, hgathers, rfl⟩ := collector_of_collectedData h
  exact hgathers.keyed

/-! ## Answers of a coherent router -/

namespace RouterM

/-- **The dispatch data** of a coherent router are those of a new collector, whether they come from the cache or not. -/
theorem dispatchData_spec {s : RouterState} (h : Coherent s.router s.cache) :
    ∃ t, outcome dispatchData s = (collectedData s.router.strategy s.router.chunkSize s.router.routes, t) ∧
      Coherent t.router t.cache ∧ s.router.SameBut t.router := by
  -- the routes are compiled when the entry is stale, and when there is none that can be read
  have hcompile : (s.router.stale = true ∨ ∃ events, outcome cachedData s = (.ok none, { s with events })) →
      ∃ t, outcome dispatchData s = (collectedData s.router.strategy s.router.chunkSize s.router.routes, t) ∧
        Coherent t.router t.cache ∧ s.router.SameBut t.router := by
    intro hmiss
    rcases dispatchData_of_miss hmiss (storeData_spec h.memory) with
      ⟨data, events, hdata, houtcome⟩ | ⟨e, events, hdata, houtcome⟩
    · refine ⟨_, houtcome.trans (congrArg (·, _) hdata.symm), ?_, rfl⟩
      exact { memory := h.memory.stored _ _, decodes := h.decodes
              names := h.names, detected := h.detected, matcher := h.matcher
              unloaded := fun hloaded => by cases hloaded
              entry := fun _ text htext => ⟨data, hdata, (heldText_stored h.memory htext).symm⟩
              layouts := h.layouts }
    · exact ⟨{ s with events }, houtcome.trans (congrArg (·, _) hdata.symm), ⟨h.memory, h.decodes, h.names, h.detected,
        h.matcher, h.unloaded, h.entry, h.layouts⟩, rfl⟩
  by_cases hstale : s.router.stale = true
  · exact hcompile (.inl hstale)
  · have hfresh : s.router.stale = false := by simpa using hstale
    obtain ⟨events, hcached⟩ := cachedData_spec h.memory
    cases hentry : heldText s.cache s.router.cacheKey with
    | none =>
      rw [hentry] at hcached
      exact hcompile (.inr ⟨events, hcached⟩)
    | some text =>
      obtain ⟨data, hdata, rfl⟩ := h.entry hfresh text hentry
      rw [hentry, Option.bind_some, h.decodes data (keyed_of_collectedData hdata)] at hcached
      obtain ⟨events', houtcome⟩ := dispatchData_of_hit hfresh hcached
      refine ⟨_, houtcome.trans (congrArg (·, _) hdata.symm), ?_, rfl⟩
      exact { memory := h.memory, decodes := h.decodes, names := h.names, detected := h.detected, matcher := h.matcher
              unloaded := fun hloaded => by cases hloaded
              entry := fun _ => h.entry hfresh
              layouts := h.layouts }

/-- **The matcher** of a coherent router is that of new data. A failure leaves none behind. -/
theorem getMatcher_spec {s : RouterState} (h : Coherent s.router s.cache) :
    ∃ t, outcome getMatcher s = (freshMatcher s.router.strategy s.router.chunkSize s.router.routes, t) ∧
      Coherent t.router t.cache ∧ s.router.SameBut t.router := by
  cases hmatcher : s.router.matcher with
  | some matcher =>
    rw [h.matcher matcher hmatcher]
    exact ⟨s, getMatcher_of_some hmatcher, h, rfl⟩
  | none =>
    obtain ⟨t, hdata, hcoherent, hsame⟩ := dispatchData_spec h
    rcases getMatcher_of_dispatchData hmatcher hdata with ⟨e, hfresh, houtcome⟩ | ⟨matcher, hfresh, houtcome⟩
    · exact ⟨t, houtcome.trans (congrArg (·, t) hfresh.symm), hcoherent, hsame⟩
    · refine ⟨_, houtcome.trans (congrArg (·, _) hfresh.symm), ?_, ?_⟩
      · have hafter : freshMatcher t.router.strategy t.router.chunkSize t.router.routes = .ok matcher := by
          rw [hsame]
          exact hfresh
        exact { memory := hcoherent.memory, decodes := hsame ▸ h.decodes, names := hcoherent.names
                detected := hcoherent.detected
                matcher := fun other hother => Option.some.inj hother ▸ hafter
                unloaded := hcoherent.unloaded, entry := hcoherent.entry, layouts := hcoherent.layouts }
      · rw [hsame]
        rfl

/-- **A request** gets from a coherent router what a new matcher answers. -/
theorem match'_spec {s : RouterState} (h : Coherent s.router s.cache) (path method : String) :
    ∃ t, outcome (match' path method) s =
        (freshMatch s.router.strategy s.router.chunkSize s.router.routes path method, t) ∧
      Coherent t.router t.cache ∧ s.router.SameBut t.router := by
  obtain ⟨t, hmatcher, hcoherent, hsame⟩ := getMatcher_spec h
  obtain ⟨events, hmatch⟩ := match'_of_getMatcher hmatcher path method
  exact ⟨{ t with events }, hmatch, hcoherent, hsame⟩

end RouterM

/-! ## Registering routes -/

theorem checkAndRecord_names {detector after : Detector} {route : Route}
    (h : detector.checkAndRecord route = .ok after) :
    route.name ∉ detector.names ∧ after.names = detector.names ++ [route.name] := by
  unfold Detector.checkAndRecord at h
  split_ifs at h with hknown
  split at h
  · cases h
  · cases h
    exact ⟨by simpa using hknown, rfl⟩

/-- a route as it is stored, with the default constraints of the router -/
def Router.completed (router : Router) (route : Route) : Route :=
  if router.tokens.isEmpty then route else route.withTokens router.tokens

theorem Router.completed_name (router : Router) (route : Route) : (router.completed route).name = route.name := by
  unfold Router.completed
  split_ifs
  · rfl
  · rfl

theorem register_eq_ok {router after : Router} {registration : Registration}
    (h : router.register registration = .ok after) :
    ∃ detector, router.detector.checkAndRecord registration.route = .ok detector ∧
      after = { router with
        detector
        registrations := router.registrations ++ [{ registration with route := router.completed registration.route }]
        matcher := none
        stale := router.stale || router.loaded } := by
  obtain ⟨detector, hdetector, h⟩ := bind_eq_ok.1 h
  exact ⟨detector, hdetector, (Except.ok.inj h).symm⟩

/-- A router that gets one more route stays coherent, since what it remembered does not count any more. -/
theorem coherent_register {router after : Router} {cache : Option Cache} (h : Coherent router cache)
    {registration : Registration} (hafter : router.register registration = .ok after) :
    Coherent after cache ∧ after.routes = router.routes ++ [router.completed registration.route] := by
  obtain ⟨detector, hdetector, rfl⟩ := register_eq_ok hafter
  obtain ⟨hnew, hnames⟩ := checkAndRecord_names hdetector
  rw [h.detected] at hnew hnames
  have hroutes : (router.registrations ++
      [{ registration with route := router.completed registration.route }]).map Registration.route =
        router.routes ++ [router.completed registration.route] := by
    rw [List.map_append]
    rfl
  refine ⟨{ memory := h.memory, decodes := h.decodes, names := ?_, detected := ?_, matcher := fun m hm => (by cases hm),
            unloaded := ?_, entry := ?_, layouts := ?_ }, hroutes⟩
  · rw [Router.routes, hroutes, List.map_append, List.map_singleton, router.completed_name]
    exact List.nodup_append.2 ⟨h.names, List.nodup_singleton _, fun a ha b hb hab =>
      hnew (List.mem_singleton.1 hb ▸ hab ▸ ha)⟩
  · rw [Router.routes, hroutes, List.map_append, List.map_singleton, router.completed_name]
    exact hnames
  · intro hloaded
    have hloaded : router.loaded = false := hloaded
    obtain ⟨hstale, hentry⟩ := h.unloaded hloaded
    exact ⟨by simp [hstale, hloaded], hentry⟩
  · intro hstale text htext
    -- nothing was compiled yet, so that the cache holds nothing
    have hloaded : router.loaded = false := (Bool.or_eq_false_iff.1 hstale).2
    rw [(h.unloaded hloaded).2] at htext
    cases htext
  · intro kept hkept
    obtain ⟨route, hroute, hname, hlayout⟩ := h.layouts kept hkept
    refine ⟨route, ?_, hname, hlayout⟩
    rw [Router.routes, hroutes]
    exact List.mem_append_left _ hroute

/-! ## Writing paths -/

/-- the path of the route of that name, with its layout made anew -/
def freshPath (routes : List Route) (name : String) (attributes : Attributes) : Except GenerateError String :=
  match routes.find? (·.name == name) with
  | none => .error (.routeNotFound name)
  | some route =>
    match RouteLayout.ofRoute route with
    | .error e => .error (.pattern e)
    | .ok info => info.path route attributes.given

theorem lookup_routes (routes : List Route) (name : String) :
    (routes.map fun route => (route.name, route)).lookup name = routes.find? (·.name == name) := by
  induction routes with
  | nil => rfl
  | cons route routes ih =>
    rw [List.map_cons, List.lookup_cons, List.find?_cons, ih, Bool.beq_comm]

theorem eq_of_name_eq {routes : List Route} (hnames : (routes.map (·.name)).Nodup) {a b : Route} (ha : a ∈ routes)
    (hb : b ∈ routes) (h : a.name = b.name) : a = b := List.inj_on_of_nodup_map hnames ha hb h

/-- **Writing a path** with remembered layouts gives what new ones give, and those that are remembered then are again
layouts of routes. -/
theorem generate_spec {router : Router} {cache : Option Cache} (h : Coherent router cache) (name : String)
    (attributes : Attributes) :
    ∃ generator, router.generator.generate (router.routes.map fun route => (route.name, route)) name attributes =
        (freshPath router.routes name attributes, generator) ∧
      Coherent { router with generator } cache := by
  have hkeep : ∀ generator : UrlGenerator, (∀ kept ∈ generator.cache,
      ∃ route ∈ router.routes, route.name = kept.1 ∧ RouteLayout.ofRoute route = .ok kept.2) →
      Coherent { router with generator } cache := fun generator hlayouts =>
    ⟨h.memory, h.decodes, h.names, h.detected, h.matcher, h.unloaded, h.entry, hlayouts⟩
  unfold UrlGenerator.generate freshPath
  rw [lookup_routes]
  cases hfind : router.routes.find? (·.name == name) with
  | none => exact ⟨router.generator, rfl, hkeep _ h.layouts⟩
  | some route =>
    have hroute : route ∈ router.routes := List.mem_of_find?_eq_some hfind
    unfold UrlGenerator.layoutOf
    dsimp only
    cases hkept : (if router.generator.useCache then router.generator.cache.lookup route.name else none) with
    | some info =>
      obtain ⟨-, hlookup⟩ := Option.ite_none_right_eq_some.1 hkept
      obtain ⟨before, after, hsplit, -⟩ := List.lookup_eq_some_iff.1 hlookup
      obtain ⟨found, hfound, hname, hlayout⟩ := h.layouts (route.name, info) (by simp [hsplit])
      obtain rfl := eq_of_name_eq h.names hfound hroute hname
      rw [hlayout]
      exact ⟨router.generator, rfl, hkeep _ h.layouts⟩
    | none =>
      cases hlayout : RouteLayout.ofRoute route with
      | error e => exact ⟨router.generator, rfl, hkeep _ h.layouts⟩
      | ok info =>
        refine ⟨_, rfl, hkeep _ fun kept hmem => ?_⟩
        split_ifs at hmem
        · rcases List.mem_cons.1 hmem with rfl | hmem
          · exact ⟨route, hroute, rfl, hlayout⟩
          · exact h.layouts kept hmem
        · exact h.layouts kept hmem

/-! ## Calls -/

/-- a call of the router, or the loss of its cache entry -/
inductive RouterCall where
  | addRoute (registration : Registration)
  | setTokens (tokens : Mapping String)
  | request (path method : String)
  | dispatchData
  | generateUri (name : String) (attributes : Attributes) (query : Mapping Json)
  | clearCache
  | loseEntry

namespace RouterState

/-- A router as it is made: without routes, and with no cache or with an empty one in memory. -/
def opened (strategy : String) (chunkSize : Int) (cacheKey : String) (tokens : Mapping String) (cached : Bool) :
    RouterState where
  router := { strategy, chunkSize, cacheKey, tokens }
  cache := if cached then some (.memory []) else none

/-- what a call leaves behind, whether it answers or fails -/
def step (state : RouterState) : RouterCall → RouterState
  | .addRoute registration => (RouterM.outcome (RouterM.addRoute registration) state).2
  | .setTokens tokens => { state with router := state.router.setTokens tokens }
  | .request path method => (RouterM.outcome (RouterM.match' path method) state).2
  | .dispatchData => (RouterM.outcome RouterM.dispatchData state).2
  | .generateUri name attributes query => (RouterM.outcome (RouterM.generateUri name attributes query) state).2
  | .clearCache => (RouterM.outcome RouterM.clearCache state).2
  | .loseEntry => { state with cache := state.cache.map fun cache =>
      (cache.erase state.files state.router.cacheKey).cache }

def run (state : RouterState) (calls : List RouterCall) : RouterState := calls.foldl step state

end RouterState

namespace RouterM

/-- A route is rejected without a trace, or stored behind the others. -/
theorem addRoute_spec (s : RouterState) (registration : Registration) :
    (∃ e, outcome (addRoute registration) s = (.error e, s)) ∨
    ∃ router events, s.router.register registration = .ok router ∧ outcome (addRoute registration) s =
      (.ok { registration with route := s.router.completed registration.route }, { s with router, events }) := by
  unfold addRoute
  rw [outcome_get_bind]
  have hregister := outcome_orFail .duplicate (s.router.register registration) s
  cases hregistered : s.router.register registration with
  | error e =>
    rw [hregistered] at hregister
    exact .inl ⟨_, outcome_bind_of_error hregister _⟩
  | ok router =>
    rw [hregistered] at hregister
    have hstored : router.registrations.getLast?.getD registration =
        { registration with route := s.router.completed registration.route } := by
      obtain ⟨detector, -, rfl⟩ := register_eq_ok hregistered
      simp
    refine .inr ⟨router, s.events ++ [.registered (s.router.completed registration.route)
      router.registrations.length], rfl, ?_⟩
    rw [outcome_bind_of_ok hregister, outcome_modifyRouter_bind]
    dsimp only
    rw [hstored, outcome_report_bind]
    rfl

/-- The path of a route is that with a new layout, or fails in the same way. -/
theorem generateUri_spec {s : RouterState} (h : Coherent s.router s.cache) (name : String) (attributes : Attributes)
    (query : Mapping Json) :
    ∃ generator events, outcome (generateUri name attributes query) s =
        (((freshPath s.router.routes name attributes).mapError RouterError.generate).map fun path =>
          if query.isEmpty then path else path ++ "?" ++ queryText query,
          { s with router := { s.router with generator }, events }) ∧
      Coherent { s.router with generator } s.cache := by
  obtain ⟨generator, hgenerate, hcoherent⟩ := generate_spec h name attributes
  unfold generateUri
  rw [outcome_get_bind]
  dsimp only
  rw [hgenerate, outcome_modifyRouter_bind]
  cases freshPath s.router.routes name attributes with
  | ok path => exact ⟨generator, s.events, rfl, hcoherent⟩
  | error e =>
    dsimp only
    cases e.kind? with
    | none => exact ⟨generator, s.events, rfl, hcoherent⟩
    | some kind => exact ⟨generator, _, rfl, hcoherent⟩

/-- Clearing the cache forgets everything that was remembered. -/
theorem clearCache_spec {s : RouterState} (h : InMemory s.cache) :
    ∃ events, outcome clearCache s = (.ok (), { s with
      router := { s.router with
        matcher := none, loaded := false, stale := false, generator := s.router.generator.clearCache }
      cache := erased s.cache s.router.cacheKey
      events }) := by
  obtain ⟨router, cache, files, before⟩ := s
  unfold clearCache
  rw [outcome_modifyRouter_bind, outcome_get_bind]
  have hdrop : ∀ router, outcome (changeCache fun cache files => cache.erase files router.cacheKey)
      ⟨router, cache, files, before⟩ = (.ok (), ⟨router, erased cache router.cacheKey, files, before⟩) := by
    intro router
    rcases h with rfl | ⟨entries, rfl⟩
    · rfl
    · rfl
  rw [outcome_bind_of_ok (hdrop _), outcome_modifyRouter_bind]
  exact outcome_reportCache _ _

end RouterM

/-! ## What every call keeps -/

/-- **Every call keeps a router coherent**, and leaves its strategy and the size of its chunks. Only registering changes
the routes. -/
theorem coherent_step {s : RouterState} (h : Coherent s.router s.cache) (call : RouterCall) :
    Coherent (s.step call).router (s.step call).cache ∧
      (s.step call).router.strategy = s.router.strategy ∧ (s.step call).router.chunkSize = s.router.chunkSize ∧
      ((∀ registration, call ≠ .addRoute registration) → (s.step call).router.routes = s.router.routes) := by
  cases call with
  | addRoute registration =>
    rcases RouterM.addRoute_spec s registration with ⟨e, hrejected⟩ | ⟨router, events, hrouter, hstored⟩
    · rw [RouterState.step, hrejected]
      exact ⟨h, rfl, rfl, fun _ => rfl⟩
    · rw [RouterState.step, hstored]
      refine ⟨(coherent_register h hrouter).1, ?_⟩
      obtain ⟨detector, -, rfl⟩ := register_eq_ok hrouter
      exact ⟨rfl, rfl, fun hcall => absurd rfl (hcall registration)⟩
  | setTokens tokens =>
    exact ⟨⟨h.memory, h.decodes, h.names, h.detected, h.matcher, h.unloaded, h.entry, h.layouts⟩, rfl, rfl, fun _ => rfl⟩
  | request path method =>
    obtain ⟨t, hmatch, hcoherent, hsame⟩ := RouterM.match'_spec h path method
    rw [RouterState.step, hmatch]
    obtain ⟨hstrategy, hsize, hroutes⟩ := hsame.fields
    exact ⟨hcoherent, hstrategy, hsize, fun _ => hroutes⟩
  | dispatchData =>
    obtain ⟨t, hdata, hcoherent, hsame⟩ := RouterM.dispatchData_spec h
    rw [RouterState.step, hdata]
    obtain ⟨hstrategy, hsize, hroutes⟩ := hsame.fields
    exact ⟨hcoherent, hstrategy, hsize, fun _ => hroutes⟩
  | generateUri name attributes query =>
    obtain ⟨generator, events, hgenerate, hcoherent⟩ := RouterM.generateUri_spec h name attributes query
    rw [RouterState.step, hgenerate]
    exact ⟨hcoherent, rfl, rfl, fun _ => rfl⟩
  | clearCache =>
    obtain ⟨events, hclear⟩ := RouterM.clearCache_spec h.memory
    rw [RouterState.step, hclear]
    refine ⟨{ memory := h.memory.erased _, decodes := h.decodes, names := h.names, detected := h.detected,
              matcher := fun m hm => (by cases hm), unloaded := fun _ => ⟨rfl, heldText_erased _ _⟩, entry := ?_,
              layouts := fun kept hkept => absurd hkept List.not_mem_nil }, rfl, rfl, fun _ => rfl⟩
    intro _ text htext
    rw [heldText_erased] at htext
    cases htext
  | loseEntry =>
    have hlost : (s.step .loseEntry).cache = erased s.cache s.router.cacheKey := by
      rcases h.memory with hcache | ⟨entries, hcache⟩
      · rw [RouterState.step, hcache]
        rfl
      · rw [RouterState.step, hcache]
        rfl
    rw [hlost]
    refine ⟨{ memory := h.memory.erased _, decodes := h.decodes, names := h.names, detected := h.detected,
              matcher := h.matcher, unloaded := fun hloaded => ⟨(h.unloaded hloaded).1, heldText_erased _ _⟩, entry := ?_,
              layouts := h.layouts }, rfl, rfl, fun _ => rfl⟩
    intro _ text htext
    rw [show (s.step .loseEntry).router = s.router from rfl, heldText_erased] at htext
    cases htext

/-- **So does every sequence of calls.** -/
theorem coherent_run {s : RouterState} (h : Coherent s.router s.cache) (calls : List RouterCall) :
    Coherent (s.run calls).router (s.run calls).cache ∧
      (s.run calls).router.strategy = s.router.strategy ∧ (s.run calls).router.chunkSize = s.router.chunkSize := by
  induction calls generalizing s with
  | nil => exact ⟨h, rfl, rfl⟩
  | cons call calls ih =>
    obtain ⟨hstep, hstrategy, hsize, -⟩ := coherent_step h call
    obtain ⟨hrun, hstrategy', hsize'⟩ := ih hstep
    exact ⟨hrun, hstrategy'.trans hstrategy, hsize'.trans hsize⟩

theorem coherent_opened (strategy : String) (size : Int) (key : String) (tokens : Mapping String) (cached : Bool) :
    Coherent (RouterState.opened strategy size key tokens cached).router
      (RouterState.opened strategy size key tokens cached).cache where
  memory := by
    cases cached
    · exact .inl rfl
    · exact .inr ⟨[], rfl⟩
  decodes := by
    intro data hkeyed
    have hdecode : (RouterState.opened strategy size key tokens cached).router.decode = DispatchData.ofText := rfl
    rw [hdecode, ofText_text hkeyed]
  names := List.nodup_nil
  detected := rfl
  matcher := fun m hm => by cases hm
  unloaded := fun _ => ⟨rfl, by cases cached <;> rfl⟩
  entry := fun _ text htext => by cases cached <;> cases htext
  layouts := fun kept hkept => absurd hkept List.not_mem_nil

/-- **A router never answers from stale data.** It is opened without routes and with no cache or an empty one in
memory. After any calls, some of which may have failed, and whenever the cache lost its entry, its data and its answer
to a request are those of a new collector and a new matcher over the routes that are registered, or fail with the same
error. A route that is registered comes behind the others; one that is rejected leaves everything as it was, and no
other call changes the routes. -/
theorem router_answers_fresh (strategy : String) (size : Int) (key : String) (tokens : Mapping String) (cached : Bool)
    (calls : List RouterCall) :
    let state := (RouterState.opened strategy size key tokens cached).run calls
    (RouterM.outcome RouterM.dispatchData state).1 = collectedData strategy size state.router.routes ∧
    (∀ path method, (RouterM.outcome (RouterM.match' path method) state).1 =
      freshMatch strategy size state.router.routes path method) ∧
    (∀ registration, (∃ e, RouterM.outcome (RouterM.addRoute registration) state = (.error e, state)) ∨
      ∃ stored, (RouterM.outcome (RouterM.addRoute registration) state).1 = .ok stored ∧
        stored.route = state.router.completed registration.route ∧
        (state.step (.addRoute registration)).router.routes = state.router.routes ++ [stored.route]) ∧
    ∀ call, (∀ registration, call ≠ .addRoute registration) → (state.step call).router.routes = state.router.routes := by
  intro state
  obtain ⟨hcoherent, hstrategy, hsize⟩ := coherent_run (coherent_opened strategy size key tokens cached) calls
  have hstrategy : state.router.strategy = strategy := hstrategy
  have hsize : state.router.chunkSize = size := hsize
  refine ⟨?_, fun path method => ?_, fun registration => ?_, fun call hcall => ?_⟩
  · obtain ⟨t, hdata, -⟩ := RouterM.dispatchData_spec hcoherent
    rw [hdata, hstrategy, hsize]
  · obtain ⟨t, hmatch, -⟩ := RouterM.match'_spec hcoherent path method
    rw [hmatch, hstrategy, hsize]
  · rcases RouterM.addRoute_spec state registration with ⟨e, hrejected⟩ | ⟨router, events, hrouter, hstored⟩
    · exact .inl ⟨e, hrejected⟩
    · refine .inr ⟨_, congrArg Prod.fst hstored, rfl, ?_⟩
      rw [RouterState.step, hstored]
      exact (coherent_register hcoherent hrouter).2
  · exact (coherent_step hcoherent call).2.2.2 hcall

def pageRegistration (path name : String) : Registration := { route := ⟨path, name, some [.get], [], none, none, none⟩ }

/-- A route that is added after a request is found by the next one, though the entry was lost in between. -/
theorem addedPage_answers :
    let calls := [.addRoute (pageRegistration "/a" "a"), .request "/a" "get", .addRoute (pageRegistration "/\x7bx\x7d" "x"),
      .addRoute (pageRegistration "/b" "a"), .request "/a" "get", .loseEntry]
    let request := RouterM.match' "/b" "get"
    (RouterM.outcome request ((RouterState.opened "mark" 1 "k" [] true).run calls)).1.toOption =
      some { status := .found, method := "GET", path := "/b", route := some "x", attributes := [("x", "b")] } := by
  intro calls request
  have h := (router_answers_fresh "mark" 1 "k" [] true calls).2.1 "/b" "get"
  exact (congrArg Except.toOption h).trans (by decide +kernel)

end UrlRouter
