/-
What an operation of the router does.

An operation answers or fails, and in both cases leaves a state behind. Reports change the events only, so what an
operation does is told by the router and the cache that it leaves.

Results:
- `outcome_bind_of_ok`, `outcome_bind_of_error`: operations one after the other; the first failure ends them.
- `cachedData_spec`: a cache in memory gives what can be read from the entry, and nothing changes.
- `compileRoutes_spec`: compiling gives what a new collector gives, and stores it.
- `match'_of_getMatcher`: a request is answered by the matcher that the router has or makes.
-/
import Mathlib.Tactic
import UrlRouter.Router.Basic
import UrlRouter.Proofs.Except

namespace UrlRouter

/-! ## Operations one after the other -/

namespace RouterM

variable {α β : Type}

/-- the answer of an operation and the state it leaves behind, also when it fails -/
def outcome (operation : RouterM α) (state : RouterState) : Except RouterError α × RouterState :=
  StateT.run operation.run state

theorem outcome_bind (x : RouterM α) (f : α → RouterM β) (s : RouterState) :
    outcome (x >>= f) s = StateT.run (ExceptT.bindCont f (outcome x s).1) (outcome x s).2 := by
  unfold outcome
  rw [ExceptT.run_bind, StateT.run_bind]
  rfl

theorem outcome_bind_of_ok {x : RouterM α} {s t : RouterState} {a : α} (h : outcome x s = (.ok a, t))
    (f : α → RouterM β) : outcome (x >>= f) s = outcome (f a) t := by
  rw [outcome_bind, h]
  rfl

theorem outcome_bind_of_error {x : RouterM α} {s t : RouterState} {e : RouterError} (h : outcome x s = (.error e, t))
    (f : α → RouterM β) : outcome (x >>= f) s = (.error e, t) := by
  rw [outcome_bind, h]
  rfl

theorem outcome_get_bind (f : RouterState → RouterM β) (s : RouterState) :
    outcome (get >>= f) s = outcome (f s) s := rfl

theorem outcome_modifyRouter_bind (change : Router → Router) (f : Unit → RouterM β) (s : RouterState) :
    outcome (modifyRouter change >>= f) s = outcome (f ()) { s with router := change s.router } := rfl

theorem outcome_report_bind (event : RouterEvent) (f : Unit → RouterM β) (s : RouterState) :
    outcome (report event >>= f) s = outcome (f ()) { s with events := s.events ++ [event] } := rfl

theorem outcome_orFail {ε : Type} (wrap : ε → RouterError) (result : Except ε α) (s : RouterState) :
    outcome (orFail wrap result) s = (result.mapError wrap, s) := by
  cases result <;> rfl

/-- Reporting what the cache did changes the events only. -/
theorem outcome_reportCache (event : CacheEvent) (s : RouterState) :
    ∃ events, outcome (reportCache event) s = (.ok (), { s with events }) := by
  unfold reportCache
  rw [outcome_get_bind]
  split_ifs
  · exact ⟨_, rfl⟩
  · exact ⟨s.events, rfl⟩

end RouterM

/-! ## The cache entry of a router -/

/-- no cache, or one in memory -/
def InMemory (cache : Option Cache) : Prop := cache = none ∨ ∃ entries, cache = some (.memory entries)

/-- what the cache holds under a key -/
def heldText (cache : Option Cache) (key : String) : Option String :=
  match cache with
  | some (.memory entries) => entries.lookup key
  | _ => none

/-- the cache with a text stored under a key -/
def stored (cache : Option Cache) (key text : String) : Option Cache :=
  match cache with
  | some (.memory entries) => some (.memory (insertValue key text entries))
  | other => other

/-- the cache without what was under a key -/
def erased (cache : Option Cache) (key : String) : Option Cache :=
  match cache with
  | some (.memory entries) => some (.memory (eraseValue key entries))
  | other => other

theorem InMemory.stored {cache : Option Cache} (h : InMemory cache) (key text : String) :
    InMemory (stored cache key text) := by
  rcases h with rfl | ⟨entries, rfl⟩
  · exact .inl rfl
  · exact .inr ⟨_, rfl⟩

theorem InMemory.erased {cache : Option Cache} (h : InMemory cache) (key : String) : InMemory (erased cache key) := by
  rcases h with rfl | ⟨entries, rfl⟩
  · exact .inl rfl
  · exact .inr ⟨_, rfl⟩

/-- A stored text is what the cache holds, if there is a cache. -/
theorem heldText_stored {cache : Option Cache} (h : InMemory cache) {key text found : String}
    (hfound : heldText (stored cache key text) key = some found) : found = text := by
  rcases h with rfl | ⟨entries, rfl⟩
  · cases hfound
  · have hlookup : (insertValue key text entries).lookup key = some found := hfound
    rw [lookup_insertValue, if_pos rfl] at hlookup
    exact (Option.some.inj hlookup).symm

theorem heldText_erased (cache : Option Cache) (key : String) : heldText (erased cache key) key = none := by
  rcases cache with _ | cache
  · rfl
  cases cache with
  | memory entries => exact (lookup_eraseValue key key entries).trans (if_pos rfl)
  | file folder => rfl
  | remote keyPrefix lifetime store => rfl

/-! ## Compiling routes -/

/-- the data that a new collector makes of the routes -/
def collectedData (strategy : String) (size : Int) (routes : List Route) : Except RouterError DispatchData := do
  let collector ← (Collector.make strategy size).mapError RouterError.collector
  let (collector, result) := collector.addRoutes routes
  result.mapError RouterError.pattern
  return collector.data

/-- the matcher that is made of these data -/
def freshMatcher (strategy : String) (size : Int) (routes : List Route) : Except RouterError Matcher := do
  (Matcher.ofData (← collectedData strategy size routes)).mapError RouterError.matcher

/-- what this matcher answers -/
def freshMatch (strategy : String) (size : Int) (routes : List Route) (path method : String) :
    Except RouterError MatchResult := do
  ((← freshMatcher strategy size routes).match' path method).mapError RouterError.matcher

theorem collectedData_eq_ok {strategy : String} {size : Int} {routes : List Route} {data : DispatchData} :
    collectedData strategy size routes = .ok data ↔ ∃ collector, Collector.make strategy size = .ok collector ∧
      (collector.addRoutes routes).2 = .ok () ∧ (collector.addRoutes routes).1.data = data := by
  constructor
  · intro h
    obtain ⟨collector, hmake, h⟩ := bind_eq_ok.1 h
    obtain ⟨_, hadded, h⟩ := bind_eq_ok.1 h
    exact ⟨collector, mapError_eq_ok.1 hmake, mapError_eq_ok.1 hadded, Except.ok.inj h⟩
  · rintro ⟨collector, hmake, hadded, rfl⟩
    unfold collectedData
    rw [mapError_eq_ok.2 hmake, ok_bind]
    show (collector.addRoutes routes).2.mapError RouterError.pattern >>= _ = _
    rw [mapError_eq_ok.2 hadded]
    rfl

theorem freshMatcher_eq_ok {strategy : String} {size : Int} {routes : List Route} {matcher : Matcher} :
    freshMatcher strategy size routes = .ok matcher ↔ ∃ collector, Collector.make strategy size = .ok collector ∧
      (collector.addRoutes routes).2 = .ok () ∧ Matcher.ofData (collector.addRoutes routes).1.data = .ok matcher := by
  constructor
  · intro h
    obtain ⟨data, hdata, h⟩ := bind_eq_ok.1 h
    obtain ⟨collector, hmake, hadded, rfl⟩ := collectedData_eq_ok.1 hdata
    exact ⟨collector, hmake, hadded, mapError_eq_ok.1 h⟩
  · rintro ⟨collector, hmake, hadded, hmatcher⟩
    rw [freshMatcher, collectedData_eq_ok.2 ⟨collector, hmake, hadded, rfl⟩, ok_bind]
    exact mapError_eq_ok.2 hmatcher

namespace RouterM

/-- Reading a cache that gives an entry gives the data of it, if they can be read, and leaves everything as it was. -/
theorem cachedData_of_get {s : RouterState} {cache : Cache} (hcache : s.cache = some cache) {entry : Option String}
    (hget : cache.get? s.files s.router.cacheKey = .ok entry) :
    ∃ events, outcome cachedData s =
      (.ok (entry.bind fun text => (s.router.decode text).toOption), { s with events }) := by
  obtain ⟨router, cache', files, before⟩ := s
  obtain rfl : cache' = some cache := hcache
  have hread : outcome (orFail .cache (cache.get? files router.cacheKey)) ⟨router, some cache, files, before⟩ =
      (.ok entry, ⟨router, some cache, files, before⟩) := by
    rw [outcome_orFail, hget]
    rfl
  unfold cachedData
  rw [outcome_get_bind]
  dsimp only
  rw [outcome_bind_of_ok hread]
  cases entry with
  | none =>
    obtain ⟨events, hreport⟩ := outcome_reportCache .miss ⟨router, some cache, files, before⟩
    exact ⟨events, outcome_bind_of_ok hreport _⟩
  | some text =>
    dsimp only [Option.bind_some]
    cases router.decode text with
    | ok data =>
      obtain ⟨events, hreport⟩ := outcome_reportCache .hit ⟨router, some cache, files, before⟩
      exact ⟨events, outcome_bind_of_ok hreport _⟩
    | error issues =>
      dsimp only
      rw [outcome_report_bind]
      obtain ⟨events, hreport⟩ := outcome_reportCache .corrupt
        ⟨router, some cache, files, before ++ [.corruptEntry issues.length router.cacheKey]⟩
      exact ⟨events, outcome_bind_of_ok hreport _⟩

/-- **Reading the cache** gives the data of its entry, if they can be read, and leaves everything as it was. -/
theorem cachedData_spec {s : RouterState} (h : InMemory s.cache) :
    ∃ events, outcome cachedData s =
      (.ok ((heldText s.cache s.router.cacheKey).bind fun text => (s.router.decode text).toOption),
        { s with events }) := by
  obtain ⟨router, cache, files, before⟩ := s
  rcases h with rfl | ⟨entries, rfl⟩
  · exact ⟨before, rfl⟩
  · exact @cachedData_of_get ⟨router, some (.memory entries), files, before⟩ _ rfl (entries.lookup router.cacheKey) rfl

/-- Storing data in a cache that takes them leaves what the cache makes of them. -/
theorem storeData_of_insert {s : RouterState} {cache : Cache} (hcache : s.cache = some cache) {data : DispatchData}
    (hinsert : (cache.insert s.files s.router.cacheKey data.text).result = .ok ()) (before : List RouterEvent) :
    ∃ events, outcome (storeData data) { s with events := before } = (.ok (), { s with
      cache := some (cache.insert s.files s.router.cacheKey data.text).cache
      files := (cache.insert s.files s.router.cacheKey data.text).files
      events }) := by
  obtain ⟨router, cache', files, _⟩ := s
  obtain rfl : cache' = some cache := hcache
  dsimp only at hinsert ⊢
  generalize hwritten : cache.insert files router.cacheKey data.text = written at hinsert ⊢
  have hchange : outcome (changeCache fun cache files => cache.insert files router.cacheKey data.text)
      ⟨router, some cache, files, before⟩ = (.ok (), ⟨router, some written.cache, written.files, before⟩) := by
    have hresult := outcome_orFail .cache written.result ⟨router, some written.cache, written.files, before⟩
    rw [hinsert] at hresult
    unfold changeCache
    rw [outcome_get_bind]
    dsimp only
    rw [hwritten, hinsert]
    exact hresult
  have hstore : ∃ events, outcome (storeText router.cacheKey data.text) ⟨router, some cache, files, before⟩ =
      (.ok (), ⟨router, some written.cache, written.files, events⟩) := by
    unfold storeText
    rw [outcome_bind_of_ok hchange, outcome_get_bind]
    dsimp only
    split
    · exact ⟨_, rfl⟩
    · exact ⟨before, rfl⟩
  obtain ⟨events, hstore⟩ := hstore
  obtain ⟨events', hreport⟩ := outcome_reportCache .write ⟨router, some written.cache, written.files, events⟩
  refine ⟨events', ?_⟩
  unfold storeData
  rw [outcome_get_bind, if_pos (by rfl), outcome_bind_of_ok hstore]
  exact hreport

/-- **Storing data** puts their text into the cache, if there is one. -/
theorem storeData_spec {s : RouterState} (h : InMemory s.cache) (data : DispatchData) (before : List RouterEvent) :
    ∃ events, outcome (storeData data) { s with events := before } =
      (.ok (), { s with cache := stored s.cache s.router.cacheKey data.text, events }) := by
  obtain ⟨router, cache, files, _⟩ := s
  rcases h with rfl | ⟨entries, rfl⟩
  · exact ⟨before, rfl⟩
  · exact @storeData_of_insert ⟨router, some (.memory entries), files, before⟩ _ rfl data rfl before

/-- **Compiling routes** gives what a new collector gives, and stores it when there is something to store. -/
theorem compileRoutes_spec {s : RouterState} {cache : DispatchData → Option Cache}
    {files : DispatchData → FileTree} (hstore : ∀ data before, ∃ events,
      outcome (storeData data) { s with events := before } =
        (.ok (), { s with cache := cache data, files := files data, events })) :
    (∃ data events, collectedData s.router.strategy s.router.chunkSize s.router.routes = .ok data ∧
      outcome compileRoutes s = (.ok data, { s with
        router := { s.router with stale := false }
        cache := cache data
        files := files data
        events })) ∨
    ∃ e, collectedData s.router.strategy s.router.chunkSize s.router.routes = .error e ∧
      outcome compileRoutes s = (.error e, s) := by
  unfold collectedData compileRoutes
  rw [outcome_get_bind]
  dsimp only
  have hmake := outcome_orFail .collector (Collector.make s.router.strategy s.router.chunkSize) s
  cases hcollector : (Collector.make s.router.strategy s.router.chunkSize).mapError RouterError.collector with
  | error e =>
    rw [hcollector] at hmake
    exact .inr ⟨e, rfl, outcome_bind_of_error hmake _⟩
  | ok collector =>
    rw [hcollector] at hmake
    rw [outcome_bind_of_ok hmake, ok_bind]
    generalize collector.addRoutes s.router.routes = added
    obtain ⟨after, result⟩ := added
    have hresult := outcome_orFail .pattern result s
    dsimp only
    cases hadded : result.mapError RouterError.pattern with
    | error e =>
      rw [hadded] at hresult
      exact .inr ⟨e, rfl, outcome_bind_of_error hresult _⟩
    | ok u =>
      rw [hadded] at hresult
      rw [outcome_bind_of_ok hresult, outcome_report_bind]
      obtain ⟨events, hstored⟩ := hstore after.data (s.events ++ [.collected after.seen.length after.data.chunkCount
        after.data.strategy (after.data.groups.map (·.1))])
      refine .inl ⟨after.data, events, rfl, ?_⟩
      rw [outcome_bind_of_ok hstored, outcome_modifyRouter_bind]
      rfl

/-! ## Dispatch data -/

/-- Data that can be read from the cache are taken from there, if they are not stale. -/
theorem dispatchData_of_hit {s : RouterState} (hstale : s.router.stale = false) {data : DispatchData}
    {events : List RouterEvent} (h : outcome cachedData s = (.ok (some data), { s with events })) :
    ∃ events, outcome dispatchData s =
      (.ok data, { s with router := { s.router with loaded := true }, events }) := by
  unfold dispatchData
  rw [outcome_get_bind]
  dsimp only
  rw [if_neg (by simp [hstale]), outcome_bind_of_ok h]
  exact ⟨_, rfl⟩

/-- Otherwise the routes are compiled and stored. -/
theorem dispatchData_of_miss {s : RouterState}
    (hmiss : s.router.stale = true ∨ ∃ events, outcome cachedData s = (.ok none, { s with events }))
    {cache : DispatchData → Option Cache} {files : DispatchData → FileTree}
    (hstore : ∀ data before, ∃ events, outcome (storeData data) { s with events := before } =
      (.ok (), { s with cache := cache data, files := files data, events })) :
    (∃ data events, collectedData s.router.strategy s.router.chunkSize s.router.routes = .ok data ∧
      outcome dispatchData s = (.ok data, { s with
        router := { s.router with stale := false, loaded := true }
        cache := cache data
        files := files data
        events })) ∨
    ∃ e events, collectedData s.router.strategy s.router.chunkSize s.router.routes = .error e ∧
      outcome dispatchData s = (.error e, { s with events }) := by
  have hcompile : ∃ before, outcome dispatchData s = outcome (do
      let data ← compileRoutes
      modifyRouter fun router => { router with loaded := true }
      report (.compiled data.routeCount data.chunkCount data.strategy false)
      return data) { s with events := before } := by
    unfold dispatchData
    rw [outcome_get_bind]
    dsimp only
    by_cases hstale : s.router.stale = true
    · rw [if_pos hstale]
      exact ⟨s.events, rfl⟩
    · obtain ⟨events, hcached⟩ := hmiss.resolve_left hstale
      rw [if_neg hstale, outcome_bind_of_ok hcached]
      exact ⟨events, rfl⟩
  obtain ⟨before, hcompile⟩ := hcompile
  rw [hcompile]
  rcases @compileRoutes_spec { s with events := before } _ _ hstore with
    ⟨data, events, hdata, hcompiled⟩ | ⟨e, hdata, hcompiled⟩
  · rw [outcome_bind_of_ok hcompiled, outcome_modifyRouter_bind, outcome_report_bind]
    exact .inl ⟨data, _, hdata, rfl⟩
  · rw [outcome_bind_of_error hcompiled]
    exact .inr ⟨e, before, hdata, rfl⟩

/-! ## Requests and written paths -/

theorem getMatcher_of_some {s : RouterState} {matcher : Matcher} (h : s.router.matcher = some matcher) :
    outcome getMatcher s = (.ok matcher, s) := by
  rw [getMatcher, outcome_get_bind, h]
  rfl

/-- A router without a matcher makes one of the data that it gets, and remembers it. -/
theorem getMatcher_of_dispatchData {s t : RouterState} (hnone : s.router.matcher = none)
    {result : Except RouterError DispatchData} (h : outcome dispatchData s = (result, t)) :
    (∃ e, (result >>= fun data => (Matcher.ofData data).mapError RouterError.matcher) = .error e ∧
      outcome getMatcher s = (.error e, t)) ∨
    ∃ matcher, (result >>= fun data => (Matcher.ofData data).mapError RouterError.matcher) = .ok matcher ∧
      outcome getMatcher s = (.ok matcher, { t with router := { t.router with matcher := some matcher } }) := by
  unfold getMatcher
  rw [outcome_get_bind, hnone]
  dsimp only
  cases result with
  | error e => exact .inl ⟨e, rfl, outcome_bind_of_error h _⟩
  | ok data =>
    rw [outcome_bind_of_ok h, ok_bind]
    have hmade := outcome_orFail .matcher (Matcher.ofData data) t
    cases hmatcher : (Matcher.ofData data).mapError RouterError.matcher with
    | error e =>
      rw [hmatcher] at hmade
      exact .inl ⟨e, rfl, outcome_bind_of_error hmade _⟩
    | ok matcher =>
      rw [hmatcher] at hmade
      rw [outcome_bind_of_ok hmade, outcome_modifyRouter_bind]
      exact .inr ⟨matcher, rfl, rfl⟩

/-- A request changes the router as asking for the matcher does. -/
theorem match'_of_getMatcher {s t : RouterState} {result : Except RouterError Matcher}
    (h : outcome getMatcher s = (result, t)) (path method : String) : ∃ events, outcome (match' path method) s =
      (result.bind fun matcher => (matcher.match' path method).mapError RouterError.matcher, { t with events }) := by
  unfold match'
  cases result with
  | error e => exact ⟨t.events, outcome_bind_of_error h _⟩
  | ok matcher =>
    rw [outcome_bind_of_ok h]
    have hresult := outcome_orFail .matcher (matcher.match' path method) t
    show ∃ events, _ = ((matcher.match' path method).mapError RouterError.matcher, _)
    cases hfound : (matcher.match' path method).mapError RouterError.matcher with
    | error e =>
      rw [hfound] at hresult
      exact ⟨t.events, outcome_bind_of_error hresult _⟩
    | ok result =>
      rw [hfound] at hresult
      rw [outcome_bind_of_ok hresult]
      dsimp only
      split_ifs
      · exact ⟨_, rfl⟩
      · exact ⟨_, rfl⟩

/-- Writing a path changes nothing but the layouts that are remembered. -/
theorem generateUri_keeps (s : RouterState) (name : String) (attributes : Attributes) (query : Mapping Json) :
    ∃ result generator events, outcome (generateUri name attributes query) s =
      (result, { s with router := { s.router with generator }, events }) := by
  unfold generateUri
  rw [outcome_get_bind]
  dsimp only
  generalize s.router.generator.generate (s.router.routes.map fun route => (route.name, route)) name attributes = written
  obtain ⟨result, generator⟩ := written
  rw [outcome_modifyRouter_bind]
  cases result with
  | ok path => exact ⟨_, generator, s.events, rfl⟩
  | error e =>
    dsimp only
    cases e.kind? with
    | none => exact ⟨_, generator, s.events, rfl⟩
    | some kind => exact ⟨_, generator, _, rfl⟩

end RouterM

end UrlRouter
