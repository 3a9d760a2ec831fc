/-
Routers that share one cache.

Each of several routers writes its compiled routes under the same key, reads what the others wrote there, and drops the
entry when it is cleared. A router that has answered a request and got another route since then does not depend on the
entry any more: it holds a matcher of its own routes, or knows that its data are stale and compiles them anew.

`Owning` says this of one router, whatever the shared cache holds. The router's own calls keep it, except clearing the
cache and asking for the data alone, which leaves a router without a matcher and with an entry that others may replace.

Results:
- `step_sound`, `run_sound`: what every call of every router keeps.
- `run_keeps`: what each call keeps of the router it is made on, a run keeps of every router.
- `step_owning`, `run_owning`: a router that owns its data keeps owning them.
- `own_routes_answered`: from then on it answers from its own routes, whatever the others do.
-/
import Mathlib.Tactic
import UrlRouter.Proofs.Router.Coherence

namespace UrlRouter

/-! ## What a router knows of its compiled routes -/

/-- A router with a matcher has compiled or loaded data since it was cleared. -/
def Router.Remembers (router : Router) : Prop := router.matcher.isSome = true → router.loaded = true

/-- what a call keeps that does not clear the cache -/
structure Router.Advances (before after : Router) : Prop where
  loaded : before.loaded = true → after.loaded = true
  remembers : before.Remembers → after.Remembers

/-- The registered routes can be compiled. -/
def Router.Compiles (router : Router) : Prop :=
  (freshMatcher router.strategy router.chunkSize router.routes).toOption.isSome = true

instance : DecidablePred Router.Compiles := fun _ => inferInstanceAs (Decidable (_ = true))

/-- A router that does not need the cache: its matcher is one of its own routes, or it will make one. -/
structure Router.Owning (router : Router) : Prop where
  loaded : router.loaded = true
  matcher : ∀ matcher, router.matcher = some matcher →
    freshMatcher router.strategy router.chunkSize router.routes = .ok matcher
  stale : router.matcher = none → router.stale = true

namespace RouterM

variable {s : RouterState}

/-- The data come from the cache, if they are not stale, or from the routes. -/
theorem dispatchData_cases (h : InMemory s.cache) : ∃ cache events, InMemory cache ∧
    ((∃ data, s.router.stale = false ∧ outcome dispatchData s =
        (.ok data, { s with router := { s.router with loaded := true }, cache, events })) ∨
    (∃ data, collectedData s.router.strategy s.router.chunkSize s.router.routes = .ok data ∧ outcome dispatchData s =
        (.ok data, { s with router := { s.router with stale := false, loaded := true }, cache, events })) ∨
    ∃ e, collectedData s.router.strategy s.router.chunkSize s.router.routes = .error e ∧
      outcome dispatchData s = (.error e, { s with cache, events })) := by
  by_cases hmiss : s.router.stale = true ∨ ∃ events, outcome cachedData s = (.ok none, { s with events })
  · rcases dispatchData_of_miss hmiss (storeData_spec h) with ⟨data, events, hdata, houtcome⟩ | ⟨e, events, hdata, houtcome⟩
    · exact ⟨_, events, h.stored _ _, .inr (.inl ⟨data, hdata, houtcome⟩)⟩
    · exact ⟨s.cache, events, h, .inr (.inr ⟨e, hdata, houtcome⟩)⟩
  · obtain ⟨hstale, hcached⟩ := not_or.1 hmiss
    rw [Bool.not_eq_true] at hstale
    obtain ⟨events, hread⟩ := cachedData_spec h
    cases hentry : (heldText s.cache s.router.cacheKey).bind fun text => (s.router.decode text).toOption with
    | none =>
      rw [hentry] at hread
      exact absurd ⟨events, hread⟩ hcached
    | some data =>
      rw [hentry] at hread
      obtain ⟨events', houtcome⟩ := dispatchData_of_hit hstale hread
      exact ⟨s.cache, events', h, .inl ⟨data, hstale, houtcome⟩⟩

/-- Asking for the data keeps what is known, and afterwards it is known that there were some. -/
theorem dispatchData_advances (h : InMemory s.cache) : ∃ result t, outcome dispatchData s = (result, t) ∧
    InMemory t.cache ∧ s.router.Advances t.router ∧ (∀ data, result = .ok data → t.router.loaded = true) := by
  obtain ⟨cache, events, hcache, ⟨data, -, hdata⟩ | ⟨data, -, hdata⟩ | ⟨e, -, hdata⟩⟩ := dispatchData_cases h
  · exact ⟨_, _, hdata, hcache, ⟨fun _ => rfl, fun _ _ => rfl⟩, fun _ _ => rfl⟩
  · exact ⟨_, _, hdata, hcache, ⟨fun _ => rfl, fun _ _ => rfl⟩, fun _ _ => rfl⟩
  · exact ⟨_, _, hdata, hcache, ⟨id, id⟩, fun _ hok => by cases hok⟩

/-- So does asking for the matcher; who gets one has it. -/
theorem getMatcher_advances (h : InMemory s.cache) : ∃ result t, outcome getMatcher s = (result, t) ∧
    InMemory t.cache ∧ s.router.Advances t.router ∧ (∀ matcher, result = .ok matcher → t.router.matcher = some matcher) := by
  cases hmatcher : s.router.matcher with
  | some matcher =>
    exact ⟨.ok matcher, s, getMatcher_of_some hmatcher, h, ⟨id, id⟩, fun _ hok => by cases hok; exact hmatcher⟩
  | none =>
    obtain ⟨result, t, hdata, hcache, hadvances, hloaded⟩ := dispatchData_advances h
    rcases getMatcher_of_dispatchData hmatcher hdata with ⟨e, -, houtcome⟩ | ⟨matcher, hmade, houtcome⟩
    · exact ⟨.error e, t, houtcome, hcache, hadvances, fun _ hok => by cases hok⟩
    · obtain ⟨data, rfl, -⟩ := bind_eq_ok.1 hmade
      refine ⟨.ok matcher, _, houtcome, hcache, ⟨hadvances.loaded, fun _ _ => hloaded data rfl⟩, ?_⟩
      rintro _ ⟨⟩
      rfl

/-- A router that owns its data answers from its own routes, and still owns them afterwards. -/
theorem getMatcher_owning (h : InMemory s.cache) (howning : s.router.Owning) (hcompiles : s.router.Compiles) :
    ∃ t, outcome getMatcher s = (freshMatcher s.router.strategy s.router.chunkSize s.router.routes, t) ∧
      t.router.Owning := by
  obtain ⟨fresh, hfresh⟩ := exists_of_isSome hcompiles
  rw [hfresh]
  cases hmatcher : s.router.matcher with
  | some matcher =>
    obtain rfl : matcher = fresh := Except.ok.inj ((howning.matcher matcher hmatcher).symm.trans hfresh)
    exact ⟨s, getMatcher_of_some hmatcher, howning⟩
  | none =>
    have hstale := howning.stale hmatcher
    obtain ⟨data, hcollected, hmade⟩ := bind_eq_ok.1 hfresh
    -- stale data are never read from the cache
    obtain ⟨cache, events, -, ⟨_, hnot, -⟩ | ⟨data', hdata', hdispatch⟩ | ⟨e, herror, -⟩⟩ := dispatchData_cases h
    · rw [hstale] at hnot
      cases hnot
    · obtain rfl : data' = data := Except.ok.inj (hdata'.symm.trans hcollected)
      rcases getMatcher_of_dispatchData hmatcher hdispatch with ⟨e, herror, -⟩ | ⟨matcher, hmatched, houtcome⟩
      · rw [ok_bind, hmade] at herror
        cases herror
      · rw [ok_bind, hmade] at hmatched
        cases hmatched
        refine ⟨_, houtcome, rfl, ?_, fun hnone => by cases hnone⟩
        rintro _ ⟨⟩
        exact hfresh
    · rw [hcollected] at herror
      cases herror

end RouterM

/-! ## One call of one router -/

/-- **Every call of a router** keeps the cache in memory and, unless it clears the router, what the router knows. -/
theorem step_advances {s : RouterState} (h : InMemory s.cache) (call : RouterCall) :
    InMemory (s.step call).cache ∧ (s.router.Remembers → (s.step call).router.Remembers) ∧
      (call ≠ .clearCache → s.router.loaded = true → (s.step call).router.loaded = true) := by
  cases call with
  | addRoute registration =>
    rcases RouterM.addRoute_spec s registration with ⟨e, hrejected⟩ | ⟨router, events, hrouter, hstored⟩
    · rw [RouterState.step, hrejected]
      exact ⟨h, id, fun _ => id⟩
    · rw [RouterState.step, hstored]
      obtain ⟨detector, -, rfl⟩ := register_eq_ok hrouter
      exact ⟨h, fun _ hsome => (by cases hsome), fun _ => id⟩
  | setTokens tokens => exact ⟨h, id, fun _ => id⟩
  | request path method =>
    obtain ⟨result, t, hmatcher, hcache, hadvances, -⟩ := RouterM.getMatcher_advances h
    obtain ⟨events, hmatch⟩ := RouterM.match'_of_getMatcher hmatcher path method
    rw [RouterState.step, hmatch]
    exact ⟨hcache, hadvances.remembers, fun _ => hadvances.loaded⟩
  | dispatchData =>
    obtain ⟨result, t, hdata, hcache, hadvances, -⟩ := RouterM.dispatchData_advances h
    rw [RouterState.step, hdata]
    exact ⟨hcache, hadvances.remembers, fun _ => hadvances.loaded⟩
  | generateUri name attributes query =>
    obtain ⟨result, generator, events, hwritten⟩ := RouterM.generateUri_keeps s name attributes query
    rw [RouterState.step, hwritten]
    exact ⟨h, id, fun _ => id⟩
  | clearCache =>
    obtain ⟨events, hclear⟩ := RouterM.clearCache_spec h
    rw [RouterState.step, hclear]
    exact ⟨h.erased _, fun _ hsome => (by cases hsome), fun hcall => absurd rfl hcall⟩
  | loseEntry =>
    refine ⟨?_, id, fun _ => id⟩
    rcases h with hcache | ⟨entries, hcache⟩
    · exact .inl (by rw [RouterState.step, hcache]; rfl)
    · exact .inr ⟨_, by rw [RouterState.step, hcache]; rfl⟩

/-- A router that has data and gets another route owns its data from then on. -/
theorem owning_of_addRoute {s : RouterState} (hloaded : s.router.loaded = true) {registration : Registration}
    {stored : Registration} (h : (RouterM.outcome (RouterM.addRoute registration) s).1 = .ok stored) :
    (s.step (.addRoute registration)).router.Owning := by
  rcases RouterM.addRoute_spec s registration with ⟨e, hrejected⟩ | ⟨router, events, hrouter, hstored⟩
  · rw [hrejected] at h
    cases h
  · rw [RouterState.step, hstored]
    obtain ⟨detector, -, rfl⟩ := register_eq_ok hrouter
    exact ⟨hloaded, fun _ hsome => (by cases hsome), fun _ => by simp [hloaded]⟩

/-- **A router that owns its data keeps owning them** through each of its calls but two, if its routes compile. -/
theorem step_owning {s : RouterState} (h : InMemory s.cache) (howning : s.router.Owning)
    (hcompiles : s.router.Compiles) {call : RouterCall} (hclear : call ≠ .clearCache) (hdata : call ≠ .dispatchData) :
    (s.step call).router.Owning := by
  cases call with
  | addRoute registration =>
    rcases RouterM.addRoute_spec s registration with ⟨e, hrejected⟩ | ⟨router, events, -, hstored⟩
    · rw [RouterState.step, hrejected]
      exact howning
    · exact owning_of_addRoute howning.loaded (congrArg Prod.fst hstored)
  | setTokens tokens => exact ⟨howning.loaded, howning.matcher, howning.stale⟩
  | request path method =>
    obtain ⟨t, hmatcher, ht⟩ := RouterM.getMatcher_owning h howning hcompiles
    obtain ⟨events, hmatch⟩ := RouterM.match'_of_getMatcher hmatcher path method
    rw [RouterState.step, hmatch]
    exact ht
  | dispatchData => exact absurd rfl hdata
  | generateUri name attributes query =>
    obtain ⟨result, generator, events, hwritten⟩ := RouterM.generateUri_keeps s name attributes query
    rw [RouterState.step, hwritten]
    exact ⟨howning.loaded, howning.matcher, howning.stale⟩
  | clearCache => exact absurd rfl hclear
  | loseEntry => exact howning

/-! ## Several routers -/

/-- how a router is made -/
structure RouterSettings where
  strategy : String
  chunkSize : Int
  tokens : Mapping String := []

/-- routers at work on one cache -/
structure Fleet where
  routers : List Router
  cache : Option Cache
  files : FileTree := {}
  events : List RouterEvent := []

namespace Fleet

/-- Routers as they are made, without routes, around a cache in memory that may hold anything. -/
def opened (key : String) (entries : Mapping String) (settings : List RouterSettings) : Fleet where
  routers := settings.map fun made =>
    { strategy := made.strategy, chunkSize := made.chunkSize, cacheKey := key, tokens := made.tokens }
  cache := some (.memory entries)

/-- what one of the routers works on -/
def stateOf (fleet : Fleet) (router : Router) : RouterState := ⟨router, fleet.cache, fleet.files, fleet.events⟩

/-- the answer of the `i`th router to an operation, if there is such a router -/
def answer? {α : Type} (fleet : Fleet) (i : Nat) (operation : RouterM α) : Option (Except RouterError α) :=
  (fleet.routers[i]?).map fun router => (RouterM.outcome operation (fleet.stateOf router)).1

/-- A call of one router. The others see of it only what it leaves in the cache. -/
def step (fleet : Fleet) (call : Nat × RouterCall) : Fleet :=
  match fleet.routers[call.1]? with
  | none => fleet
  | some router =>
    let after := (fleet.stateOf router).step call.2
    { routers := fleet.routers.set call.1 after.router
      cache := after.cache, files := after.files, events := after.events }

/-- an operation of the `i`th router that does not fail -/
def Completes {α : Type} (fleet : Fleet) (i : Nat) (operation : RouterM α) : Prop :=
  ((fleet.answer? i operation).bind Except.toOption).isSome = true

instance {α : Type} (fleet : Fleet) (i : Nat) (operation : RouterM α) : Decidable (fleet.Completes i operation) :=
  inferInstanceAs (Decidable (_ = true))

/-- the calls of all routers in the order in which they happen -/
def run (fleet : Fleet) (calls : List (Nat × RouterCall)) : Fleet := calls.foldl step fleet

/-- what every call of every router keeps -/
structure Sound (fleet : Fleet) : Prop where
  memory : InMemory fleet.cache
  remembers : ∀ router ∈ fleet.routers, router.Remembers

end Fleet

variable {fleet : Fleet}

/-- A call changes the router that makes it, and no other. -/
theorem routers_step (fleet : Fleet) (call : Nat × RouterCall) (i : Nat) : (fleet.step call).routers[i]? =
    if call.1 = i then (fleet.routers[i]?).map fun router => ((fleet.stateOf router).step call.2).router
    else fleet.routers[i]? := by
  unfold Fleet.step
  cases hrouter : fleet.routers[call.1]? with
  | none =>
    split_ifs with hi
    · subst hi
      rw [hrouter]
      rfl
    · rfl
  | some router =>
    dsimp only
    rw [List.getElem?_set]
    split_ifs with hi hlength
    · subst hi
      rw [hrouter]
      rfl
    · subst hi
      rw [List.getElem?_eq_none (by omega)] at hrouter
      cases hrouter
    · rfl

/-- Who completes an operation is one of the routers. -/
theorem exists_of_completes {α : Type} {i : Nat} {operation : RouterM α} (h : fleet.Completes i operation) :
    ∃ router, fleet.routers[i]? = some router ∧
      ∃ value, (RouterM.outcome operation (fleet.stateOf router)).1 = .ok value := by
  obtain ⟨value, hvalue⟩ := Option.isSome_iff_exists.1 h
  obtain ⟨result, hanswer, hresult⟩ := Option.bind_eq_some_iff.1 hvalue
  obtain ⟨router, hrouter, rfl⟩ := Option.map_eq_some_iff.1 hanswer
  exact ⟨router, hrouter, value, toOption_eq_some.1 hresult⟩

theorem sound_fleetOpened (key : String) (entries : Mapping String) (settings : List RouterSettings) :
    (Fleet.opened key entries settings).Sound := by
  refine ⟨.inr ⟨entries, rfl⟩, fun router hrouter hsome => ?_⟩
  obtain ⟨made, -, rfl⟩ := List.mem_map.1 hrouter
  cases hsome

theorem step_sound (h : fleet.Sound) (call : Nat × RouterCall) : (fleet.step call).Sound := by
  unfold Fleet.step
  cases hrouter : fleet.routers[call.1]? with
  | none => exact h
  | some router =>
    have hmem : router ∈ fleet.routers := List.mem_of_getElem? hrouter
    obtain ⟨hmemory, hremembers, -⟩ := @step_advances (fleet.stateOf router) h.memory call.2
    refine ⟨hmemory, fun other hother => ?_⟩
    rcases List.mem_or_eq_of_mem_set hother with hother | rfl
    · exact h.remembers other hother
    · exact hremembers (h.remembers router hmem)

theorem run_sound (h : fleet.Sound) (calls : List (Nat × RouterCall)) : (fleet.run calls).Sound := by
  induction calls generalizing fleet with
  | nil => exact h
  | cons call calls ih => exact ih (step_sound h call)

/-- What a router's own calls keep of it stays, whatever the others do. -/
theorem run_keeps {P : Router → Prop} {i : Nat} {calls : List (Nat × RouterCall)}
    (hkeeps : ∀ earlier call, earlier ++ [(i, call)] <+: calls → ∀ router,
      (fleet.run earlier).routers[i]? = some router → P router → P (((fleet.run earlier).stateOf router).step call).router)
    {router : Router} (hrouter : fleet.routers[i]? = some router) (hP : P router) :
    ∃ after, (fleet.run calls).routers[i]? = some after ∧ P after := by
  induction calls generalizing fleet router with
  | nil => exact ⟨router, hrouter, hP⟩
  | cons call calls ih =>
    have hlater : ∀ earlier other, earlier ++ [(i, other)] <+: calls → ∀ router,
        ((fleet.step call).run earlier).routers[i]? = some router → P router →
          P ((((fleet.step call).run earlier).stateOf router).step other).router := fun earlier other hearlier =>
      hkeeps (call :: earlier) other (List.cons_prefix_cons.2 ⟨rfl, hearlier⟩)
    have hafter := routers_step fleet call i
    rw [hrouter] at hafter
    split_ifs at hafter with hi
    · subst hi
      exact ih hlater hafter (hkeeps [] call.2 (List.cons_prefix_cons.2 ⟨rfl, List.nil_prefix⟩) router hrouter hP)
    · exact ih hlater hafter hP

/-- A router that has data keeps having some until it is cleared. -/
theorem run_loaded (h : fleet.Sound) {i : Nat} {router : Router} (hrouter : fleet.routers[i]? = some router)
    (hloaded : router.loaded = true) {calls : List (Nat × RouterCall)} (hclear : (i, .clearCache) ∉ calls) :
    ∃ after, (fleet.run calls).routers[i]? = some after ∧ after.loaded = true := by
  refine @run_keeps fleet (fun router => router.loaded = true) i calls ?_ router hrouter hloaded
  intro earlier call hearlier before _ hbefore
  have hcall : call ≠ .clearCache := by
    rintro rfl
    exact hclear (hearlier.subset (by simp))
  exact (@step_advances ((fleet.run earlier).stateOf before) (run_sound h earlier).memory call).2.2 hcall hbefore

/-- **A router that owns its data keeps owning them**, whatever the others do, while its routes compile and it neither
is cleared nor asked for the data alone. -/
theorem run_owning (h : fleet.Sound) {i : Nat} {router : Router} (hrouter : fleet.routers[i]? = some router)
    (howning : router.Owning) {calls : List (Nat × RouterCall)} (hclear : (i, .clearCache) ∉ calls)
    (hdata : (i, .dispatchData) ∉ calls)
    (hcompiles : ∀ earlier, earlier <+: calls →
      ∀ router, (fleet.run earlier).routers[i]? = some router → router.Compiles) :
    ∃ after, (fleet.run calls).routers[i]? = some after ∧ after.Owning := by
  refine @run_keeps fleet Router.Owning i calls ?_ router hrouter howning
  intro earlier call hearlier before hbefore hown
  have hnow := hcompiles earlier ((List.prefix_append _ _).trans hearlier) before hbefore
  refine @step_owning ((fleet.run earlier).stateOf before) (run_sound h earlier).memory hown hnow call ?_ ?_
  · rintro rfl
    exact hclear (hearlier.subset (by simp))
  · rintro rfl
    exact hdata (hearlier.subset (by simp))

/-- A router that has answered a request has data. -/
theorem loaded_of_match (h : fleet.Sound) {i : Nat} {path method : String}
    (hmatched : fleet.Completes i (RouterM.match' path method)) :
    ∃ router, (fleet.step (i, .request path method)).routers[i]? = some router ∧ router.loaded = true := by
  obtain ⟨router, hrouter, answered, hanswered⟩ := exists_of_completes hmatched
  have hremembers := h.remembers router (List.mem_of_getElem? hrouter)
  obtain ⟨result, t, hmatcher, -, hadvances, hheld⟩ := @RouterM.getMatcher_advances (fleet.stateOf router) h.memory
  obtain ⟨events, hmatch⟩ := RouterM.match'_of_getMatcher hmatcher path method
  rw [hmatch] at hanswered
  obtain ⟨matcher, rfl, -⟩ := bind_eq_ok.1 hanswered
  refine ⟨t.router, ?_, hadvances.remembers hremembers (by rw [hheld matcher rfl]; rfl)⟩
  rw [routers_step, if_pos rfl, hrouter, Option.map_some, RouterState.step, hmatch]

/-- **A router answers from its own routes**, also among others that write to its cache entry and drop it. Routers of
any settings are opened around one cache in memory that may hold anything. Somewhere in their calls the `i`th router
completes a request, and later it accepts a route without having been cleared. From then on, as long as its routes
compile and it is not cleared, its answer to every request is that of a new matcher over its own routes. -/
theorem own_routes_answered (key : String) (entries : Mapping String) (settings : List RouterSettings)
    (before between after : List (Nat × RouterCall)) (i : Nat) (path method : String) (registration : Registration) :
    let opened := Fleet.opened key entries settings
    let matched := (opened.run before).step (i, .request path method)
    let added := (matched.run between).step (i, .addRoute registration)
    (opened.run before).Completes i (RouterM.match' path method) →
    (matched.run between).Completes i (RouterM.addRoute registration) →
    (i, .clearCache) ∉ between ++ after → (i, .dispatchData) ∉ after →
    (∀ earlier, earlier <+: after → ∀ router, (added.run earlier).routers[i]? = some router → router.Compiles) →
    ∃ router, (added.run after).routers[i]? = some router ∧ ∀ path method,
      (added.run after).answer? i (RouterM.match' path method) =
        some (freshMatch router.strategy router.chunkSize router.routes path method) := by
  intro opened matched added hmatched hadded hclear hdata hcompiles
  have hopened : (opened.run before).Sound := run_sound (sound_fleetOpened key entries settings) before
  have hsound : (matched.run between).Sound := run_sound (step_sound hopened _) between
  -- it has data from its first answer on, and owns them from the new route on
  obtain ⟨first, hfirst, hloaded⟩ := loaded_of_match hopened hmatched
  obtain ⟨router, hrouter, hloaded⟩ :=
    run_loaded (step_sound hopened _) hfirst hloaded fun hmem => hclear (List.mem_append_left _ hmem)
  obtain ⟨router', hrouter', stored, hstored⟩ := exists_of_completes hadded
  obtain rfl : router = router' := Option.some.inj (hrouter.symm.trans hrouter')
  have hnow : added.routers[i]? =
      some (((matched.run between).stateOf router).step (.addRoute registration)).router := by
    rw [routers_step, if_pos rfl, hrouter]
    rfl
  obtain ⟨last, hlast, howning⟩ := run_owning (step_sound hsound _) hnow (owning_of_addRoute hloaded hstored)
    (fun hmem => hclear (List.mem_append_right _ hmem)) hdata hcompiles
  refine ⟨last, hlast, fun path method => ?_⟩
  have hmemory : InMemory ((added.run after).stateOf last).cache := (run_sound (step_sound hsound _) after).memory
  obtain ⟨t, hmatcher, -⟩ :=
    RouterM.getMatcher_owning hmemory howning (hcompiles after (List.prefix_refl after) last hlast)
  obtain ⟨events, hanswer⟩ := RouterM.match'_of_getMatcher hmatcher path method
  rw [Fleet.answer?, hlast, Option.map_some, hanswer]
  rfl

/-- The second router empties the shared entry and fills it with its own routes, and the first still finds the page that
it got after its first answer. -/
theorem sharedPages_answer :
    let after : List (Nat × RouterCall) := [(1, .clearCache), (1, .request "/z" "get")]
    let fleet := ((((Fleet.opened "k" [("k", "spoiled")] [⟨"mark", 1, []⟩, ⟨"named", 15, []⟩]).run
      [(0, .addRoute (pageRegistration "/a" "a")), (1, .addRoute (pageRegistration "/z" "z"))]).step
      (0, .request "/a" "get")).step (0, .addRoute (pageRegistration "/\x7bx\x7d" "x"))).run after
    let request := RouterM.match' "/z" "get"
    (fleet.answer? 0 request).bind Except.toOption =
      some { status := .found, method := "GET", path := "/z", route := some "x", attributes := [("x", "z")] } := by
  intro after fleet request
  have hcompiles : ∀ earlier ∈ after.inits, ∀ router ∈ (((((Fleet.opened "k" [("k", "spoiled")]
      [⟨"mark", 1, []⟩, ⟨"named", 15, []⟩]).run
      [(0, .addRoute (pageRegistration "/a" "a")), (1, .addRoute (pageRegistration "/z" "z"))]).step
      (0, .request "/a" "get")).step (0, .addRoute (pageRegistration "/\x7bx\x7d" "x"))).run earlier).routers[0]?,
      router.Compiles := by decide +kernel
  obtain ⟨router, hrouter, hanswer⟩ := own_routes_answered "k" [("k", "spoiled")] [⟨"mark", 1, []⟩, ⟨"named", 15, []⟩]
    [(0, .addRoute (pageRegistration "/a" "a")), (1, .addRoute (pageRegistration "/z" "z"))] [] after 0 "/a" "get"
    (pageRegistration "/\x7bx\x7d" "x") (by decide +kernel) (by decide +kernel) (by simp [after]) (by simp [after])
    fun earlier hearlier => hcompiles earlier (List.mem_inits earlier after |>.2 hearlier)
  have hfresh : (fleet.routers[0]?).map (fun router =>
      (freshMatch router.strategy router.chunkSize router.routes "/z" "get").toOption) = some (some
        { status := .found, method := "GET", path := "/z", route := some "x", attributes := [("x", "z")] }) := by
    decide +kernel
  rw [show fleet.answer? 0 _ = _ from hanswer "/z" "get", Option.bind_some]
  rw [show fleet.routers[0]? = some router from hrouter] at hfresh
  exact Option.some.inj hfresh

end UrlRouter
