/-
A router that finds a text in its cache.

The first request reads the entry that the cache holds under the router's key, whoever wrote it there. Which texts are
dispatch data is for the router's reader to tell; it may be any reader here, one that fails on what the router has
written among them. A text that it refuses counts for nothing: the routes are compiled, the request is answered from
them, and the entry is written anew. A text that it takes stands for the data that it makes of it. Their expressions are
compiled and their tags and group numbers looked up without a way back to the routes, so that a request fails where they
do not fit together.

Results:
- `unmatched_run`: calls other than requests leave a router without a matcher.
- `getMatcher_of_data`, `getMatcher_of_miss`: where the first matcher comes from.
- `found_entry_exact`: what the first request answers and what it leaves in the cache, for every reader and every text.
- `unfit_data_break_routing`: data that do not fit together make requests fail that the routes would answer.
-/
import Mathlib.Tactic
import UrlRouter.Proofs.Cache.Stored
import UrlRouter.Proofs.Router.Coherence

namespace UrlRouter

/-! ## Before the first request -/

namespace RouterM

variable {α β : Type}

/-- an operation that makes no matcher -/
def LeavesUnmatched (operation : RouterM α) : Prop :=
  ∀ s, s.router.matcher = none → (outcome operation s).2.router.matcher = none

theorem leavesUnmatched_pure (a : α) : LeavesUnmatched (pure a) := fun _ hs => hs

theorem leavesUnmatched_get : LeavesUnmatched get := fun _ hs => hs

theorem leavesUnmatched_report (event : RouterEvent) : LeavesUnmatched (report event) := fun _ hs => hs

theorem leavesUnmatched_modifyRouter {change : Router → Router}
    (hchange : ∀ router, router.matcher = none → (change router).matcher = none) :
    LeavesUnmatched (modifyRouter change) := fun s hs => hchange s.router hs

theorem leavesUnmatched_orFail {ε : Type} (wrap : ε → RouterError) (result : Except ε α) :
    LeavesUnmatched (orFail wrap result) := by
  intro s hs
  rw [outcome_orFail]
  exact hs

theorem leavesUnmatched_bind {x : RouterM α} {f : α → RouterM β} (hx : LeavesUnmatched x)
    (hf : ∀ a, LeavesUnmatched (f a)) : LeavesUnmatched (x >>= f) := by
  intro s hs
  have hfirst := hx s hs
  rcases houtcome : outcome x s with ⟨result, t⟩
  rw [houtcome] at hfirst
  cases result with
  | ok a =>
    rw [outcome_bind_of_ok houtcome]
    exact hf a t hfirst
  | error e =>
    rw [outcome_bind_of_error houtcome]
    exact hfirst

theorem leavesUnmatched_reportCache (event : CacheEvent) : LeavesUnmatched (reportCache event) := by
  intro s hs
  obtain ⟨events, hreport⟩ := outcome_reportCache event s
  rw [hreport]
  exact hs

theorem leavesUnmatched_changeCache (operation : Cache → FileTree → Cache.Outcome) :
    LeavesUnmatched (changeCache operation) := by
  intro s hs
  unfold changeCache
  rw [outcome_get_bind]
  split
  · exact hs
  · exact leavesUnmatched_orFail .cache _ _ hs

theorem leavesUnmatched_cachedData : LeavesUnmatched cachedData := by
  apply leavesUnmatched_bind leavesUnmatched_get
  intro state
  split
  · exact leavesUnmatched_pure none
  apply leavesUnmatched_bind (leavesUnmatched_orFail _ _)
  intro entry
  split
  · exact leavesUnmatched_bind (leavesUnmatched_reportCache _) fun _ => leavesUnmatched_pure none
  split
  · exact leavesUnmatched_bind (leavesUnmatched_reportCache _) fun _ => leavesUnmatched_pure _
  · apply leavesUnmatched_bind (leavesUnmatched_report _)
    intro _
    exact leavesUnmatched_bind (leavesUnmatched_reportCache _) fun _ => leavesUnmatched_pure none

theorem leavesUnmatched_storeData (data : DispatchData) : LeavesUnmatched (storeData data) := by
  apply leavesUnmatched_bind leavesUnmatched_get
  intro state
  split_ifs
  · apply leavesUnmatched_bind
    · apply leavesUnmatched_bind (leavesUnmatched_changeCache _)
      intro _
      apply leavesUnmatched_bind leavesUnmatched_get
      intro after
      split
      · exact leavesUnmatched_report _
      · exact leavesUnmatched_pure ()
    · intro _
      exact leavesUnmatched_reportCache _
  · exact leavesUnmatched_pure ()

theorem leavesUnmatched_compileRoutes : LeavesUnmatched compileRoutes := by
  apply leavesUnmatched_bind leavesUnmatched_get
  intro state
  apply leavesUnmatched_bind (leavesUnmatched_orFail _ _)
  intro collector
  apply leavesUnmatched_bind (leavesUnmatched_orFail _ _)
  intro _
  apply leavesUnmatched_bind (leavesUnmatched_report _)
  intro _
  apply leavesUnmatched_bind (leavesUnmatched_storeData _)
  intro _
  apply leavesUnmatched_bind
  · exact leavesUnmatched_modifyRouter fun _ hrouter => hrouter
  · exact fun _ => leavesUnmatched_pure _

theorem leavesUnmatched_dispatchData : LeavesUnmatched dispatchData := by
  have hreport : ∀ (data : DispatchData) (fromCache : Bool), LeavesUnmatched (do
      modifyRouter fun router => { router with loaded := true }
      report (.compiled data.routeCount data.chunkCount data.strategy fromCache)
      return data) := by
    intro data fromCache
    apply leavesUnmatched_bind
    · exact leavesUnmatched_modifyRouter fun _ hrouter => hrouter
    · exact fun _ => leavesUnmatched_bind (leavesUnmatched_report _) fun _ => leavesUnmatched_pure data
  have hcompile := leavesUnmatched_bind leavesUnmatched_compileRoutes fun data => hreport data false
  unfold dispatchData
  apply leavesUnmatched_bind leavesUnmatched_get
  intro state
  dsimp only
  split_ifs
  · exact hcompile
  · apply leavesUnmatched_bind leavesUnmatched_cachedData
    intro cached
    cases cached with
    | none => exact hcompile
    | some data => exact hreport data true

theorem leavesUnmatched_clearCache : LeavesUnmatched clearCache := by
  apply leavesUnmatched_bind
  · exact leavesUnmatched_modifyRouter fun _ _ => rfl
  intro _
  apply leavesUnmatched_bind leavesUnmatched_get
  intro state
  apply leavesUnmatched_bind (leavesUnmatched_changeCache _)
  intro _
  apply leavesUnmatched_bind
  · exact leavesUnmatched_modifyRouter fun _ hrouter => hrouter
  · exact fun _ => leavesUnmatched_reportCache _

end RouterM

theorem unmatched_step {s : RouterState} (h : s.router.matcher = none) {call : RouterCall}
    (hcall : ∀ path method, call ≠ .request path method) : (s.step call).router.matcher = none := by
  cases call with
  | addRoute registration =>
    rcases RouterM.addRoute_spec s registration with ⟨e, hrejected⟩ | ⟨router, events, hrouter, hstored⟩
    · rw [RouterState.step, hrejected]
      exact h
    · obtain ⟨detector, -, rfl⟩ := register_eq_ok hrouter
      rw [RouterState.step, hstored]
  | setTokens tokens => exact h
  | request path method => exact absurd rfl (hcall path method)
  | dispatchData => exact RouterM.leavesUnmatched_dispatchData s h
  | generateUri name attributes query =>
    obtain ⟨result, generator, events, hgenerate⟩ := RouterM.generateUri_keeps s name attributes query
    rw [RouterState.step, hgenerate]
    exact h
  | clearCache => exact RouterM.leavesUnmatched_clearCache s h
  | loseEntry => exact h

/-- **Before its first request** a router has no matcher, whatever else it was asked for. -/
theorem unmatched_run {s : RouterState} (h : s.router.matcher = none) {calls : List RouterCall}
    (hcalls : ∀ call ∈ calls, ∀ path method, call ≠ .request path method) : (s.run calls).router.matcher = none := by
  induction calls generalizing s with
  | nil => exact h
  | cons call calls ih =>
    apply ih (unmatched_step h (hcalls call List.mem_cons_self))
    intro other hother
    exact hcalls other (List.mem_cons_of_mem call hother)

/-! ## The first matcher -/

/-- a router without a matcher whose cache gives this text for its entry and takes the text of other data -/
structure RouterState.Finds (state : RouterState) (cache : Cache) (text : String) : Prop where
  unmatched : state.router.matcher = none
  cached : state.cache = some cache
  entry : cache.get? state.files state.router.cacheKey = .ok (some text)
  writable : ∀ data : DispatchData, (cache.insert state.files state.router.cacheKey data.text).result = .ok ()

namespace RouterM

variable {s : RouterState} {cache : Cache} {text : String} {data : DispatchData}

theorem cachedData_of_finds (h : s.Finds cache text) :
    ∃ events, outcome cachedData s = (.ok (s.router.decode text).toOption, { s with events }) :=
  cachedData_of_get h.cached h.entry

/-- The first matcher is made of the dispatch data; nothing but the router changes with it. -/
theorem getMatcher_of_data_ok {t : RouterState} (hnone : s.router.matcher = none)
    (h : outcome dispatchData s = (.ok data, t)) :
    ∃ u, outcome getMatcher s = ((Matcher.ofData data).mapError RouterError.matcher, u) ∧
      u.cache = t.cache ∧ u.files = t.files := by
  rcases getMatcher_of_dispatchData hnone h with ⟨e, hmade, houtcome⟩ | ⟨matcher, hmade, houtcome⟩
  · rw [ok_bind] at hmade
    exact ⟨t, houtcome.trans (congrArg (·, t) hmade.symm), rfl, rfl⟩
  · rw [ok_bind] at hmade
    exact ⟨_, houtcome.trans (congrArg (·, _) hmade.symm), rfl, rfl⟩

/-- **A text that the reader takes** is what the first matcher is made of. -/
theorem getMatcher_of_data (h : s.Finds cache text) (hstale : s.router.stale = false)
    (hdata : s.router.decode text = .ok data) :
    ∃ t, outcome getMatcher s = ((Matcher.ofData data).mapError RouterError.matcher, t) ∧
      t.cache = some cache ∧ t.files = s.files := by
  obtain ⟨events, hcached⟩ := cachedData_of_finds h
  rw [hdata] at hcached
  obtain ⟨events', hdispatch⟩ := dispatchData_of_hit hstale hcached
  obtain ⟨u, houtcome, hcache, hfiles⟩ := getMatcher_of_data_ok h.unmatched hdispatch
  exact ⟨u, houtcome, hcache.trans h.cached, hfiles⟩

/-- **A text that the reader refuses, or that is stale**, makes no difference: the first matcher is made of the routes, and
their data are what the cache holds then. -/
theorem getMatcher_of_miss (h : s.Finds cache text)
    (hmiss : s.router.stale = true ∨ ∀ data, s.router.decode text ≠ .ok data)
    (hdata : collectedData s.router.strategy s.router.chunkSize s.router.routes = .ok data) :
    ∃ t, outcome getMatcher s = ((Matcher.ofData data).mapError RouterError.matcher, t) ∧
      ∃ written, t.cache = some written ∧ written.get? t.files s.router.cacheKey = .ok (some data.text) := by
  have hread : s.router.stale = true ∨ ∃ events, outcome cachedData s = (.ok none, { s with events }) := by
    rcases hmiss with hstale | hcorrupt
    · exact .inl hstale
    · obtain ⟨events, hcached⟩ := cachedData_of_finds h
      have hnone : (s.router.decode text).toOption = none := by
        rw [Option.eq_none_iff_forall_ne_some]
        exact fun found hfound => hcorrupt found (toOption_eq_some.1 hfound)
      rw [hnone] at hcached
      exact .inr ⟨events, hcached⟩
  have hstore := fun data => storeData_of_insert h.cached (h.writable data)
  rcases dispatchData_of_miss hread hstore with ⟨found, events, hfound, hdispatch⟩ | ⟨e, events, herror, -⟩
  · obtain rfl : found = data := Except.ok.inj (hfound.symm.trans hdata)
    obtain ⟨u, houtcome, hcache, hfiles⟩ := getMatcher_of_data_ok h.unmatched hdispatch
    refine ⟨u, houtcome, _, hcache, ?_⟩
    rw [hfiles]
    exact Cache.get?_insert_data (h.writable found)
  · rw [hdata] at herror
    cases herror

end RouterM

/-! ## The first request -/

/-- Making a matcher of data and asking it is what `answer` stands for, also where one of them fails. -/
theorem answer_mapError (data : DispatchData) (path method : String) :
    (((Matcher.ofData data).mapError RouterError.matcher).bind fun matcher =>
      (matcher.match' path method).mapError RouterError.matcher) =
        (data.answer path method).mapError RouterError.matcher := by
  rw [DispatchData.answer]
  cases Matcher.ofData data <;> rfl

/-- **What the first request makes of the text in the cache.** A router without a matcher, with any reader of cache
entries, was called for anything but requests, and its routes compile. Whatever text its cache then gives for the entry,
wherever that is kept:
- a text that the reader refuses, or that came before the last route, breaks nothing: the request is answered from the
  registered routes, whose data then stand in the cache;
- a text that the reader takes is answered from as the data that it makes of it, so that the request fails because of it
  just when these data make no matcher or none that can answer, and the cache is left as it was. -/
theorem found_entry_exact (start : RouterState) (hstart : start.router.matcher = none) (calls : List RouterCall)
    (hcalls : ∀ call ∈ calls, ∀ path method, call ≠ .request path method) (cache : Cache) (files : FileTree)
    (text : String) (state : RouterState) (hstate : state = { start.run calls with cache := some cache, files })
    (hentry : cache.get? files state.router.cacheKey = .ok (some text))
    (hwritable : ∀ data : DispatchData, (cache.insert files state.router.cacheKey data.text).result = .ok ())
    (own : Matcher)
    (hown : freshMatcher state.router.strategy state.router.chunkSize state.router.routes = .ok own)
    (path method : String) :
    let result := RouterM.outcome (RouterM.match' path method) state
    ((state.router.stale = true ∨ ∀ data, state.router.decode text ≠ .ok data) →
      result.1 = (own.match' path method).mapError RouterError.matcher ∧
      ∃ data written, collectedData state.router.strategy state.router.chunkSize state.router.routes = .ok data ∧
        result.2.cache = some written ∧ written.get? result.2.files state.router.cacheKey = .ok (some data.text)) ∧
    ∀ data, state.router.stale = false → state.router.decode text = .ok data →
      result.1 = (data.answer path method).mapError RouterError.matcher ∧
      result.2.cache = some cache ∧ result.2.files = files := by
  intro result
  have hfinds : state.Finds cache text := by
    subst hstate
    exact ⟨unmatched_run hstart hcalls, rfl, hentry, hwritable⟩
  have hfiles : state.files = files := by rw [hstate]
  constructor
  · intro hmiss
    obtain ⟨data, hdata, hmade⟩ := bind_eq_ok.1 hown
    obtain ⟨t, hmatcher, written, hcache, hwritten⟩ := RouterM.getMatcher_of_miss hfinds hmiss hdata
    rw [hmade] at hmatcher
    obtain ⟨events, hmatch⟩ := RouterM.match'_of_getMatcher hmatcher path method
    refine ⟨congrArg Prod.fst hmatch, data, written, hdata, ?_⟩
    simp only [result, hmatch]
    exact ⟨hcache, hwritten⟩
  · intro data hstale hdata
    obtain ⟨t, hmatcher, hcache, hkept⟩ := RouterM.getMatcher_of_data hfinds hstale hdata
    obtain ⟨events, hmatch⟩ := RouterM.match'_of_getMatcher hmatcher path method
    simp only [result, hmatch]
    exact ⟨answer_mapError data path method, hcache, hkept.trans hfiles⟩

/-- a router with one route for a page -/
def pageRouter : RouterState := (RouterState.opened "mark" 15 "k" [] true).run [.addRoute (pageRegistration "/a" "a")]

/-- the router with a cache in memory that gives a text for its entry -/
def pageRouterWith (text : String) : RouterState :=
  { pageRouter with cache := some (.memory [("k", text)]), files := {} }

/-- Its reader of entries is the usual one. -/
theorem decode_pageRouter : pageRouter.router.decode = DispatchData.ofText := rfl

theorem unmatched_pageRouter : pageRouter.router.matcher = none := by
  apply unmatched_run rfl
  rintro call hcall path method rfl
  cases List.mem_singleton.1 hcall

theorem pageRouter_finds (text : String) : (pageRouterWith text).Finds (.memory [("k", text)]) text := by
  have hkey : pageRouter.router.cacheKey = "k" := by decide +kernel
  refine ⟨unmatched_pageRouter, rfl, ?_, fun _ => rfl⟩
  show Except.ok (List.lookup pageRouter.router.cacheKey [("k", text)]) = _
  rw [hkey]
  rfl

/-- A text that is no JSON is written over, and the page is found. -/
theorem corruptPage_found :
    let state := pageRouterWith "no data"
    let request := RouterM.match' "/a" "get"
    let result := RouterM.outcome request state
    result.1.toOption.bind (·.route) = some "a" ∧ ∃ data : DispatchData, ∃ written, result.2.cache = some written ∧
      written.get? result.2.files state.router.cacheKey = .ok (some data.text) := by
  intro state request result
  obtain ⟨own, hown⟩ : ∃ own, freshMatcher state.router.strategy state.router.chunkSize state.router.routes = .ok own :=
    exists_of_isSome (by decide +kernel)
  have hcalls : ∀ call ∈ [RouterCall.addRoute (pageRegistration "/a" "a")], ∀ path method,
      call ≠ .request path method := by
    rintro call hcall path method rfl
    cases List.mem_singleton.1 hcall
  have hfinds := pageRouter_finds "no data"
  have hcorrupt : ∀ data, DispatchData.ofText "no data" ≠ .ok data := by
    have hnone : (DispatchData.ofText "no data").toOption = none := by decide +kernel
    intro data hdata
    rw [hdata] at hnone
    cases hnone
  obtain ⟨hmiss, -⟩ := found_entry_exact (RouterState.opened "mark" 15 "k" [] true) rfl _ hcalls
    (.memory [("k", "no data")]) {} "no data" state rfl hfinds.entry hfinds.writable own hown "/a" "get"
  have hresult : result = RouterM.outcome (RouterM.match' _ _) state := rfl
  rw [← hresult] at hmiss
  obtain ⟨hanswer, data, written, -, hcache, hwritten⟩ := hmiss (.inr hcorrupt)
  refine ⟨?_, data, written, hcache, hwritten⟩
  have hroute : (freshMatch state.router.strategy state.router.chunkSize state.router.routes "/a" "get").toOption.bind
      (·.route) = some "a" := by decide +kernel
  rw [freshMatch, hown, ok_bind, ← hanswer] at hroute
  exact hroute

/-- dispatch data with one expression -/
def pageData (regex : String) (tags : List (String × VariantTag)) : DispatchData :=
  { groups := [("GET", [.mark ⟨["a"], regex, tags⟩])] }

theorem keyed_pageData {regex : String} {tags : List (String × VariantTag)} (h : (tags.map (·.1)).Nodup) :
    (pageData regex tags).Keyed where
  size := show (1 : Int) ≤ 15 by decide
  buckets := List.nodup_singleton "GET"
  chunks := by
    intro group hgroup chunk hchunk
    obtain rfl := List.mem_singleton.1 hgroup
    obtain rfl := List.mem_singleton.1 hchunk
    exact h

/-- data whose expression does not compile, whose tag is none of its groups, and whose attribute has no group -/
def unfitData : List DispatchData := [
  pageData "(" [],
  pageData "(?P<t>/a)" [("s", ⟨"a", [], []⟩)],
  pageData "(?P<t>/a)" [("t", ⟨"a", ["id"], [5]⟩)]]

/-- **Data that do not fit together break routing.** They are read without a complaint, and the request fails that the
route of the router would answer. -/
theorem unfit_data_break_routing :
    unfitData.Forall fun data =>
      let state := pageRouterWith data.text
      let request := RouterM.match' "/a" "get"
      DispatchData.ofText data.text = .ok data ∧
      (freshMatch state.router.strategy state.router.chunkSize state.router.routes "/a" "get").toOption.bind (·.route) =
        some "a" ∧
      (RouterM.outcome request state).1.toOption = none := by
  rw [List.forall_iff_forall_mem]
  intro data hdata state request
  have hread : DispatchData.ofText data.text = .ok data := by
    simp only [unfitData, List.mem_cons, List.not_mem_nil, or_false] at hdata
    rcases hdata with rfl | rfl | rfl
    · exact ofText_text (keyed_pageData List.nodup_nil)
    · exact ofText_text (keyed_pageData (List.nodup_singleton "s"))
    · exact ofText_text (keyed_pageData (List.nodup_singleton "t"))
  have hanswer : ∀ data ∈ unfitData, (data.answer "/a" "get").toOption = none := by decide +kernel
  have hstale : pageRouter.router.stale = false := by decide +kernel
  have hdecoded : (pageRouterWith data.text).router.decode data.text = .ok data := by
    rw [show (pageRouterWith data.text).router.decode = pageRouter.router.decode from rfl, decode_pageRouter, hread]
  obtain ⟨t, hmatcher, -⟩ := RouterM.getMatcher_of_data (pageRouter_finds data.text) hstale hdecoded
  obtain ⟨events, hmatch⟩ := RouterM.match'_of_getMatcher hmatcher "/a" "get"
  refine ⟨hread, ?_, ?_⟩
  · have hroute : (freshMatch pageRouter.router.strategy pageRouter.router.chunkSize pageRouter.router.routes "/a"
        "get").toOption.bind (·.route) = some "a" := by decide +kernel
    exact hroute
  · simp only [request, state, hmatch]
    rw [answer_mapError, toOption_mapError]
    exact hanswer data hdata

end UrlRouter
