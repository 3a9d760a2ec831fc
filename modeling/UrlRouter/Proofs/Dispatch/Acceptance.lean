/-
What can go wrong between a route and a matcher.

A route is refused when it is added, or it is accepted and becomes part of the data from which a matcher is built. Only a
fault of the pattern is meant to stop it, and to do so when the route is added. Nothing stops a regular route. Others may
come to a limit of the engine or lose a group in their literals, and as a static path of the named strategy or a chunk of
the mark strategy is not compiled before the matcher is built, that may fail too.

Results:
- `no_lostGroup`: where literals are plain, no group around a token is lost.
- `Collector.Holds.addRoutes_accepted`: a collector is what its accepted routes make of an empty one.
- `Collector.Holds.chunk_error`: a matcher that cannot be built fails in a chunk of accepted routes.
- `named_matcher_error`, `mark_matcher_error`: the expression with which it fails.
- `refused_or_built`: which errors leave adding routes and building a matcher, for either strategy.
-/
import Mathlib.Tactic
import UrlRouter.Proofs.Dispatch.Collecting
import UrlRouter.Proofs.Dispatch.GroupNumbers
import UrlRouter.Proofs.Dispatch.Strategies

namespace UrlRouter

open Pattern (FailsAs Readable failsAs_analyze failsAs_bind failsAs_compileOr failsAs_mapM failsAs_ok
  failsAs_rejectNamedGroups failsAs_resolveConstraint)

variable {collector : Collector} {strategy : Strategy} {size : Int} {accepted : List Route}

/-! ## Lost groups -/

theorem Pattern.FailsAs.ne_lostGroup {α : Type} {x : Except Pattern.Error α} (h : FailsAs False x) (name : String) :
    x ≠ .error (.lostGroup name) := fun hx => h _ hx

/-- The groups around the tokens of a variant are found where its literals are plain. -/
theorem groupNumbers_ne_lostGroup {overrides : Pattern.Overrides} {pieces : List Pattern.Piece}
    (hpieces : Readable overrides pieces) {constraint : Pattern.Token → String}
    (hconstraint : ∀ token, .token token ∈ pieces → constraint token = token.constraintText overrides)
    (pattern name : String) : Pattern.groupNumbers constraint pattern pieces ≠ .error (.lostGroup name) := by
  intro h
  rcases bind_eq_error.1 h with h | ⟨compiled, hcompiled, h⟩
  · exact (failsAs_compileOr _ _ _).ne_lostGroup name h
  rcases bind_eq_error.1 h with h | ⟨_, -, h⟩
  · exact (failsAs_rejectNamedGroups _ _ _).ne_lostGroup name h
  obtain ⟨marker, hmarker, h⟩ := exists_of_mapM_eq_error h
  have hcompile := Pattern.compile_of_compileOr hcompiled
  rw [Pattern.renderMarked_congr hconstraint] at hcompile
  obtain ⟨number, hnumber⟩ : ∃ number, compiled.groupNumber? marker = some number := by
    obtain ⟨i, hi, rfl⟩ := List.mem_iff_getElem.1 hmarker
    have hfound := Pattern.compile_markedText hpieces hcompile
    exact ⟨_, hfound.get hi (hfound.length_eq ▸ hi)⟩
  rw [hnumber] at h
  cases h

/-- **No group is lost where literals are plain**, whatever the constraints are. -/
theorem no_lostGroup {route : Route} (hliterals : route.HasPlainLiterals) (name : String) :
    Pattern.MarkForm.parse route.path route.tokens ≠ .error (.lostGroup name) := by
  intro h
  unfold Pattern.MarkForm.parse at h
  split_ifs at h with hroot hstatic
  · cases h
  · exact (failsAs_bind (failsAs_compileOr _ _ _) fun _ _ =>
      failsAs_bind (failsAs_rejectNamedGroups _ _ _) fun _ _ => failsAs_ok _).ne_lostGroup name h
  rcases bind_eq_error.1 h with h | ⟨layout, hlayout, h⟩
  · exact (failsAs_analyze route.path).ne_lostGroup name h
  rcases bind_eq_error.1 h with h | ⟨constraints, hconstraints, h⟩
  · exact (failsAs_mapM fun token _ => failsAs_bind (failsAs_resolveConstraint token _ _) fun _ _ =>
      failsAs_ok _).ne_lostGroup name h
  rcases bind_eq_error.1 h with h | ⟨groups, -, h⟩
  · obtain ⟨pieces, hpieces, h⟩ := exists_of_mapM_eq_error h
    have hlayoutOf : Pattern.layoutOf route.path = .ok layout := by
      rw [Pattern.layoutOf, if_neg hroot, if_neg hstatic, hlayout]
    obtain ⟨hresolves, rfl⟩ := Pattern.resolves_of_mapM hconstraints
    have hreadable := Pattern.readable_of_mem_variants (hliterals layout hlayoutOf) hresolves hpieces
    refine groupNumbers_ne_lostGroup hreadable (fun token htoken => ?_) _ name h
    exact Pattern.constraintOf_of_nodup (Pattern.wellFormed_of_layoutOf hlayoutOf).nodup
      (Pattern.token_of_mem_variants hpieces htoken)
  · cases h

/-! ## Adding routes -/

/-- **A collector is what its accepted routes make of an empty one**, whatever else it was called for. -/
theorem Collector.Holds.addRoutes_accepted {start : Collector} (hempty : start.Empty)
    (hstrategy : start.strategy = strategy) (hsize : (start.chunkSize : Int) = size)
    (h : collector.Holds strategy size accepted) : start.addRoutes accepted = (collector, .ok ()) := by
  obtain ⟨rfl, hchunkSize, -, hdistinct, hseen, parsed, hparsed, hbuckets⟩ := h
  obtain ⟨hnone, hunseen⟩ := hempty
  obtain ⟨strategy, chunkSize, hpos, _, _⟩ := start
  obtain ⟨_, _, _, _, _⟩ := collector
  dsimp only at hstrategy hsize hchunkSize hseen hnone hunseen hparsed hbuckets
  subst hstrategy
  subst hnone
  subst hunseen
  obtain rfl := Int.ofNat.inj (hsize.trans hchunkSize.symm)
  have hadded := (@addRoutes_eq ⟨strategy, chunkSize, hpos, [], []⟩ accepted hdistinct).1 parsed (mapM_eq_ok.2 hparsed)
  rw [hadded, hseen, hbuckets]
  rfl

/-- A route that suits the strategy is not refused. -/
theorem exists_addRoute_of_suits {route : Route} (h : collector.strategy.Suits route) :
    ∃ next, collector.addRoute route = .ok next := by
  by_cases hname : route.name ∈ collector.seen
  · exact ⟨collector, by rw [Collector.addRoute, if_pos (List.contains_iff_mem.2 hname)]⟩
  · obtain ⟨item, hitem⟩ := Strategy.exists_collected h
    rw [addRoute_new hname, hitem]
    exact ⟨_, rfl⟩

/-- **What can go wrong when a route is added**: a group is lost only among literals that are not plain. -/
theorem addRoute_error_of_literals {route : Route} {e : Pattern.Error} (h : collector.addRoute route = .error e) :
    e.Expected (collector.strategy = .mark ∧ ¬route.HasPlainLiterals) := by
  have hexpected := addRoute_error h
  cases e with
  | fault fault pattern => trivial
  | limit cause => exact hexpected
  | lostGroup name =>
    have hmark : collector.strategy = .mark := hexpected
    refine ⟨hmark, fun hliterals => ?_⟩
    obtain ⟨strategy, chunkSize, hpos, buckets, seen⟩ := collector
    obtain rfl : strategy = .mark := hmark
    unfold Collector.addRoute at h
    split_ifs at h
    rcases bind_eq_error.1 h with h | ⟨form, -, h⟩
    · exact no_lostGroup hliterals name h
    · cases h

/-! ## Building a matcher -/

/-- the path of a static route among these does not compile, and this is the error -/
def MatcherError.OfStaticPath (e : MatcherError) (accepted : List Route) : Prop :=
  ∃ route ∈ accepted, route.IsStatic ∧ ∃ cause, Regex.compile route.path = .error cause ∧ e = .regex route.path cause

/-- the expression of some of these routes, put into one chunk, does not compile, and this is the error -/
def MatcherError.OfChunk (e : MatcherError) (accepted : List Route) : Prop :=
  ∃ (part : List Route) (items : List (Collected .mark)), part ⊆ accepted ∧
    part.mapM (Route.collected .mark) = .ok items ∧
    ∃ cause, Regex.compile (markChunk items).regex = .error cause ∧ e = .regex (markChunk items).regex cause

/-- **A matcher that cannot be built** fails in one of the chunks, which was made of accepted routes. -/
theorem Collector.Holds.chunk_error (h : collector.Holds strategy size accepted) {e : MatcherError}
    (he : Matcher.ofData collector.data = .error e) :
    ∃ (part : List Route) (items : List (Collected strategy)), part ⊆ accepted ∧
      part.mapM (Route.collected strategy) = .ok items ∧ (strategy.chunk items).compile = .error e := by
  rcases bind_eq_error.1 he with he | ⟨groups, -, he⟩
  · obtain ⟨group, hgroup, he⟩ := exists_of_mapM_eq_error he
    rcases bind_eq_error.1 he with he | ⟨compiled, -, he⟩
    · obtain ⟨chunk, hchunk, he⟩ := exists_of_mapM_eq_error he
      obtain ⟨parts, hparts, hmakes⟩ := h.describes.chunks group hgroup
      obtain ⟨i, hi, rfl⟩ := List.mem_iff_getElem.1 hchunk
      have hpart : i < parts.length := hmakes.length_eq ▸ hi
      obtain ⟨items, hitems, hmade⟩ := hmakes.get hpart hi
      rw [List.get_eq_getElem] at hmade
      refine ⟨parts[i], items, fun route hroute => ?_, hitems, hmade ▸ he⟩
      have hmem : route ∈ parts.flatten := List.mem_flatten.2 ⟨parts[i], List.getElem_mem hpart, hroute⟩
      rw [hparts] at hmem
      exact List.mem_of_mem_filter hmem
    · cases he
  · cases he

/-- An accepted expression that does not compile is the path of a static route. -/
theorem static_of_compile_error {route : Route} {form : Pattern.NamedForm} {cause : Regex.CompileError}
    (hform : Pattern.NamedForm.parse route.path route.tokens = .ok form)
    (hcause : Regex.compile form.regex = .error cause) : route.IsStatic ∧ form.regex = route.path := by
  have hnone : ¬∃ regex, Regex.compile form.regex = .ok regex := by
    rintro ⟨regex, hregex⟩
    rw [hregex] at hcause
    cases hcause
  have hstatic : route.IsStatic := by
    by_contra hdynamic
    exact hnone ((compiles_iff hform).2 fun hstatic => absurd hstatic hdynamic)
  refine ⟨hstatic, ?_⟩
  have hnot : (!Pattern.isDynamic route.path) = true := by rw [hstatic]; rfl
  unfold Pattern.NamedForm.parse at hform
  split_ifs at hform with hroot
  · cases hform
    exact absurd compile_slash hnone
  · cases hform
    rfl

/-- **A matcher of named routes that cannot be built** fails with the error of a static path. -/
theorem named_matcher_error (h : collector.Holds .named size accepted) {e : MatcherError}
    (he : Matcher.ofData collector.data = .error e) : e.OfStaticPath accepted := by
  obtain ⟨part, items, hpart, hitems, he⟩ := h.chunk_error he
  rcases bind_eq_error.1 he with he | ⟨compiled, -, he⟩
  · obtain ⟨entry, hentry, he⟩ := exists_of_mapM_eq_error he
    obtain ⟨item, hitem, rfl⟩ := List.mem_map.1 hentry
    obtain ⟨route, hroute, hcollected⟩ := exists_of_mem_mapM hitems hitem
    obtain ⟨form, hform, hparsed⟩ := bind_eq_ok.1 hcollected
    cases hparsed
    rcases bind_eq_error.1 he with he | ⟨regex, -, he⟩
    · cases hcompile : Regex.compile form.regex with
      | ok regex =>
        rw [compileRegex, hcompile] at he
        cases he
      | error cause =>
        obtain ⟨hstatic, hpath⟩ := static_of_compile_error hform hcompile
        rw [compileRegex, hcompile, hpath] at he
        rw [hpath] at hcompile
        cases he
        exact ⟨route, hpart hroute, hstatic, cause, hcompile, rfl⟩
    · cases he
  · cases he

/-- **A matcher of mark routes with plain literals that cannot be built** fails with the expression of a chunk. Where that
compiles, it has a group for each tag. -/
theorem mark_matcher_error (h : collector.Holds .mark size accepted)
    (hliterals : ∀ route ∈ accepted, route.HasPlainLiterals) {e : MatcherError}
    (he : Matcher.ofData collector.data = .error e) : e.OfChunk accepted := by
  obtain ⟨part, items, hpart, hitems, he⟩ := h.chunk_error he
  have hcollected := mapM_eq_ok.1 hitems
  have hplain : ∀ route ∈ part, route.HasPlainLiterals := fun route hroute => hliterals route (hpart hroute)
  cases hcompile : Regex.compile (markChunk items).regex with
  | error cause =>
    have hfailed : (Chunk.mark (markChunk items)).compile = .error (.regex (markChunk items).regex cause) := by
      rw [Chunk.compile, compileRegex, hcompile]
      rfl
    exact ⟨part, items, hpart, hitems, cause, hcompile, Except.error.inj (he.symm.trans hfailed)⟩
  | ok regex =>
    obtain ⟨nodes, -, rfl⟩ := compile_of_collected hcollected hplain hcompile
    have hcompiled := compile_mark hcompile fun tag htag => by
      rwa [ChunkVariant.map_fst_tagNumbers, ← map_fst_tags_of_collected hcollected hplain]
    cases he.symm.trans hcompiled

/-- Accepted routes that suit the strategy make a matcher. -/
theorem Collector.Holds.exists_matcher (h : collector.Holds strategy size accepted)
    (hsuits : ∀ route ∈ accepted, strategy.Suits route) : ∃ matcher, Matcher.ofData collector.data = .ok matcher := by
  have hadded : Collector.addRoutes { collector with buckets := [], seen := [] } accepted = (collector, .ok ()) :=
    h.addRoutes_accepted ⟨rfl, rfl⟩ h.strategy_eq h.chunkSize_eq
  obtain ⟨rfl, -, -, hdistinct, -, parsed, hparsed, -⟩ := h
  obtain ⟨matcher, hmatcher, -⟩ := @ofData_of_chunks { collector with buckets := [], seen := [] } ⟨rfl, rfl⟩ accepted
    hdistinct parsed (mapM_eq_ok.2 hparsed) _ (Strategy.chunksFind_of_suits hsuits)
  rw [hadded] at hmatcher
  exact ⟨matcher, hmatcher⟩

/-- **What goes wrong between routes and a matcher.** A collector is opened with either strategy and chunks of any size.
After any calls, some of which may have failed:
- adding a route fails only with a fault of its pattern, a limit of the engine or, for the mark strategy and where
  literals are not plain, a group around a token that the engine does not see;
- a regular route suits the strategy, and adding it does not fail;
- routes that were accepted by the named strategy make a matcher just when the paths of the static ones compile, and
  otherwise building it fails with the error of one of these paths;
- where the mark strategy accepted routes with plain literals, building a matcher fails only with the error of a chunk of
  them, which does not compile;
- accepted routes that suit the strategy make a matcher.
An interpreter's limit on how deep groups are nested is no part of the engine here, nor an error of it. -/
theorem refused_or_built (strategy : Strategy) (size : Int) (hsize : 1 ≤ size) (calls : List CollectorCall)
    (hcalls : ∀ call ∈ calls, call.Fair) :
    ∃ start, Collector.make strategy.name size = .ok start ∧
      let state := start.after calls
      let accepted := strategy.accepted calls
      (∀ route e, state.addRoute route = .error e → e.Expected (strategy = .mark ∧ ¬route.HasPlainLiterals)) ∧
      (∀ route : Route, route.IsRegular → strategy.Suits route ∧ ∃ next, state.addRoute route = .ok next) ∧
      (strategy = .named →
        ((∃ matcher, Matcher.ofData state.data = .ok matcher) ↔
          ∀ route ∈ accepted, route.IsStatic → ∃ regex, Regex.compile route.path = .ok regex) ∧
        ∀ e, Matcher.ofData state.data = .error e → e.OfStaticPath accepted) ∧
      (strategy = .mark → (∀ route ∈ accepted, route.HasPlainLiterals) →
        ∀ e, Matcher.ofData state.data = .error e → e.OfChunk accepted) ∧
      ((∀ route ∈ accepted, strategy.Suits route) → ∃ matcher, Matcher.ofData state.data = .ok matcher) := by
  obtain ⟨start, hmake, hstrategy⟩ := Collector.make_of_pos strategy hsize
  obtain ⟨hempty, -, hchunkSize⟩ := Collector.make_eq_ok hmake
  have hholds : (start.after calls).Holds strategy size (strategy.accepted calls) :=
    holds_after (hempty.holds hstrategy hchunkSize) hcalls
  refine ⟨start, hmake, ?_, ?_, ?_, ?_, hholds.exists_matcher⟩
  · intro route e he
    rw [← hholds.strategy_eq]
    exact addRoute_error_of_literals he
  · intro route hregular
    have hsuits := hregular.suits strategy
    rw [← hholds.strategy_eq] at hsuits
    exact ⟨hregular.suits strategy, exists_addRoute_of_suits hsuits⟩
  · rintro rfl
    have hadded := hholds.addRoutes_accepted hempty hstrategy hchunkSize
    have hiff := named_matcher_iff size start hmake (Strategy.named.accepted calls) hholds.distinct (by rw [hadded])
    rw [hadded] at hiff
    exact ⟨hiff, fun e he => named_matcher_error hholds he⟩
  · rintro rfl hliterals e he
    exact mark_matcher_error hholds hliterals he

/-- Patterns are refused for a group that is lost in a comment, and for a number that the engine does not take. -/
example : (Collector.make "mark" 15).toOption.map (fun collector =>
      [routeAt "/(?#\x7bid\x7d" "lost", routeAt "/\x7bid:a\x7b4294967295\x7d\x7d" "limit"].map fun route =>
        match collector.addRoute route with
        | .ok _ => none
        | .error e => some e) =
    some [some (.lostGroup "_sw0"), some (.limit .repetitionTooLarge)] := by decide +kernel

theorem routeAt_made {path name : String} (h : name ≠ "") : (routeAt path name).Made := by
  have hgiven : name.isEmpty = false := by simpa using h
  refine ⟨{ path, name }, ?_⟩
  simp [Route.make, normalizeMethods, Route.checkHost, Route.checkPort, normalizeSchemes, hgiven, routeAt]

def parkRoutes : List Route := [routeAt "/parks/\x7bid:(\\d)+\x7d" "park", routeAt "/parks.json" "index"]

/-- A matcher is built from two of three routes, as the first one was refused. -/
theorem parkRoutes_built :
    let calls := [.addRoute (routeAt "/parks/\x7bid" "park"), .addRoutes parkRoutes]
    ∃ start matcher, Collector.make Strategy.mark.name 1 = .ok start ∧ Strategy.mark.accepted calls = parkRoutes ∧
      Matcher.ofData (start.after calls).data = .ok matcher := by
  intro calls
  have hcalls : ∀ call ∈ calls, call.Fair := by
    simp only [calls, parkRoutes, CollectorCall.Fair, List.forall_mem_cons, List.not_mem_nil, false_implies,
      implies_true, and_true]
    exact ⟨routeAt_made (by decide), routeAt_made (by decide), routeAt_made (by decide)⟩
  have haccepted : Strategy.mark.accepted calls = parkRoutes := by decide +kernel
  obtain ⟨start, hmake, -, hregular, -, -, hbuilt⟩ := refused_or_built .mark 1 (by decide) calls hcalls
  rw [haccepted] at hbuilt
  have hroutes : ∀ route ∈ parkRoutes, route.IsRegular := by decide +kernel
  obtain ⟨matcher, hmatcher⟩ := hbuilt fun route hroute => (hregular route (hroutes route hroute)).1
  exact ⟨start, matcher, hmake, haccepted, hmatcher⟩

end UrlRouter
