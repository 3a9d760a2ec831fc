/-
When collected routes make a matcher.

A collector of the named strategy compiles the expression of a route with a token or a chain when the route is added,
but takes the path of a static route as it is. Building the matcher then compiles everything, so that it is the static
paths that decide.

Results:
- `addRoute_error`: adding a route fails with a fault of its pattern, a limit of the engine or, for the mark strategy
  only, a lost group.
- `named_matcher_iff`: accepted named routes make a matcher just when their static paths compile.
- `accepted_routes_without_matcher`: accepted routes that make no matcher, one for each strategy.
- `back_reference_told_apart`: a path that refers back to a group is found by one strategy only.
-/
import Mathlib.Tactic
import UrlRouter.Proofs.Dispatch.NamedRoutes
import UrlRouter.Proofs.Router.Outcome

namespace UrlRouter

open Pattern (Error)

/-! ## What can go wrong when a route is added -/

/-- a limit of the engine, which is no fault of an expression's form -/
def Regex.CompileError.IsLimit : Regex.CompileError → Prop
  | .malformed _ _ => False
  | _ => True

/-- a fault of the pattern, a limit of the engine, or a group that the engine does not see -/
def Pattern.Error.Expected (lost : Prop) : Error → Prop
  | .fault _ _ => True
  | .limit cause => cause.IsLimit
  | .lostGroup _ => lost

namespace Pattern

variable {α β : Type} {lost : Prop}

/-- a computation that fails only as expected -/
def FailsAs (lost : Prop) (x : Except Error α) : Prop := ∀ e, x = .error e → e.Expected lost

theorem failsAs_ok (a : α) : FailsAs lost (.ok a : Except Error α) := fun e h => by cases h

theorem failsAs_bind {x : Except Error α} {f : α → Except Error β} (hx : FailsAs lost x)
    (hf : ∀ a, x = .ok a → FailsAs lost (f a)) : FailsAs lost (x >>= f) := by
  cases x with
  | error e' =>
    intro e h
    cases h
    exact hx e' rfl
  | ok a => exact hf a rfl

theorem failsAs_mapM {f : α → Except Error β} {as : List α} (hf : ∀ a ∈ as, FailsAs lost (f a)) :
    FailsAs lost (as.mapM f) := by
  induction as with
  | nil => exact failsAs_ok []
  | cons a as ih =>
    rw [List.mapM_cons]
    exact failsAs_bind (hf a List.mem_cons_self) fun b _ =>
      failsAs_bind (ih fun c hc => hf c (List.mem_cons_of_mem a hc)) fun bs _ => failsAs_ok (b :: bs)

theorem failsAs_compileOr (fault : Regex.CompileError → Fault) (pattern : Option String) (regex : String) :
    FailsAs lost (compileOr fault pattern regex) := by
  intro e h
  unfold compileOr at h
  cases hcompile : Regex.compile regex with
  | ok compiled =>
    rw [hcompile] at h
    cases h
  | error cause =>
    rw [hcompile] at h
    cases cause with
    | malformed problem position =>
      cases h
      trivial
    | _ =>
      cases h
      trivial

theorem compile_of_compileOr {fault : Regex.CompileError → Fault} {pattern : Option String} {regex : String}
    {compiled : Regex} (h : compileOr fault pattern regex = .ok compiled) : Regex.compile regex = .ok compiled := by
  unfold compileOr at h
  cases hcompile : Regex.compile regex with
  | ok found =>
    rw [hcompile] at h
    cases h
    rfl
  | error cause =>
    rw [hcompile] at h
    cases cause <;> cases h

theorem failsAs_rejectNamedGroups (pattern : Option String) (allowed : List String) (regex : Regex) :
    FailsAs lost (rejectNamedGroups pattern allowed regex) := by
  intro e h
  unfold rejectNamedGroups at h
  split at h
  · cases h
  · cases h
    trivial

theorem failsAs_analyze (pattern : String) : FailsAs lost (analyze pattern) := by
  intro e h
  unfold analyze at h
  cases hlayout : readLayout pattern with
  | ok layout => rw [hlayout] at h; cases h
  | error fault =>
    rw [hlayout] at h
    cases h
    trivial

theorem failsAs_resolveConstraint (token : Token) (overrides : Overrides) (pattern : Option String) :
    FailsAs lost (resolveConstraint token overrides pattern) := by
  unfold resolveConstraint
  split
  · exact failsAs_ok _
  · exact failsAs_bind (failsAs_compileOr _ _ _) fun _ _ =>
      failsAs_bind (failsAs_rejectNamedGroups _ _ _) fun _ _ => failsAs_ok _

theorem failsAs_renderNamed (pattern : String) (overrides : Overrides) (captures : List (String × String))
    (pieces : List Piece) : FailsAs lost (renderNamed pattern overrides captures pieces) := by
  induction pieces with
  | nil => exact failsAs_ok ""
  | cons piece rest ih =>
    cases piece with
    | literal text => exact failsAs_bind ih fun _ _ => failsAs_ok _
    | token t =>
      exact failsAs_bind (failsAs_resolveConstraint _ _ _) fun _ _ => failsAs_bind ih fun _ _ => failsAs_ok _

theorem failsAs_groupNumbers (constraint : Token → String) (pattern : String) (pieces : List Piece) :
    FailsAs True (groupNumbers constraint pattern pieces) := by
  refine failsAs_bind (failsAs_compileOr _ _ _) fun compiled _ =>
    failsAs_bind (failsAs_rejectNamedGroups _ _ _) fun _ _ => failsAs_mapM fun marker _ => ?_
  intro e h
  split at h
  · cases h
  · cases h
    trivial

theorem failsAs_markForm (pattern : String) (overrides : Overrides) :
    FailsAs True (MarkForm.parse pattern overrides) := by
  unfold MarkForm.parse
  split_ifs
  · exact failsAs_ok _
  · exact failsAs_bind (failsAs_compileOr _ _ _) fun _ _ =>
      failsAs_bind (failsAs_rejectNamedGroups _ _ _) fun _ _ => failsAs_ok _
  · refine failsAs_bind (failsAs_analyze pattern) fun layout _ => failsAs_bind (failsAs_mapM fun token _ => ?_)
      fun constraints _ => failsAs_bind (failsAs_mapM fun pieces _ => failsAs_groupNumbers _ _ _) fun _ _ =>
        failsAs_ok _
    exact failsAs_bind (failsAs_resolveConstraint _ _ _) fun _ _ => failsAs_ok _

theorem failsAs_namedForm (pattern : String) (overrides : Overrides) :
    FailsAs False (NamedForm.parse pattern overrides) := by
  unfold NamedForm.parse
  split_ifs
  · exact failsAs_ok _
  · exact failsAs_ok _
  · exact failsAs_bind (failsAs_analyze pattern) fun layout _ =>
      failsAs_bind (failsAs_mapM fun segment _ => failsAs_renderNamed _ _ _ _) fun _ _ =>
        failsAs_bind (failsAs_renderNamed _ _ _ _) fun _ _ =>
          failsAs_bind (failsAs_compileOr _ _ _) fun _ _ => failsAs_ok _

end Pattern

/-- **What can go wrong when a route is added**: its pattern is at fault, the engine is at a limit, or the mark strategy
loses a group that it put around a token. -/
theorem addRoute_error {collector : Collector} {route : Route} {e : Error} (h : collector.addRoute route = .error e) :
    e.Expected (collector.strategy = .mark) := by
  unfold Collector.addRoute at h
  split_ifs at h
  obtain ⟨strategy, size, hsize, buckets, seen⟩ := collector
  have hparse : Pattern.FailsAs (strategy = .mark) (strategy.parse route.path route.tokens) := by
    intro e he
    cases strategy with
    | mark =>
      have hexpected := Pattern.failsAs_markForm route.path route.tokens e he
      cases e <;> first | exact hexpected | rfl
    | named =>
      have hexpected := Pattern.failsAs_namedForm route.path route.tokens e he
      cases e <;> first | exact hexpected | exact hexpected.elim
  exact Pattern.failsAs_bind hparse (fun form _ => Pattern.failsAs_ok _) e h

/-! ## Named routes -/

/-- the path of the route holds no token and no chain -/
def Route.IsStatic (route : Route) : Prop := Pattern.isDynamic route.path = false

theorem compile_slash : ∃ regex, Regex.compile "/" = .ok regex := exists_of_isSome (by decide +kernel)

/-- The expression of an accepted route compiles, unless the route is static and its path does not. -/
theorem compiles_iff {route : Route} {form : Pattern.NamedForm}
    (hform : Pattern.NamedForm.parse route.path route.tokens = .ok form) :
    (∃ regex, Regex.compile form.regex = .ok regex) ↔
      (route.IsStatic → ∃ regex, Regex.compile route.path = .ok regex) := by
  unfold Pattern.NamedForm.parse at hform
  by_cases hroot : route.path = "" ∨ route.path = "/"
  · rw [if_pos (by simpa using hroot)] at hform
    cases hform
    refine iff_of_true compile_slash fun _ => ?_
    rcases hroot with hroot | hroot
    · rw [hroot]
      exact ⟨_, rfl⟩
    · rw [hroot]
      exact compile_slash
  rw [if_neg (by simpa using hroot)] at hform
  cases hdynamic : Pattern.isDynamic route.path with
  | false =>
    rw [hdynamic] at hform
    cases hform
    exact ⟨fun h _ => h, fun h => h hdynamic⟩
  | true =>
    rw [hdynamic] at hform
    refine iff_of_true ?_ fun hstatic => absurd (hdynamic.symm.trans hstatic) (by decide)
    obtain ⟨layout, -, hform⟩ := bind_eq_ok.1 hform
    obtain ⟨segments, -, hform⟩ := bind_eq_ok.1 hform
    obtain ⟨base, -, hform⟩ := bind_eq_ok.1 hform
    obtain ⟨regex, hregex, hform⟩ := bind_eq_ok.1 hform
    cases hform
    exact ⟨regex, Pattern.compile_of_compileOr hregex⟩

/-- A matcher of collected routes has compiled each of them in some chunk. -/
theorem chunk_of_matcher {collector : Collector} (hempty : collector.Empty) {routes : List Route}
    (hnames : (routes.map (·.name)).Nodup) {parsed : List (Collected collector.strategy)}
    (hparsed : routes.mapM (Route.collected collector.strategy) = .ok parsed) {matcher : Matcher}
    (hmatcher : Matcher.ofData (collector.addRoutes routes).1.data = .ok matcher) {item : Collected collector.strategy}
    (hitem : item ∈ parsed) :
    ∃ chunk compiled, item ∈ chunk ∧ (collector.strategy.chunk chunk).compile = .ok compiled := by
  obtain ⟨-, hgroups⟩ := data_of_collected hempty hnames hparsed
  obtain ⟨route, hpair⟩ : ∃ route, (route, item) ∈ routes.zip parsed := by
    obtain ⟨i, hi, rfl⟩ := List.mem_iff_getElem.1 hitem
    have hlength := (mapM_eq_ok.1 hparsed).length_eq
    refine ⟨routes[i], List.mem_iff_getElem.2 ⟨i, by simp [hlength, hi], by simp⟩⟩
  obtain ⟨bucket, hbucket⟩ := List.exists_mem_of_ne_nil route.buckets (buckets_ne_nil route)
  have hentry : (bucket, item) ∈ bucketEntries routes parsed :=
    List.mem_flatMap.2 ⟨(route, item), hpair, List.mem_map.2 ⟨bucket, hbucket, rfl⟩⟩
  have hwaits : item ∈ itemsOf bucket (bucketEntries routes parsed) :=
    List.mem_map.2 ⟨(bucket, item), List.mem_filter.2 ⟨hentry, by simp⟩, rfl⟩
  have hflatten := chunksOf_flatten collector.chunkSize_pos (itemsOf bucket (bucketEntries routes parsed)) le_rfl
  rw [← hflatten] at hwaits
  obtain ⟨chunk, hchunk, hmem⟩ := List.mem_flatten.1 hwaits
  obtain ⟨groups, hcompiled, -⟩ := bind_eq_ok.1 hmatcher
  rw [hgroups] at hcompiled
  obtain ⟨group, -, hgroup⟩ := exists_of_mem_mapM' hcompiled (List.mem_map.2 ⟨bucket, by
    rw [List.mem_eraseDups]
    exact List.mem_map_of_mem hentry, rfl⟩)
  obtain ⟨compiled, hchunks, -⟩ := bind_eq_ok.1 hgroup
  obtain ⟨one, -, hone⟩ := exists_of_mem_mapM' hchunks (List.mem_map_of_mem hchunk)
  exact ⟨chunk, one, hmem, hone⟩

/-- A matcher of named routes has compiled the expression of each of them. -/
theorem compiles_of_matcher {collector : Collector} (hempty : collector.Empty) (hstrategy : collector.strategy = .named)
    {routes : List Route} (hnames : (routes.map (·.name)).Nodup) (hadded : (collector.addRoutes routes).2 = .ok ())
    {matcher : Matcher} (hmatcher : Matcher.ofData (collector.addRoutes routes).1.data = .ok matcher) :
    ∀ route ∈ routes, route.Compiles := by
  obtain ⟨parsed, hparsed⟩ := (addRoutes_eq (by rwa [hempty.seen, List.nil_append])).2 hadded
  obtain ⟨strategy, chunkSize, hsize, buckets, seen⟩ := collector
  obtain rfl : strategy = .named := hstrategy
  intro route hroute
  obtain ⟨item, hitem, hcollected⟩ := exists_of_mem_mapM' hparsed hroute
  obtain ⟨form, hform, hitemform⟩ := bind_eq_ok.1 hcollected
  cases hitemform
  obtain ⟨chunk, compiled, hmem, hcompiled⟩ := chunk_of_matcher hempty hnames hparsed hmatcher hitem
  obtain ⟨entries, hentries, -⟩ := bind_eq_ok.1 hcompiled
  obtain ⟨entry, -, hentry⟩ := exists_of_mem_mapM' hentries (List.mem_map_of_mem hmem)
  obtain ⟨regex, hregex, -⟩ := bind_eq_ok.1 hentry
  exact ⟨form, regex, hform, mapError_eq_ok.1 hregex⟩

/-- **Accepted named routes make a matcher** just when their static paths compile, whatever the size of the chunks. -/
theorem named_matcher_iff (size : Int) (start : Collector) (hstart : Collector.make Strategy.named.name size = .ok start)
    (routes : List Route) (hnames : (routes.map (·.name)).Nodup) (hadded : (start.addRoutes routes).2 = .ok ()) :
    (∃ matcher, Matcher.ofData (start.addRoutes routes).1.data = .ok matcher) ↔
      ∀ route ∈ routes, route.IsStatic → ∃ regex, Regex.compile route.path = .ok regex := by
  have hempty := (Collector.make_eq_ok hstart).1
  have hnamed := Collector.strategy_of_make hstart
  constructor
  · rintro ⟨matcher, hmatcher⟩ route hroute
    obtain ⟨form, regex, hform, hregex⟩ := compiles_of_matcher hempty hnamed hnames hadded hmatcher route hroute
    exact (compiles_iff hform).1 ⟨regex, hregex⟩
  · intro hstatic
    obtain ⟨parsed, hparsed⟩ := (addRoutes_eq (by rwa [hempty.seen, List.nil_append])).2 hadded
    obtain ⟨strategy, chunkSize, hsize, buckets, seen⟩ := start
    obtain rfl : strategy = .named := hnamed
    have hcompiles : ∀ route ∈ routes, route.Compiles := by
      intro route hroute
      obtain ⟨item, -, hcollected⟩ := exists_of_mem_mapM' hparsed hroute
      obtain ⟨form, hform, -⟩ := bind_eq_ok.1 hcollected
      obtain ⟨regex, hregex⟩ := (compiles_iff hform).2 (hstatic route hroute)
      exact ⟨form, regex, hform, hregex⟩
    obtain ⟨matcher, hmatcher, -⟩ := exists_named_matcher hempty rfl hnames hadded hcompiles
    exact ⟨matcher, hmatcher⟩

/-- a route for any method without tokens of its own -/
def routeAt (path name : String) : Route := ⟨path, name, none, [], none, none, none⟩

/-- **Accepted routes that make no matcher.** A static path with an open parenthesis is taken by the named strategy, and
one that refers back to its first group is taken by the mark strategy, where the group has another number. -/
theorem accepted_routes_without_matcher :
    ((collectedData "named" 15 [routeAt "/a(" "open"]).toOption.map fun data =>
      (Matcher.ofData data).toOption.isSome) = some false ∧
    ((collectedData "mark" 15 [routeAt "/(a|b)/\\1" "twice"]).toOption.map fun data =>
      (Matcher.ofData data).toOption.isSome) = some false := by
  exact ⟨by decide +kernel, by decide +kernel⟩

/-- **The strategies differ** on a path that refers back to one of its groups: in a chunk the number is that of another
group. -/
theorem back_reference_told_apart :
    let routes := [routeAt "/x" "x", routeAt "/(a|b)/\\1" "twice"]
    (freshMatch "named" 15 routes "/a/a" "GET").toOption =
      some { status := .found, method := "GET", path := "/a/a", route := some "twice" } ∧
    (freshMatch "mark" 15 routes "/a/a" "GET").toOption =
      some { status := .notFound, method := "GET", path := "/a/a" } := by
  exact ⟨by decide +kernel, by decide +kernel⟩

end UrlRouter
