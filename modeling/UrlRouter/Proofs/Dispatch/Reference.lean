/-
Matching as one linear scan of the registered routes.

`answer` says what a request gets from a list of routes when each route is tested on its own: the first route that
lists the method, then the first route for any method, then the methods of the routes that match. Buckets, chunks and
compiled expressions do not occur in it.

Results:
- `answer_of_same_tests`: where tests find the same, the scan gives the same answer.
- `ofData_of_chunks`: if chunks compile and find the first of their routes, the collected data make a matcher, and it
  gives the answer of the scan for every path and method, whatever the size of the chunks.
-/
import Mathlib.Tactic
import UrlRouter.Dispatch.Matcher
import UrlRouter.Proofs.Dispatch.Buckets
import UrlRouter.Proofs.Route.Made

namespace UrlRouter

/-! ## The scan -/

/-- the attributes with which a route matches a path, if it does -/
abbrev RouteTest := Route → String → Option (List (String × String))

/-- the first of the routes that matches, by name -/
def firstMatch (test : RouteTest) (path : String) (routes : List Route) : Option Hit :=
  routes.findSome? fun route => (test route path).map (route.name, ·)

def routesListing (method : String) (routes : List Route) : List Route :=
  routes.filter (·.methodNames.contains method)

/-- the routes that list no method and so accept any -/
def routesForAny (routes : List Route) : List Route := routes.filter (·.sortedMethods.isEmpty)

/-- the listed methods in the order in which they first come -/
def listedMethods (routes : List Route) : List String := (routes.flatMap Route.methodNames).eraseDups

/-- the listed methods with a matching route, and the name of the first such route of each -/
def matchingMethods (test : RouteTest) (path : String) (routes : List Route) : List (String × String) :=
  (listedMethods routes).filterMap fun method =>
    (firstMatch test path (routesListing method routes)).map fun hit => (method, hit.1)

def answer (test : RouteTest) (routes : List Route) (path method : String) : MatchResult :=
  let method := Text.toUpper method
  match (firstMatch test path (routesListing method routes)).or (firstMatch test path (routesForAny routes)) with
  | some hit => { status := .found, method, path, route := some hit.1, attributes := hit.2 }
  | none =>
    match matchingMethods test path routes with
    | [] => { status := .notFound, method, path }
    | found => { status := .methodNotAllowed, method, path, allowed := found.map (·.1),
                 failed := (found.map (·.2)).eraseDups }

section

variable {test test' : RouteTest} {path other : String} {routes : List Route}

theorem firstMatch_of_same_tests (h : ∀ route ∈ routes, test' route other = test route path) :
    firstMatch test' other routes = firstMatch test path routes := by
  induction routes with
  | nil => rfl
  | cons route rest ih =>
    have hrest := ih fun next hnext => h next (List.mem_cons_of_mem route hnext)
    rw [firstMatch, firstMatch] at hrest ⊢
    rw [List.findSome?_cons, List.findSome?_cons, h route List.mem_cons_self, hrest]

/-- **Where tests find the same**, the scan gives the same answer. -/
theorem answer_of_same_tests (h : ∀ route ∈ routes, test' route other = test route path) (method : String) :
    answer test' routes other method = { answer test routes path method with path := other } := by
  have hpart : ∀ keep : Route → Bool,
      firstMatch test' other (routes.filter keep) = firstMatch test path (routes.filter keep) := fun keep =>
    firstMatch_of_same_tests fun route hroute => h route (List.mem_of_mem_filter hroute)
  have hmethods : matchingMethods test' other routes = matchingMethods test path routes :=
    List.filterMap_congr fun listed _ => by rw [routesListing, hpart]
  unfold answer
  dsimp only
  rw [hmethods, routesListing, routesForAny, hpart, hpart]
  cases (firstMatch test path (routes.filter (·.methodNames.contains (Text.toUpper method)))).or
      (firstMatch test path (routes.filter (·.sortedMethods.isEmpty))) with
  | some hit => rfl
  | none => cases matchingMethods test path routes <;> rfl

end

/-- The answer is about the path that was asked for. -/
theorem answer_path (test : RouteTest) (routes : List Route) (path method : String) :
    (answer test routes path method).path = path := by
  unfold answer
  dsimp only
  split
  · rfl
  · split <;> rfl

/-! ## Buckets against the scan -/

theorem toUpper_methodName (method : Method) : Text.toUpper method.name = method.name := by
  cases method <;> decide +kernel

theorem contains_buckets {route : Route} {bucket : String} :
    route.buckets.contains bucket =
      if bucket = anyMethod then route.sortedMethods.isEmpty else route.methodNames.contains bucket := by
  rw [buckets_eq]
  by_cases hbucket : bucket = anyMethod
  · rw [if_pos hbucket, hbucket]
    cases h : route.sortedMethods.isEmpty with
    | true => simp
    | false => simpa using any_not_mem_methodNames route
  · rw [if_neg hbucket]
    cases h : route.sortedMethods.isEmpty with
    | true =>
      have hnone : route.methodNames = [] := by rw [Route.methodNames, List.isEmpty_iff.1 h]; rfl
      simp [hnone, hbucket]
    | false => rfl

/-- What a bucket finds is the first match among the routes that go into it. -/
theorem findSome?_itemsOf {strategy : Strategy} (test : RouteTest) (path : String)
    (hit : Collected strategy → Option Hit) {routes : List Route} {parsed : List (Collected strategy)}
    (h : List.Forall₂ (fun route item => hit item = (test route path).map (route.name, ·)) routes parsed)
    (bucket : String) :
    (itemsOf bucket (bucketEntries routes parsed)).findSome? hit =
      firstMatch test path (routes.filter (·.buckets.contains bucket)) := by
  induction h with
  | nil => rfl
  | @cons route item routes parsed hitem _ ih =>
    rw [itemsOf_bucketEntries_cons, List.findSome?_append, ih, List.filter_cons]
    by_cases hmem : bucket ∈ route.buckets
    · have hfound : ((route.buckets.filter (· == bucket)).map fun _ => item).findSome? hit = hit item := by
        have hne : route.buckets.filter (· == bucket) ≠ [] :=
          List.ne_nil_of_mem (List.mem_filter.2 ⟨hmem, by simp⟩)
        obtain ⟨first, rest, hfilter⟩ := List.exists_cons_of_ne_nil hne
        rw [hfilter, List.map_cons, List.findSome?_cons]
        cases hhit : hit item with
        | some found => rfl
        | none => simp [hhit]
      rw [hfound, hitem, if_pos (by simpa using hmem), firstMatch, firstMatch, List.findSome?_cons]
      cases (test route path).map (route.name, ·) <;> rfl
    · have hnone : route.buckets.filter (· == bucket) = [] := by
        rw [List.filter_eq_nil_iff]
        intro other hother heq
        exact hmem (by rw [← beq_iff_eq.1 heq]; exact hother)
      rw [hnone, if_neg (by simpa using hmem)]
      rfl

/-- the first match among the routes of a bucket -/
def bucketMatch (test : RouteTest) (routes : List Route) (path bucket : String) : Option Hit :=
  firstMatch test path (routes.filter (·.buckets.contains bucket))

theorem bucketMatch_any (test : RouteTest) (routes : List Route) (path : String) :
    bucketMatch test routes path anyMethod = firstMatch test path (routesForAny routes) := by
  simp only [bucketMatch, routesForAny, contains_buckets, if_true]

theorem bucketMatch_method (test : RouteTest) (routes : List Route) (path : String) {method : String}
    (h : method ≠ anyMethod) :
    bucketMatch test routes path method = firstMatch test path (routesListing method routes) := by
  simp only [bucketMatch, routesListing, contains_buckets, if_neg h]

/-- The bucket of a method and then the one for any method find what the scan finds. -/
theorem bucketMatch_or (test : RouteTest) (routes : List Route) (path method : String) :
    (bucketMatch test routes path method).or (bucketMatch test routes path anyMethod) =
      (firstMatch test path (routesListing method routes)).or (firstMatch test path (routesForAny routes)) := by
  rw [bucketMatch_any]
  by_cases h : method = anyMethod
  · -- no route lists a method of this name
    have hnone : routesListing method routes = [] := by
      rw [routesListing, List.filter_eq_nil_iff]
      intro route _ hcontains
      exact any_not_mem_methodNames route (h ▸ List.contains_iff_mem.1 hcontains)
    rw [h, bucketMatch_any, ← h, hnone]
    exact Option.or_self
  · rw [bucketMatch_method _ _ _ h]

/-- Apart from the bucket for any method, the buckets are the listed methods. -/
theorem buckets_filter (routes : List Route) :
    ((routes.flatMap Route.buckets).eraseDups).filter (· ≠ anyMethod) = listedMethods routes := by
  rw [← eraseDups_filter, List.filter_flatMap, listedMethods]
  congr 1
  refine List.flatMap_congr fun route _ => ?_
  rw [buckets_eq]
  cases h : route.sortedMethods.isEmpty with
  | true =>
    have hnone : route.methodNames = [] := by rw [Route.methodNames, List.isEmpty_iff.1 h]; rfl
    simp [hnone]
  | false =>
    rw [if_neg (by simp), List.filter_eq_self]
    intro name hname
    simpa using fun heq : name = anyMethod => any_not_mem_methodNames route (heq ▸ hname)

/-- Where no route for any method matches, the buckets that have a match are the matching methods. -/
theorem filterMap_buckets (test : RouteTest) (routes : List Route) (path : String)
    (hany : bucketMatch test routes path anyMethod = none) :
    ((routes.flatMap Route.buckets).eraseDups).filterMap (fun bucket =>
        (bucketMatch test routes path bucket).map fun hit => (bucket, hit.1)) = matchingMethods test path routes := by
  rw [matchingMethods, ← buckets_filter, List.filterMap_filter]
  refine List.filterMap_congr fun bucket _ => ?_
  by_cases h : bucket = anyMethod
  · simp [h, hany]
  · simp [h, bucketMatch_method _ _ _ h]

/-! ## Compiled buckets -/

/-- A compiled chunk finds the first of its routes that hits. -/
def CompiledChunk.Finds {strategy : Strategy} (hit : String → Collected strategy → Option Hit)
    (chunk : List (Collected strategy)) (compiled : CompiledChunk) : Prop :=
  ∀ path, compiled.match? path = .ok (chunk.findSome? (hit path))

theorem firstHit_eq {strategy : Strategy} {hit : String → Collected strategy → Option Hit}
    {chunks : List (List (Collected strategy))} {compiled : List CompiledChunk}
    (h : List.Forall₂ (fun chunk compiled => compiled.Finds hit chunk) chunks compiled) (path : String) :
    Matcher.firstHit path compiled = .ok (chunks.flatten.findSome? (hit path)) := by
  induction h with
  | nil => rfl
  | @cons chunk first chunks compiled hfirst _ ih =>
    rw [Matcher.firstHit, hfirst path, ok_bind, List.flatten_cons, List.findSome?_append]
    cases chunk.findSome? (hit path) with
    | some found => rfl
    | none => exact ih

/-- The matcher of a list of buckets, each of which answers as `found` says. -/
structure Matcher.Answers (matcher : Matcher) (names : List String) (found : String → String → Option Hit) : Prop where
  keys : matcher.groups.map (·.1) = names
  hits : ∀ group ∈ matcher.groups, ∀ path, Matcher.firstHit path group.2 = .ok (found path group.1)
  others : ∀ bucket ∉ names, ∀ path, found path bucket = none

theorem Matcher.Answers.matchBucket {matcher : Matcher} {names : List String} {found : String → String → Option Hit}
    (h : matcher.Answers names found) (bucket path : String) :
    matcher.matchBucket bucket path = .ok (found path bucket) := by
  unfold Matcher.matchBucket
  cases hlookup : matcher.groups.lookup bucket with
  | some chunks =>
    obtain ⟨before, after, hsplit, -⟩ := List.lookup_eq_some_iff.1 hlookup
    exact h.hits (bucket, chunks) (by simp [hsplit]) path
  | none =>
    have hbucket : bucket ∉ names := by
      rw [← h.keys]
      intro hmem
      obtain ⟨group, hgroup, rfl⟩ := List.mem_map.1 hmem
      have hne := List.lookup_eq_none_iff.1 hlookup group hgroup
      simp at hne
    rw [h.others bucket hbucket path]
    rfl

/-- items added to a list one after the other, each only once -/
def addAllNew (items : List String) (start : List String) : List String :=
  items.foldl (fun items item => Matcher.addNew item items) start

theorem addAllNew_nil (items : List String) : addAllNew items [] = items.eraseDups := by
  induction items using List.reverseRecOn with
  | nil => rfl
  | append_singleton items item ih =>
    have hstep : addAllNew (items ++ [item]) [] = Matcher.addNew item (addAllNew items []) := by
      simp [addAllNew, List.foldl_append]
    rw [hstep, ih, eraseDups_concat, Matcher.addNew]
    simp only [List.contains_iff_mem, List.mem_eraseDups]

theorem scan_eq {groups : List (String × List CompiledChunk)} {found : String → String → Option Hit} {path : String}
    (h : ∀ group ∈ groups, Matcher.firstHit path group.2 = .ok (found path group.1)) (allowed failed : List String) :
    Matcher.scan path groups allowed failed =
      let hits := (groups.map (·.1)).filterMap fun bucket => (found path bucket).map fun hit => (bucket, hit.1)
      .ok (addAllNew (hits.map (·.1)) allowed, addAllNew (hits.map (·.2)) failed) := by
  induction groups generalizing allowed failed with
  | nil => rfl
  | cons group groups ih =>
    obtain ⟨bucket, chunks⟩ := group
    have hrest := ih fun g hg => h g (List.mem_cons_of_mem _ hg)
    rw [Matcher.scan, h (bucket, chunks) List.mem_cons_self, ok_bind, List.map_cons]
    cases hfound : found path bucket with
    | none => simp only [hrest, List.filterMap_cons, hfound, Option.map_none]
    | some hit => simp [hrest, hfound, addAllNew]

/-- **A matcher whose buckets find the first match of their routes gives the answer of the scan.** -/
theorem match'_eq_answer {matcher : Matcher} {test : RouteTest} {routes : List Route}
    (h : matcher.Answers (routes.flatMap Route.buckets).eraseDups fun path => bucketMatch test routes path)
    (path method : String) : matcher.match' path method = .ok (answer test routes path method) := by
  unfold Matcher.match' answer
  simp only [h.matchBucket, ok_bind, ← bucketMatch_or]
  cases hmethod : bucketMatch test routes path (Text.toUpper method) with
  | some hit => rfl
  | none =>
    cases hany : bucketMatch test routes path anyMethod with
    | some hit => rfl
    | none =>
      have hscan := scan_eq (fun group hgroup => h.hits group hgroup path) [] []
      simp only [h.keys, filterMap_buckets test routes path hany, addAllNew_nil] at hscan
      have hnodup : ((matchingMethods test path routes).map (·.1)).Nodup := by
        rw [matchingMethods, List.map_filterMap, List.Nodup, List.pairwise_filterMap]
        refine (nodup_eraseDups (routes.flatMap Route.methodNames)).imp fun {a b} hab x hx y hy hxy => hab ?_
        simp only [Option.map_map, Option.map_eq_some_iff, Function.comp] at hx hy
        obtain ⟨_, -, rfl⟩ := hx
        obtain ⟨_, -, rfl⟩ := hy
        exact hxy
      simp only [Option.or_none, hscan, ok_bind, eraseDups_of_nodup hnodup]
      cases matchingMethods test path routes <;> rfl

/-- the route of that name, tested -/
def hitByName (test : RouteTest) (routes : List Route) (path name : String) : Option Hit :=
  (routes.find? (·.name == name)).bind fun route => (test route path).map (route.name, ·)

theorem hitByName_eq (test : RouteTest) {routes : List Route} (hnames : (routes.map (·.name)).Nodup) (path : String)
    {route : Route} (h : route ∈ routes) :
    hitByName test routes path route.name = (test route path).map (route.name, ·) := by
  rw [hitByName, find?_of_nodup hnames h]
  rfl

theorem findSome?_hitByName {strategy : Strategy} (test : RouteTest) {routes : List Route}
    (hnames : (routes.map (·.name)).Nodup) (path : String) {part : List Route} {chunk : List (Collected strategy)}
    (hmem : ∀ route ∈ part, route ∈ routes)
    (h : List.Forall₂ (fun route item => route.collected strategy = .ok item) part chunk) :
    chunk.findSome? (fun item => hitByName test routes path item.name) = firstMatch test path part := by
  induction h with
  | nil => rfl
  | @cons route item part chunk hitem _ ih =>
    rw [firstMatch, List.findSome?_cons, List.findSome?_cons, name_of_collected hitem,
      hitByName_eq test hnames path (hmem route List.mem_cons_self),
      ih fun other hother => hmem other (List.mem_cons_of_mem route hother)]
    rfl

/-- every chunk of these routes compiles, and finds the first of its routes that matches -/
def ChunksFind (strategy : Strategy) (test : RouteTest) (routes : List Route) : Prop :=
  ∀ (part : List Route) (chunk : List (Collected strategy)), part ≠ [] → (∀ route ∈ part, route ∈ routes) →
    List.Forall₂ (fun route item => route.collected strategy = .ok item) part chunk →
    ∃ compiled, (strategy.chunk chunk).compile = .ok compiled ∧
      ∀ path, compiled.match? path = .ok (firstMatch test path part)

/-- Every bucket of collected routes compiles, chunk by chunk, and finds the first match of its routes. -/
theorem exists_compiled_bucket {strategy : Strategy} {test : RouteTest} {routes : List Route} {size : Nat}
    (hsize : 0 < size) (hnames : (routes.map (·.name)).Nodup) {parsed : List (Collected strategy)}
    (hparsed : routes.mapM (Route.collected strategy) = .ok parsed) (hchunks : ChunksFind strategy test routes)
    (bucket : String) :
    ∃ compiled : List CompiledChunk,
      ((chunksOf size (itemsOf bucket (bucketEntries routes parsed)).length
        (itemsOf bucket (bucketEntries routes parsed))).map strategy.chunk).mapM Chunk.compile = .ok compiled ∧
      ∀ path, Matcher.firstHit path compiled = .ok (bucketMatch test routes path bucket) := by
  have hpairs := mapM_eq_ok.1 hparsed
  have hitem : ∀ path, List.Forall₂ (fun route (item : Collected strategy) =>
      hitByName test routes path item.name = (test route path).map (route.name, ·)) routes parsed := by
    intro path
    rw [List.forall₂_iff_get] at hpairs ⊢
    refine ⟨hpairs.1, fun i h1 h2 => ?_⟩
    rw [name_of_collected (hpairs.2 i h1 h2), hitByName_eq test hnames path (List.get_mem routes _)]
  have hchunk : ∀ chunk ∈ chunksOf size (itemsOf bucket (bucketEntries routes parsed)).length
      (itemsOf bucket (bucketEntries routes parsed)),
      ∃ compiled, (strategy.chunk chunk).compile = .ok compiled ∧
        compiled.Finds (fun path item => hitByName test routes path item.name) chunk := by
    intro chunk hmem
    obtain ⟨hne, hsub⟩ := ne_nil_of_mem_chunksOf hsize hmem
    obtain ⟨part, hpart⟩ := forall₂_of_exists fun item hitem =>
      exists_route_of_mem_itemsOf hpairs (hsub item hitem)
    obtain ⟨hmem, hcollected⟩ := (List.forall₂_and_left _ _).1 hpart.flip
    obtain ⟨compiled, hcompiled, hmatch⟩ := hchunks part chunk
      (fun hnil => hne (by rw [hnil] at hpart; exact List.forall₂_nil_right_iff.1 hpart)) hmem hcollected
    exact ⟨compiled, hcompiled, fun path => by rw [hmatch path, findSome?_hitByName test hnames path hmem hcollected]⟩
  obtain ⟨compiled, hcompiled⟩ := forall₂_of_exists hchunk
  refine ⟨compiled, ?_, fun path => ?_⟩
  · rw [mapM_eq_ok, List.forall₂_map_left_iff]
    exact hcompiled.imp fun _ _ h => h.1
  · rw [firstHit_eq (hcompiled.imp fun _ _ h => h.2) path, chunksOf_flatten hsize _ le_rfl,
      findSome?_itemsOf test path _ (hitem path) bucket, bucketMatch]

/-- **Collected routes are matched as the scan says**, if every chunk of them compiles and finds its first match. -/
theorem ofData_of_chunks {collector : Collector} (hempty : collector.Empty) {routes : List Route}
    (hnames : (routes.map (·.name)).Nodup) {parsed : List (Collected collector.strategy)}
    (hparsed : routes.mapM (Route.collected collector.strategy) = .ok parsed) {test : RouteTest}
    (hchunks : ChunksFind collector.strategy test routes) :
    ∃ matcher, Matcher.ofData (collector.addRoutes routes).1.data = .ok matcher ∧
      ∀ path method, matcher.match' path method = .ok (answer test routes path method) := by
  obtain ⟨-, hgroups⟩ := data_of_collected hempty hnames hparsed
  have hlength : routes.length = parsed.length := (mapM_eq_ok.1 hparsed).length_eq
  choose compiled hcompiled hfinds using
    exists_compiled_bucket collector.chunkSize_pos hnames hparsed hchunks
  refine ⟨⟨(routes.flatMap Route.buckets).eraseDups.map fun bucket => (bucket, compiled bucket)⟩, ?_, fun path method =>
    match'_eq_answer ⟨?_, ?_, ?_⟩ path method⟩
  · unfold Matcher.ofData
    rw [hgroups, map_fst_bucketEntries hlength]
    have hmapM : ((routes.flatMap Route.buckets).eraseDups.map fun bucket =>
        (bucket, (chunksOf collector.chunkSize (itemsOf bucket (bucketEntries routes parsed)).length
          (itemsOf bucket (bucketEntries routes parsed))).map collector.strategy.chunk)).mapM
          (fun group : String × List Chunk => do return (group.1, ← group.2.mapM Chunk.compile)) =
        (.ok ((routes.flatMap Route.buckets).eraseDups.map fun bucket => (bucket, compiled bucket)) :
          Except MatcherError _) := by
      rw [mapM_eq_ok, List.forall₂_map_left_iff, List.forall₂_map_right_iff, List.forall₂_same]
      intro bucket _
      show ((chunksOf collector.chunkSize _ _).map collector.strategy.chunk).mapM Chunk.compile >>= _ = _
      rw [hcompiled bucket]
      rfl
    exact congrArg (· >>= fun groups => Except.ok (Matcher.mk groups)) hmapM
  · rw [List.map_map]
    exact List.map_id _
  · intro group hgroup path
    obtain ⟨bucket, -, rfl⟩ := List.mem_map.1 hgroup
    exact hfinds bucket path
  · intro bucket hmem path
    rw [List.mem_eraseDups] at hmem
    have hnone : routes.filter (·.buckets.contains bucket) = [] := by
      rw [List.filter_eq_nil_iff]
      intro route hroute hcontains
      exact hmem (List.mem_flatMap.2 ⟨route, hroute, List.contains_iff_mem.1 hcontains⟩)
    rw [bucketMatch, hnone]
    rfl

end UrlRouter
