/-
Requests for the wrong method.

A path that is known for other methods only is refused with the list of these methods. A request that tries again with
one of them is answered, and with any other method it is refused again. An unknown path stays unknown for all methods.

Results:
- `firstHit_of_scan`: when every bucket was looked through, none of them failed.
- `unmatched_spec`: what is known of a request that no route answers.
- `refusal_exact`: the methods that a refused request is told are those that would be answered, and so is the header
  that the client receives.
-/
import Mathlib.Tactic
import UrlRouter.Http.RoutingHandler
import UrlRouter.Proofs.Dispatch.DataText
import UrlRouter.Proofs.Dispatch.Hits

namespace UrlRouter

/-! ## Buckets that were looked through -/

/-- The buckets of a matcher are those of its data. -/
theorem keys_of_ofData {data : DispatchData} {matcher : Matcher} (h : Matcher.ofData data = .ok matcher) :
    matcher.groups.map (·.1) = data.groups.map (·.1) := by
  obtain ⟨groups, hgroups, h⟩ := bind_eq_ok.1 h
  cases h
  have hkeys : List.Forall₂ (· = ·) (data.groups.map (·.1)) (groups.map (·.1)) := by
    rw [List.forall₂_map_left_iff, List.forall₂_map_right_iff]
    refine (mapM_eq_ok.1 hgroups).imp fun group compiled hgroup => ?_
    obtain ⟨chunks, -, hgroup⟩ := bind_eq_ok.1 hgroup
    cases hgroup
    rfl
  rw [List.forall₂_eq_eq_eq] at hkeys
  exact hkeys.symm

theorem firstHit_of_scan {path : String} {groups : List (String × List CompiledChunk)}
    {allowed failed : List String} {found : List String × List String}
    (h : Matcher.scan path groups allowed failed = .ok found) :
    ∀ group ∈ groups, ∃ hit, Matcher.firstHit path group.2 = .ok hit := by
  induction groups generalizing allowed failed with
  | nil => exact fun group hgroup => absurd hgroup List.not_mem_nil
  | cons first groups ih =>
    obtain ⟨bucket, chunks⟩ := first
    obtain ⟨hit, hhit, h⟩ := bind_eq_ok.1 h
    intro group hgroup
    rcases List.mem_cons.1 hgroup with rfl | hgroup
    · exact ⟨hit, hhit⟩
    · cases hit with
      | none => exact ih h group hgroup
      | some hit => exact ih h group hgroup

/-- what a bucket finds for a path; nothing if it cannot be looked through -/
def Matcher.found? (matcher : Matcher) (path bucket : String) : Option Hit :=
  (matcher.matchBucket bucket path).toOption.join

/-- the buckets that have a match for a path, each with the name of its first matching route -/
def Matcher.openBuckets (matcher : Matcher) (path : String) : List (String × String) :=
  (matcher.groups.map (·.1)).filterMap fun bucket => (matcher.found? path bucket).map fun hit => (bucket, hit.1)

variable {matcher : Matcher} {path : String}

theorem fst_openBuckets_sublist (matcher : Matcher) (path : String) :
    ((matcher.openBuckets path).map (·.1)).Sublist (matcher.groups.map (·.1)) := by
  rw [Matcher.openBuckets, List.map_filterMap]
  generalize matcher.groups.map (·.1) = keys
  induction keys with
  | nil => exact List.Sublist.refl _
  | cons key keys ih =>
    rw [List.filterMap_cons]
    cases matcher.found? path key with
    | none => exact ih.cons key
    | some hit => exact ih.cons_cons key

/-- A bucket is open just when it finds something. -/
theorem mem_openBuckets {bucket name : String} :
    (bucket, name) ∈ matcher.openBuckets path ↔ ∃ hit, matcher.found? path bucket = some hit ∧ hit.1 = name := by
  unfold Matcher.openBuckets
  rw [List.mem_filterMap]
  constructor
  · rintro ⟨key, -, hopen⟩
    obtain ⟨hit, hhit, hpair⟩ := Option.map_eq_some_iff.1 hopen
    cases hpair
    exact ⟨hit, hhit, rfl⟩
  · rintro ⟨hit, hhit, rfl⟩
    refine ⟨bucket, ?_, by rw [hhit]; rfl⟩
    by_contra hbucket
    have hnone : matcher.groups.lookup bucket = none := List.lookup_eq_none_iff.2 fun group hgroup =>
      by simpa using fun heq : bucket = group.1 => hbucket (heq ▸ List.mem_map_of_mem hgroup)
    rw [Matcher.found?, Matcher.matchBucket, hnone] at hhit
    cases hhit

theorem mem_map_openBuckets {bucket : String} :
    bucket ∈ (matcher.openBuckets path).map (·.1) ↔ ∃ hit, matcher.found? path bucket = some hit := by
  rw [List.mem_map]
  constructor
  · rintro ⟨⟨bucket, name⟩, hopen, rfl⟩
    obtain ⟨hit, hhit, -⟩ := mem_openBuckets.1 hopen
    exact ⟨hit, hhit⟩
  · rintro ⟨hit, hhit⟩
    exact ⟨(bucket, hit.1), mem_openBuckets.2 ⟨hit, hhit, rfl⟩, rfl⟩

/-- what a request is told that no route answers -/
def Matcher.unmatched (matcher : Matcher) (path method : String) : MatchResult :=
  let method := Text.toUpper method
  match matcher.openBuckets path with
  | [] => { status := .notFound, method, path }
  | found => { status := .methodNotAllowed, method, path, allowed := found.map (·.1),
               failed := (found.map (·.2)).eraseDups }

/-- It is an unknown path when no bucket is open, and otherwise a refusal that lists the open ones. -/
theorem unmatched_cases (matcher : Matcher) (path method : String) :
    matcher.openBuckets path = [] ∧ (matcher.unmatched path method).status = .notFound ∨
    matcher.openBuckets path ≠ [] ∧ (matcher.unmatched path method).status = .methodNotAllowed ∧
      (matcher.unmatched path method).allowed = (matcher.openBuckets path).map (·.1) ∧
      (matcher.unmatched path method).failed = ((matcher.openBuckets path).map (·.2)).eraseDups := by
  unfold Matcher.unmatched
  cases matcher.openBuckets path with
  | nil => exact .inl ⟨rfl, rfl⟩
  | cons first rest => exact .inr ⟨List.cons_ne_nil _ _, rfl, rfl, rfl⟩

/-- All buckets can be looked through for a path. -/
structure Matcher.Surveyed (matcher : Matcher) (path : String) : Prop where
  keys : (matcher.groups.map (·.1)).Nodup
  hits : ∀ group ∈ matcher.groups, Matcher.firstHit path group.2 = .ok (matcher.found? path group.1)

theorem surveyed_of_scan (hkeys : (matcher.groups.map (·.1)).Nodup) {allowed failed : List String}
    {found : List String × List String} (h : Matcher.scan path matcher.groups allowed failed = .ok found) :
    matcher.Surveyed path := by
  refine ⟨hkeys, fun group hgroup => ?_⟩
  obtain ⟨hit, hhit⟩ := firstHit_of_scan h group hgroup
  have hlookup : matcher.groups.lookup group.1 = some group.2 := lookup_of_nodup hkeys hgroup
  rw [Matcher.found?, Matcher.matchBucket, hlookup, Option.getD_some, hhit]
  rfl

namespace Matcher.Surveyed

variable (h : matcher.Surveyed path)
include h

theorem matchBucket_eq (bucket : String) : matcher.matchBucket bucket path = .ok (matcher.found? path bucket) := by
  have hsome : ∃ hit, matcher.matchBucket bucket path = .ok hit := by
    unfold Matcher.matchBucket
    cases hlookup : matcher.groups.lookup bucket with
    | none => exact ⟨none, rfl⟩
    | some chunks =>
      obtain ⟨before, after, hsplit, -⟩ := List.lookup_eq_some_iff.1 hlookup
      exact ⟨_, h.hits (bucket, chunks) (by simp [hsplit])⟩
  obtain ⟨hit, hhit⟩ := hsome
  rw [Matcher.found?, hhit]
  rfl

/-- Looking through the buckets finds the open ones. -/
theorem scan_eq_openBuckets : Matcher.scan path matcher.groups [] [] =
    .ok ((matcher.openBuckets path).map (·.1), ((matcher.openBuckets path).map (·.2)).eraseDups) := by
  have hnodup : ((matcher.openBuckets path).map (·.1)).Nodup := (fst_openBuckets_sublist matcher path).nodup h.keys
  have hscan := @scan_eq _ matcher.found? path h.hits [] []
  dsimp only at hscan
  rw [hscan, addAllNew_nil, addAllNew_nil]
  congr 2
  exact eraseDups_of_nodup hnodup

/-- **Every request for this path** is answered by the bucket of its method, then by the one for any method, and is
otherwise told which buckets are open. -/
theorem match'_eq (method : String) : matcher.match' path method = .ok (
    match (matcher.found? path (Text.toUpper method)).or (matcher.found? path anyMethod) with
    | some hit => { status := .found, method := Text.toUpper method, path, route := some hit.1, attributes := hit.2 }
    | none => matcher.unmatched path method) := by
  unfold Matcher.match' Matcher.unmatched
  simp only [h.matchBucket_eq, ok_bind, h.scan_eq_openBuckets]
  cases matcher.found? path (Text.toUpper method) with
  | some hit => rfl
  | none =>
    cases matcher.found? path anyMethod with
    | some hit => rfl
    | none => cases matcher.openBuckets path <;> rfl

end Matcher.Surveyed

/-! ## Requests that are not answered -/

/-- what is known of a path for which neither the bucket of a method nor the one for any method has a match -/
structure Matcher.Unanswered (matcher : Matcher) (path method : String) : Prop where
  surveyed : matcher.Surveyed path
  own : matcher.found? path (Text.toUpper method) = none
  any : matcher.found? path anyMethod = none

/-- A request that no route answers looked through all buckets. -/
theorem unmatched_spec (hkeys : (matcher.groups.map (·.1)).Nodup) {method : String} {result : MatchResult}
    (hresult : matcher.match' path method = .ok result) (hstatus : result.status ≠ .found) :
    matcher.Unanswered path method ∧ result = matcher.unmatched path method := by
  obtain ⟨own, hown, h⟩ := bind_eq_ok.1 hresult
  cases own with
  | some hit =>
    cases h
    exact absurd rfl hstatus
  | none =>
    obtain ⟨any, hany, h⟩ := bind_eq_ok.1 h
    cases any with
    | some hit =>
      cases h
      exact absurd rfl hstatus
    | none =>
      obtain ⟨found, hscan, -⟩ := bind_eq_ok.1 h
      have hun : matcher.Unanswered path method :=
        ⟨surveyed_of_scan hkeys hscan, by rw [Matcher.found?, hown]; rfl, by rw [Matcher.found?, hany]; rfl⟩
      rw [hun.surveyed.match'_eq, hun.own, hun.any] at hresult
      exact ⟨hun, (Except.ok.inj hresult).symm⟩

/-- A refusal that tells exactly which other methods would be answered, and by which routes. -/
structure MatchResult.TellsRetries (result : MatchResult) (matcher : Matcher) (path method : String) : Prop where
  some_method : result.allowed ≠ []
  nodup : result.allowed.Nodup
  not_own : Text.toUpper method ∉ result.allowed
  not_any : anyMethod ∉ result.allowed
  retries : ∀ other, ∃ retry, matcher.match' path other = .ok retry ∧
    (retry.status = .found ↔ Text.toUpper other ∈ result.allowed)
  routes : ∃ names, result.failed = names.eraseDups ∧ List.Forall₂ (fun bucket name =>
    Text.toUpper bucket = bucket ∧ ∀ other, Text.toUpper other = bucket →
      ∃ retry, matcher.match' path other = .ok retry ∧ retry.status = .found ∧ retry.route = some name)
    result.allowed names

/-- Another method is answered just when its bucket is open. -/
theorem Matcher.Unanswered.retry {method : String} (h : matcher.Unanswered path method) (other : String) :
    ∃ retry, matcher.match' path other = .ok retry ∧
      (retry.status = .found ↔ Text.toUpper other ∈ (matcher.openBuckets path).map (·.1)) := by
  refine ⟨_, h.surveyed.match'_eq other, ?_⟩
  rw [mem_map_openBuckets, h.any, Option.or_none]
  cases matcher.found? path (Text.toUpper other) with
  | some hit => simp
  | none => rcases unmatched_cases matcher path other with ⟨-, hstatus⟩ | ⟨-, hstatus, -⟩ <;> simp [hstatus]

theorem gathers_of_make {strategy : String} {size : Int} {start : Collector}
    (hstart : Collector.make strategy size = .ok start) (calls : List (List Route)) :
    (start.run calls).Gathers calls.flatten :=
  gathers_run ((Collector.make_eq_ok hstart).1.gathers _) fun call hcall _ hroute =>
    List.mem_flatten.2 ⟨call, hcall, hroute⟩

/-- Every open bucket of collected routes other than the one for any method is that of an upper-case method. -/
theorem toUpper_of_found {collector : Collector} {routes : List Route} (hgathers : collector.Gathers routes)
    (hmatcher : Matcher.ofData collector.data = .ok matcher) (h : matcher.Surveyed path) {bucket : String} {hit : Hit}
    (hhit : matcher.found? path bucket = some hit) (hbucket : bucket ≠ anyMethod) : Text.toUpper bucket = bucket := by
  obtain ⟨route, -, hgoes, -⟩ := route_of_bucketHit hgathers hmatcher ((h.matchBucket_eq bucket).trans (by rw [hhit]))
  rw [buckets_eq] at hgoes
  split_ifs at hgoes
  · exact absurd (List.mem_singleton.1 hgoes) hbucket
  · obtain ⟨method, -, rfl⟩ := List.mem_map.1 hgoes
    exact toUpper_methodName method

/-- The open buckets name the routes that a request with their method finds. -/
theorem Matcher.Unanswered.routes {method : String} (h : matcher.Unanswered path method) {collector : Collector}
    {routes : List Route} (hgathers : collector.Gathers routes) (hmatcher : Matcher.ofData collector.data = .ok matcher) :
    List.Forall₂ (fun bucket name => Text.toUpper bucket = bucket ∧ ∀ other, Text.toUpper other = bucket →
      ∃ retry, matcher.match' path other = .ok retry ∧ retry.status = .found ∧ retry.route = some name)
      ((matcher.openBuckets path).map (·.1)) ((matcher.openBuckets path).map (·.2)) := by
  rw [List.forall₂_map_left_iff, List.forall₂_map_right_iff, List.forall₂_same]
  rintro ⟨bucket, name⟩ hmem
  obtain ⟨hit, hhit, rfl⟩ := mem_openBuckets.1 hmem
  have hbucket : bucket ≠ anyMethod := by
    rintro rfl
    rw [h.any] at hhit
    cases hhit
  refine ⟨toUpper_of_found hgathers hmatcher h.surveyed hhit hbucket, fun other hother => ?_⟩
  refine ⟨_, h.surveyed.match'_eq other, ?_⟩
  rw [hother, hhit]
  exact ⟨rfl, rfl⟩

/-- **A refused request is told exactly what would be answered.** Whatever routes a collector of either strategy was
given, if its data make a matcher and a request is refused for its method, then a request for the same path with
another method is found just when the method is one of those that the refusal lists, in any spelling; the refusal also
names the routes that these requests find. The handler passes the list on to the client. If a request is answered by
an unknown path instead, the path is unknown for every method. -/
theorem refusal_exact (strategy : String) (size : Int) (start : Collector)
    (hstart : Collector.make strategy size = .ok start) (calls : List (List Route)) (matcher : Matcher)
    (hmatcher : Matcher.ofData (start.run calls).data = .ok matcher) (path method : String) (result : MatchResult)
    (hresult : matcher.match' path method = .ok result) :
    (result.status = .methodNotAllowed → result.TellsRetries matcher path method ∧
      ∀ (σ : Type) (handler : RoutingHandler) (clock : Clock) (site : Site σ) (request : Request) (id : String)
        (session : Session) (state : σ), ∃ response : Response,
        (handler.answerMatch clock site request id result session state).answer = .ok response ∧
          response.status = 405 ∧ response.headers.lookup "Allow" = some (", ".intercalate result.allowed)) ∧
    (result.status = .notFound →
      ∀ other, ∃ retry, matcher.match' path other = .ok retry ∧ retry.status = .notFound) := by
  have hgathers := gathers_of_make hstart calls
  have hkeys : (matcher.groups.map (·.1)).Nodup := keys_of_ofData hmatcher ▸ hgathers.keyed.buckets
  constructor
  · intro hstatus
    obtain ⟨hun, rfl⟩ := unmatched_spec hkeys hresult (by rw [hstatus]; decide)
    rcases unmatched_cases matcher path method with ⟨-, hunknown⟩ | ⟨hopen, -, hallowed, hfailed⟩
    · rw [hunknown] at hstatus
      cases hstatus
    refine ⟨?_, fun σ handler clock site request id session state => ?_⟩
    · exact {
        some_method := by simpa [hallowed] using hopen
        nodup := hallowed ▸ (fst_openBuckets_sublist matcher path).nodup hkeys
        not_own := by simp [hallowed, mem_map_openBuckets, hun.own, -List.mem_map]
        not_any := by simp [hallowed, mem_map_openBuckets, hun.any, -List.mem_map]
        retries := hallowed ▸ hun.retry
        routes := ⟨_, hfailed, hallowed ▸ hun.routes hgathers hmatcher⟩ }
    · unfold RoutingHandler.answerMatch
      rw [hstatus]
      exact ⟨_, rfl, rfl, (lookup_insertValue _ _ _ _).trans (if_pos rfl)⟩
  · intro hstatus other
    obtain ⟨hun, rfl⟩ := unmatched_spec hkeys hresult (by rw [hstatus]; decide)
    rcases unmatched_cases matcher path method with ⟨hclosed, -⟩ | ⟨-, hrefused, -⟩
    · obtain ⟨retry, hretry, hfound⟩ := hun.retry other
      rw [hclosed] at hfound
      obtain ⟨-, rfl⟩ := unmatched_spec hkeys hretry fun h => absurd (hfound.1 h) List.not_mem_nil
      rcases unmatched_cases matcher path other with ⟨-, hunknown⟩ | ⟨hopen, -⟩
      · exact ⟨_, hretry, hunknown⟩
      · exact absurd hclosed hopen
    · rw [hrefused] at hstatus
      cases hstatus

/-- Orders can be read and changed under one name and dropped under another; pages take any method. -/
def shopRoutes : List Route := [
  ⟨"/orders/\x7bid\x7d", "order", some [.get, .put], [], none, none, none⟩,
  ⟨"/orders/\x7bid:[0-9]+\x7d", "drop", some [.get, .delete], [], none, none, none⟩,
  ⟨"/pages", "pages", none, [], none, none, none⟩]

/-- An order cannot be posted. The refusal tells its three methods and its two routes. -/
theorem shopRefusal_exact :
    ∃ start matcher result, Collector.make "mark" 1 = .ok start ∧
      Matcher.ofData (start.run [shopRoutes]).data = .ok matcher ∧ matcher.match' "/orders/7" "post" = .ok result ∧
      result.allowed = ["GET", "PUT", "DELETE"] ∧ result.failed = ["order", "drop"] ∧
      result.TellsRetries matcher "/orders/7" "post" := by
  let start : Collector := ⟨.mark, 1, by decide, [], []⟩
  have hanswer : ((start.run [shopRoutes]).data.answer "/orders/7" "post").toOption =
      some { status := .methodNotAllowed, method := "POST", path := "/orders/7", allowed := ["GET", "PUT", "DELETE"],
             failed := ["order", "drop"] } := by decide +kernel
  obtain ⟨matcher, hmatcher, hresult⟩ := bind_eq_ok.1 (toOption_eq_some.1 hanswer)
  exact ⟨start, matcher, _, rfl, hmatcher, hresult, rfl, rfl,
    ((refusal_exact "mark" 1 start rfl [shopRoutes] matcher hmatcher "/orders/7" "post" _ hresult).1 rfl).1⟩

end UrlRouter
