/-
What a detector of duplicates accepts.

A detector keeps the names that are taken and, for each path, the methods that are taken, but no routes. `Detector.Holds`
says which routes these names and methods come from. Every call keeps this, so that the detector answers as if it had
looked through the routes themselves.

Results:
- `Detector.Holds.error_iff`: a route is rejected just when it collides with an accepted one.
- `Detector.Holds.tells_of_error`: the error tells with which.
- `holds_call`, `holds_run`: after any calls, the detector holds the routes accepted since it was last reset.
- `collisions_exact`: all of this together, and that no two accepted routes collide.
-/
import Mathlib.Tactic
import UrlRouter.Proofs.Route.Made
import UrlRouter.Route.Duplicates

namespace UrlRouter

/-! ## Routes that collide -/

/-- whether some method would be answered by both routes -/
def Route.SharesMethod (route other : Route) : Prop :=
  route.allowsAnyMethod = true ∨ other.allowsAnyMethod = true ∨
    ∃ method ∈ route.sortedMethods, method ∈ other.sortedMethods

/-- routes that cannot be registered together -/
def Route.Collides (route other : Route) : Prop :=
  route.name = other.name ∨ (route.path = other.path ∧ route.SharesMethod other)

@[symm]
theorem Route.SharesMethod.symm {route other : Route} (h : route.SharesMethod other) : other.SharesMethod route := by
  rcases h with hany | hany | ⟨method, hroute, hother⟩
  · exact .inr (.inl hany)
  · exact .inl hany
  · exact .inr (.inr ⟨method, hother, hroute⟩)

/-- the claims that a route makes when it is accepted -/
def Route.claims (route : Route) : List Claim := route.buckets.map (⟨route.path, ·, route.name⟩)

/-- Claims of another route stand in the way just when a method is shared. -/
theorem exists_clash_iff {route other : Route} (hroute : route.Made) (hother : other.Made) :
    (∃ bucket ∈ other.buckets, Detector.Claim.clashes ⟨other.path, bucket, other.name⟩ route.buckets = true) ↔
      route.SharesMethod other := by
  have hnotAny : ∀ method : Method, method.name ≠ anyMethod := methodName_ne_any
  unfold Detector.Claim.clashes Route.SharesMethod
  rw [hroute.buckets_eq, hother.buckets_eq]
  by_cases hr : route.allowsAnyMethod = true
  · have hsome : other.methodNames ≠ [] ∨ other.allowsAnyMethod = true := by
      rw [← hother.isEmpty_sortedMethods, Route.methodNames, Ne, List.map_eq_nil_iff, List.isEmpty_iff]
      exact (em _).symm
    by_cases ho : other.allowsAnyMethod = true
    · simp [hr, ho]
    · obtain ⟨name, hname⟩ := List.exists_mem_of_ne_nil _ (hsome.resolve_right ho)
      simp only [hr, ho, true_or, iff_true]
      exact ⟨name, by simpa using hname, by simp⟩
  · by_cases ho : other.allowsAnyMethod = true
    · simp [ho]
    · simp only [hr, ho, Bool.false_eq_true, if_false, false_or]
      constructor
      · rintro ⟨bucket, hbucket, hclash⟩
        obtain ⟨method, hmethod, rfl⟩ := List.mem_map.1 hbucket
        -- neither side is for any method, so that the name itself is shared
        have hshared : method.name ∈ route.methodNames := by
          simpa [hnotAny, any_not_mem_methodNames] using hclash
        obtain ⟨found, hfound, hname⟩ := List.mem_map.1 hshared
        exact ⟨found, hfound, methodName_inj hname ▸ hmethod⟩
      · rintro ⟨method, hmine, htheirs⟩
        refine ⟨method.name, List.mem_map_of_mem htheirs, ?_⟩
        simp [Route.methodNames, List.mem_map_of_mem hmine]

/-! ## Routes behind a detector -/

/-- the names and the claims of the detector are those of these routes -/
structure Detector.Holds (detector : Detector) (accepted : List Route) : Prop where
  made : ∀ route ∈ accepted, route.Made
  names : detector.names = accepted.map (·.name)
  claims : detector.claims = accepted.flatMap Route.claims
  apart : accepted.Pairwise fun route other => ¬route.Collides other

/-- what an error says about the route in the way -/
def DuplicateError.Tells (error : DuplicateError) (route other : Route) : Prop :=
  match error with
  | .name taken => taken = route.name ∧ taken = other.name
  | .path taken method owner =>
    taken = route.path ∧ taken = other.path ∧ method ∈ other.buckets ∧ owner = other.name ∧ route.SharesMethod other

namespace Detector.Holds

variable {detector : Detector} {accepted : List Route}

theorem empty : Detector.Holds {} [] where
  made := fun _ hroute => absurd hroute List.not_mem_nil
  names := rfl
  claims := rfl
  apart := List.Pairwise.nil

/-- **A rejected route** collides with an accepted one, and the error tells with which. -/
theorem tells_of_error (h : detector.Holds accepted) {route : Route} (hroute : route.Made) {e : DuplicateError}
    (he : detector.checkAndRecord route = .error e) : ∃ other ∈ accepted, route.Collides other ∧ e.Tells route other := by
  unfold Detector.checkAndRecord at he
  split_ifs at he with hname
  · cases he
    rw [List.contains_iff_mem, h.names] at hname
    obtain ⟨other, hother, heq⟩ := List.mem_map.1 hname
    exact ⟨other, hother, .inl heq.symm, rfl, heq.symm⟩
  · split at he
    · rename_i claim hfind
      cases he
      have hclash := List.find?_some hfind
      rw [Bool.and_eq_true, beq_iff_eq] at hclash
      have hclaim := List.mem_of_find?_eq_some hfind
      rw [h.claims] at hclaim
      obtain ⟨other, hother, hclaim⟩ := List.mem_flatMap.1 hclaim
      obtain ⟨bucket, hbucket, rfl⟩ := List.mem_map.1 hclaim
      have hshares := (exists_clash_iff hroute (h.made other hother)).1 ⟨bucket, hbucket, hclash.2⟩
      exact ⟨other, hother, .inr ⟨hclash.1.symm, hshares⟩, rfl, hclash.1.symm, hbucket, rfl, hshares⟩
    · cases he

/-- **A route that is not rejected** collides with none, and the detector then holds it as well. -/
theorem of_ok (h : detector.Holds accepted) {route : Route} (hroute : route.Made) {after : Detector}
    (hafter : detector.checkAndRecord route = .ok after) :
    (∀ other ∈ accepted, ¬route.Collides other) ∧ after.Holds (accepted ++ [route]) := by
  unfold Detector.checkAndRecord at hafter
  split_ifs at hafter with hname
  split at hafter
  · cases hafter
  rename_i hfind
  cases hafter
  have hfree : ∀ other ∈ accepted, ¬route.Collides other := by
    intro other hother hcollides
    rcases hcollides with heq | ⟨hpath, hshares⟩
    · apply hname
      rw [List.contains_iff_mem, h.names, heq]
      exact List.mem_map_of_mem hother
    · obtain ⟨bucket, hbucket, hclash⟩ := (exists_clash_iff hroute (h.made other hother)).2 hshares
      have hclaim : (⟨other.path, bucket, other.name⟩ : Claim) ∈ detector.claims := by
        rw [h.claims]
        exact List.mem_flatMap.2 ⟨other, hother, List.mem_map_of_mem hbucket⟩
      have hnone := List.find?_eq_none.1 hfind _ hclaim
      rw [hclash, Bool.and_true, beq_iff_eq] at hnone
      exact hnone hpath.symm
  refine ⟨hfree, ?_, ?_, ?_, ?_⟩
  · intro other hother
    rcases List.mem_append.1 hother with hother | hother
    · exact h.made other hother
    · rwa [List.mem_singleton.1 hother]
  · rw [h.names, List.map_append, List.map_singleton]
  · rw [h.claims, List.flatMap_append, List.flatMap_singleton]
    rfl
  · rw [List.pairwise_append]
    refine ⟨h.apart, List.pairwise_singleton _ _, fun other hother last hlast hcollides => ?_⟩
    rw [List.mem_singleton.1 hlast] at hcollides
    -- a collision is seen from both sides
    rcases hcollides with heq | ⟨hpath, hshares⟩
    · exact hfree other hother (.inl heq.symm)
    · exact hfree other hother (.inr ⟨hpath.symm, hshares.symm⟩)

/-- **A route is rejected just when it collides** with one that was accepted. -/
theorem error_iff (h : detector.Holds accepted) {route : Route} (hroute : route.Made) :
    (∃ e, detector.checkAndRecord route = .error e) ↔ ∃ other ∈ accepted, route.Collides other := by
  constructor
  · rintro ⟨e, he⟩
    obtain ⟨other, hother, hcollides, -⟩ := h.tells_of_error hroute he
    exact ⟨other, hother, hcollides⟩
  · rintro ⟨other, hother, hcollides⟩
    cases hcheck : detector.checkAndRecord route with
    | error e => exact ⟨e, rfl⟩
    | ok after => exact absurd hcollides ((h.of_ok hroute hcheck).1 other hother)

end Detector.Holds

/-! ## Calls -/

/-- a call of a detector -/
inductive DetectorCall where
  | check (route : Route)
  | reset

/-- the route of the call was built from values -/
def DetectorCall.Fair : DetectorCall → Prop
  | .check route => route.Made
  | .reset => True

namespace Detector

/-- what a call leaves behind, and the error that it raises if it does -/
def call (detector : Detector) : DetectorCall → Detector × Option DuplicateError
  | .check route =>
    match detector.checkAndRecord route with
    | .ok after => (after, none)
    | .error e => (detector, some e)
  | .reset => (detector.reset, none)

theorem call_of_ok {detector after : Detector} {route : Route} (h : detector.checkAndRecord route = .ok after) :
    detector.call (.check route) = (after, none) := by
  rw [call, h]

theorem call_of_error {detector : Detector} {route : Route} {e : DuplicateError}
    (h : detector.checkAndRecord route = .error e) : detector.call (.check route) = (detector, some e) := by
  rw [call, h]

/-- A check raises what stands in the way of its route. -/
theorem call_eq_some {detector : Detector} {route : Route} {e : DuplicateError} :
    (detector.call (.check route)).2 = some e ↔ detector.checkAndRecord route = .error e := by
  constructor
  · intro h
    cases hcheck : detector.checkAndRecord route with
    | error found =>
      rw [call_of_error hcheck] at h
      rw [Option.some.inj h]
    | ok after =>
      rw [call_of_ok hcheck] at h
      cases h
  · intro h
    rw [call_of_error h]

/-- the errors that calls raise one after the other -/
def answers (detector : Detector) : List DetectorCall → List (Option DuplicateError)
  | [] => []
  | call :: rest => (detector.call call).2 :: (detector.call call).1.answers rest

/-- the routes accepted since the last reset, after one more call -/
def accepts (detector : Detector) (accepted : List Route) : DetectorCall → List Route
  | .check route =>
    match (detector.call (.check route)).2 with
    | some _ => accepted
    | none => accepted ++ [route]
  | .reset => []

/-- the detector after calls one after the other, with the routes accepted since the last reset -/
def run (detector : Detector) (accepted : List Route) : List DetectorCall → Detector × List Route
  | [] => (detector, accepted)
  | call :: rest => (detector.call call).1.run (detector.accepts accepted call) rest

end Detector

/-- **Every call keeps the routes behind a detector.** -/
theorem holds_call {detector : Detector} {accepted : List Route} (h : detector.Holds accepted) {call : DetectorCall}
    (hcall : call.Fair) : (detector.call call).1.Holds (detector.accepts accepted call) := by
  cases call with
  | check route =>
    rw [Detector.accepts]
    cases hcheck : detector.checkAndRecord route with
    | error e =>
      rw [Detector.call_of_error hcheck]
      exact h
    | ok after =>
      rw [Detector.call_of_ok hcheck]
      exact (h.of_ok hcall hcheck).2
  | reset => exact Detector.Holds.empty

/-- **So does every sequence of calls.** -/
theorem holds_run {detector : Detector} {accepted : List Route} (h : detector.Holds accepted)
    {calls : List DetectorCall} (hcalls : ∀ call ∈ calls, call.Fair) :
    (detector.run accepted calls).1.Holds (detector.run accepted calls).2 := by
  induction calls generalizing detector accepted with
  | nil => exact h
  | cons call calls ih =>
    apply ih (holds_call h (hcalls call List.mem_cons_self))
    intro other hother
    exact hcalls other (List.mem_cons_of_mem call hother)

/-- **Collisions are told exactly.** After any calls of a new detector, resets among them:
- a route is rejected just when it collides with one that was accepted since the last reset, by its name or by a
  method on its path;
- the error tells a route that it collides with;
- a call that is rejected changes no later answer;
- the accepted routes have different names, and where they have the same path no method is shared, so that a route for
  any method is alone on its path. -/
theorem collisions_exact (calls : List DetectorCall) (hcalls : ∀ call ∈ calls, call.Fair) :
    let detector := (Detector.run {} [] calls).1
    let accepted := (Detector.run {} [] calls).2
    (∀ route, route.Made →
      ((∃ e, (detector.call (.check route)).2 = some e) ↔ ∃ other ∈ accepted, route.Collides other)) ∧
    (∀ route e, route.Made → (detector.call (.check route)).2 = some e →
      (∃ other ∈ accepted, e.Tells route other) ∧
      ∀ later, (detector.call (.check route)).1.answers later = detector.answers later) ∧
    (accepted.map (·.name)).Nodup ∧
    accepted.Pairwise (fun route other => route.path = other.path → ¬route.SharesMethod other) ∧
    ∀ route ∈ accepted, route.allowsAnyMethod = true → ∀ other ∈ accepted, other.path = route.path → other = route := by
  intro detector accepted
  have hholds : detector.Holds accepted := holds_run .empty hcalls
  have hpaths : accepted.Pairwise fun route other => route.path = other.path → ¬route.SharesMethod other :=
    hholds.apart.imp fun hapart hpath hshares => hapart (.inr ⟨hpath, hshares⟩)
  refine ⟨?_, ?_, ?_, hpaths, ?_⟩
  · intro route hroute
    simp only [Detector.call_eq_some]
    exact hholds.error_iff hroute
  · intro route e hroute he
    have hcheck := Detector.call_eq_some.1 he
    obtain ⟨other, hother, -, htells⟩ := hholds.tells_of_error hroute hcheck
    refine ⟨⟨other, hother, htells⟩, fun later => ?_⟩
    rw [Detector.call_of_error hcheck]
  · rw [List.Nodup, List.pairwise_map]
    exact hholds.apart.imp fun hapart heq => hapart (.inl heq)
  · intro route hroute hany other hother hpath
    by_contra hne
    have hsymm : Std.Symm fun route other : Route => route.path = other.path → ¬route.SharesMethod other :=
      ⟨fun _ _ hapart hpath hshares => hapart hpath.symm hshares.symm⟩
    exact hpaths.forall hother hroute hne hpath (.inr (.inl hany))

def readPage : Route := ⟨"/page", "read", some [.get, .head], [], none, none, none⟩

def writePage : Route := ⟨"/page", "write", some [.post], [], none, none, none⟩

def anyPage : Route := ⟨"/page", "any", none, [], none, none, none⟩

/-- What was accepted before the reset is no hindrance, and what was rejected is none either. -/
theorem pageCalls_tell :
    let calls := [.check anyPage, .check writePage, .reset, .check readPage, .check anyPage, .check writePage]
    let detector := (Detector.run {} [] calls).1
    (Detector.run {} [] calls).2.map (·.name) = ["read", "write"] ∧
    (∃ e, (detector.call (.check anyPage)).2 = some e) ∧
    ∀ later, (detector.call (.check anyPage)).1.answers later = detector.answers later := by
  intro calls detector
  have hread : readPage.Made :=
    ⟨{ path := "/page", name := "read", methods := some ["head", "GET"] }, toOption_eq_some.1 (by decide +kernel)⟩
  have hwrite : writePage.Made :=
    ⟨{ path := "/page", name := "write", methods := some ["post"] }, toOption_eq_some.1 (by decide +kernel)⟩
  have hany : anyPage.Made := ⟨{ path := "/page", name := "any" }, toOption_eq_some.1 (by decide +kernel)⟩
  have hcalls : ∀ call ∈ calls, call.Fair := by
    intro call hcall
    simp only [calls, List.mem_cons, List.not_mem_nil, or_false] at hcall
    rcases hcall with rfl | rfl | rfl | rfl | rfl | rfl
    · exact hany
    · exact hwrite
    · trivial
    · exact hread
    · exact hany
    · exact hwrite
  obtain ⟨hiff, hrejected, -⟩ := collisions_exact calls hcalls
  have haccepted : (Detector.run {} [] calls).2 = [readPage, writePage] := by decide +kernel
  obtain ⟨e, he⟩ := (hiff anyPage hany).2 ⟨readPage, by rw [haccepted]; exact List.mem_cons_self, .inr ⟨rfl, .inl rfl⟩⟩
  exact ⟨by rw [haccepted]; rfl, ⟨e, he⟩, (hrejected anyPage e hany he).2⟩

end UrlRouter
