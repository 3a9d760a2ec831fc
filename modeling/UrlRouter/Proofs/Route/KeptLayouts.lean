/-
A generator over records that change.

A generator reads its records anew for every path, but the layouts it keeps are those it once read. A record under a new
name has no layout yet, and a failed analysis leaves none behind; only a record put in the place of another leaves a
layout that is not its own, and that one is gone once the layouts are cleared.

Results:
- `known_generate`: a layout is kept for a record only.
- `sound_step`: one call keeps the layouts those of their records, unless it replaces a record.
- `kept_layouts_invisible`: a generator that keeps layouts answers like one that keeps none.
-/
import Mathlib.Tactic
import UrlRouter.Mapping
import UrlRouter.Proofs.Route.Generation

namespace UrlRouter

/-! ## Calls -/

/-- what is done with a generator and its records -/
inductive GeneratorCall where
  | generate (name : String) (attributes : Attributes)
  /-- puts a record under its own name, new or in the place of the one that is there -/
  | store (route : Route)
  | clearCache

/-- a generator and the records that it reads -/
structure GeneratorSession where
  routes : Mapping Route
  generator : UrlGenerator

namespace GeneratorSession

/-- the session after a call, and the answer of a call that asks for a path -/
def step (session : GeneratorSession) : GeneratorCall → GeneratorSession × Option (Except GenerateError String)
  | .generate name attributes =>
    let (answer, generator) := session.generator.generate session.routes name attributes
    ({ session with generator }, some answer)
  | .store route => ({ session with routes := insertValue route.name route session.routes }, none)
  | .clearCache => ({ session with generator := session.generator.clearCache }, none)

/-- the paths and errors that calls are answered with, one after the other -/
def answers (session : GeneratorSession) : List GeneratorCall → List (Except GenerateError String)
  | [] => []
  | call :: rest => (session.step call).2.toList ++ (session.step call).1.answers rest

end GeneratorSession

/-- Between the replacement of a record and the next path that is asked for, the layouts are cleared. `replaced` tells
whether a record was replaced since they were cleared last. -/
def ClearsInTime (replaced : Bool) (routes : Mapping Route) : List GeneratorCall → Prop
  | [] => True
  | .generate _ _ :: rest => replaced = false ∧ ClearsInTime replaced routes rest
  | .store route :: rest =>
    ClearsInTime (replaced || (routes.lookup route.name).isSome) (insertValue route.name route routes) rest
  | .clearCache :: rest => ClearsInTime false routes rest

/-! ## What calls keep -/

theorem KeyedByName.store {routes : Mapping Route} (h : KeyedByName routes) (route : Route) :
    KeyedByName (insertValue route.name route routes) := by
  induction routes with
  | nil => simp [insertValue, KeyedByName]
  | cons entry rest ih =>
    obtain ⟨hentry, hrest⟩ := List.forall_mem_cons.1 h
    unfold insertValue
    split_ifs with hname
    · exact List.forall_mem_cons.2 ⟨hname.symm, hrest⟩
    · exact List.forall_mem_cons.2 ⟨hentry, ih hrest⟩

namespace UrlGenerator

variable {generator : UrlGenerator} {routes : Mapping Route}

/-- a layout is kept for names of records only -/
def Known (generator : UrlGenerator) (routes : Mapping Route) : Prop :=
  ∀ name, (generator.cache.lookup name).isSome = true → (routes.lookup name).isSome = true

theorem known_of_empty (h : generator.cache = []) : generator.Known routes := by
  intro name hkept
  rw [h] at hkept
  cases hkept

/-- What is kept after a layout was asked for was kept before, or is the layout of that route. -/
theorem cache_layoutOf (generator : UrlGenerator) (route : Route) :
    (generator.layoutOf route).2.cache = generator.cache ∨
      ∃ info, (generator.layoutOf route).2.cache = (route.name, info) :: generator.cache := by
  unfold layoutOf
  split
  · exact .inl rfl
  · split
    · exact .inl rfl
    · dsimp only
      split_ifs
      · exact .inr ⟨_, rfl⟩
      · exact .inl rfl

/-- **A layout is kept for a record only**, also after another path was asked for. -/
theorem known_generate (hkeyed : KeyedByName routes) (h : generator.Known routes) (name : String)
    (attributes : Attributes) : (generator.generate routes name attributes).2.Known routes := by
  unfold generate
  cases hroute : routes.lookup name with
  | none => exact h
  | some route =>
    have hknown : (generator.layoutOf route).2.Known routes := by
      rcases cache_layoutOf generator route with hcache | ⟨info, hcache⟩
      · intro other hother
        rw [hcache] at hother
        exact h other hother
      · intro other hother
        rw [hcache, List.lookup_cons, hkeyed.name_eq hroute] at hother
        by_cases hsame : other = name
        · rw [hsame, hroute]
          rfl
        · rw [beq_eq_false_iff_ne.2 hsame] at hother
          exact h other hother
    dsimp only
    generalize generator.layoutOf route = kept at hknown
    obtain ⟨result, keeper⟩ := kept
    cases result with
    | error e => exact hknown
    | ok info => exact hknown

/-- A record under a new name finds no layout kept. -/
theorem faithful_store (hfaithful : generator.Faithful routes) (hknown : generator.Known routes) {route : Route}
    (hnew : (routes.lookup route.name).isSome = false) :
    generator.Faithful (insertValue route.name route routes) ∧ generator.Known (insertValue route.name route routes) := by
  have hnone : generator.cache.lookup route.name = none := by
    by_contra hkept
    rw [hknown route.name (Option.isSome_iff_ne_none.2 hkept)] at hnew
    cases hnew
  constructor
  · intro name record hrecord info hkept
    rw [lookup_insertValue] at hrecord
    split_ifs at hrecord with hname
    · rw [hname, hnone] at hkept
      cases hkept
    · exact hfaithful name record hrecord info hkept
  · intro name hkept
    rw [lookup_insertValue]
    split_ifs
    · rfl
    · exact hknown name hkept

end UrlGenerator

/-! ## Sessions -/

/-- Every record stands under its own name and, unless one was replaced, every layout that is kept is that of the
record under its name. -/
structure GeneratorSession.Sound (session : GeneratorSession) (replaced : Bool) : Prop where
  keyed : KeyedByName session.routes
  faithful : replaced = false → session.generator.Faithful session.routes
  known : replaced = false → session.generator.Known session.routes

/-- whether a record waits for the layouts to be cleared, after one more call -/
def GeneratorCall.replaces (replaced : Bool) (routes : Mapping Route) : GeneratorCall → Bool
  | .generate _ _ => replaced
  | .store route => replaced || (routes.lookup route.name).isSome
  | .clearCache => false

/-- **Every call keeps a session sound.** -/
theorem sound_step {session : GeneratorSession} {replaced : Bool} (h : session.Sound replaced) (call : GeneratorCall) :
    (session.step call).1.Sound (call.replaces replaced session.routes) := by
  cases call with
  | generate name attributes =>
    exact {
      keyed := h.keyed
      faithful := fun hcurrent =>
        (UrlGenerator.generate_of_faithful h.keyed (h.faithful hcurrent) name attributes).2
      known := fun hcurrent => UrlGenerator.known_generate h.keyed (h.known hcurrent) name attributes }
  | store route =>
    have hstored : GeneratorCall.replaces replaced session.routes (.store route) = false →
        session.generator.Faithful (insertValue route.name route session.routes) ∧
          session.generator.Known (insertValue route.name route session.routes) := by
      intro hcurrent
      obtain ⟨hreplaced, hnew⟩ := Bool.or_eq_false_iff.1 hcurrent
      exact UrlGenerator.faithful_store (h.faithful hreplaced) (h.known hreplaced) hnew
    exact ⟨h.keyed.store route, fun hcurrent => (hstored hcurrent).1, fun hcurrent => (hstored hcurrent).2⟩
  | clearCache =>
    exact ⟨h.keyed, fun _ => UrlGenerator.faithful_of_empty rfl, fun _ => UrlGenerator.known_of_empty rfl⟩

/-- A generator that keeps nothing stays as it is. -/
theorem step_uncached (routes : Mapping Route) (call : GeneratorCall) :
    ((⟨routes, .uncached⟩ : GeneratorSession).step call).1.generator = .uncached := by
  cases call with
  | generate name attributes =>
    simp only [GeneratorSession.step, UrlGenerator.generate]
    cases routes.lookup name with
    | none => rfl
    | some route =>
      dsimp only
      rw [UrlGenerator.layoutOf_uncached]
      cases RouteLayout.ofRoute route <;> rfl
  | store route => rfl
  | clearCache => rfl

/-- Sound sessions over the same records answer a call alike, and have the same records afterwards. -/
theorem step_answer {session : GeneratorSession} {replaced : Bool} (h : session.Sound replaced) {call : GeneratorCall}
    (hcurrent : ∀ name attributes, call = .generate name attributes → replaced = false) :
    (session.step call).2 = ((⟨session.routes, .uncached⟩ : GeneratorSession).step call).2 ∧
      (session.step call).1.routes = ((⟨session.routes, .uncached⟩ : GeneratorSession).step call).1.routes := by
  cases call with
  | generate name attributes =>
    have hfaithful := h.faithful (hcurrent name attributes rfl)
    exact ⟨congrArg some (UrlGenerator.generate_of_faithful h.keyed hfaithful name attributes).1, rfl⟩
  | store route => exact ⟨rfl, rfl⟩
  | clearCache => exact ⟨rfl, rfl⟩

/-- **Calls one after the other** are answered by a sound session as by one that keeps no layouts. -/
theorem answers_of_sound {session : GeneratorSession} {replaced : Bool} (h : session.Sound replaced)
    {calls : List GeneratorCall} (hcalls : ClearsInTime replaced session.routes calls) :
    session.answers calls = (⟨session.routes, .uncached⟩ : GeneratorSession).answers calls := by
  induction calls generalizing session replaced with
  | nil => rfl
  | cons call rest ih =>
    have hcurrent : ∀ name attributes, call = .generate name attributes → replaced = false := by
      rintro name attributes rfl
      exact hcalls.1
    obtain ⟨hanswer, hroutes⟩ := step_answer h hcurrent
    have hrest : ClearsInTime (call.replaces replaced session.routes) (session.step call).1.routes rest := by
      cases call with
      | generate name attributes => exact hcalls.2
      | store route => exact hcalls
      | clearCache => exact hcalls
    have hlast : ((⟨session.routes, .uncached⟩ : GeneratorSession).step call).1 =
        ⟨(session.step call).1.routes, .uncached⟩ := by
      rw [hroutes]
      exact congrArg (GeneratorSession.mk _) (step_uncached session.routes call)
    rw [GeneratorSession.answers, GeneratorSession.answers, hanswer, ih (sound_step h call) hrest, hlast]

/-- **Kept layouts are invisible.** Over records that stand under their own names, a generator that keeps layouts gives
the same paths and raises the same errors as one that keeps none, whatever paths are asked for, records put under new
names and layouts cleared, as long as the layouts are cleared between the replacement of a record and the next path. -/
theorem kept_layouts_invisible (routes : Mapping Route) (hkeyed : KeyedByName routes) (calls : List GeneratorCall)
    (hcalls : ClearsInTime false routes calls) :
    (⟨routes, {}⟩ : GeneratorSession).answers calls = (⟨routes, .uncached⟩ : GeneratorSession).answers calls :=
  answers_of_sound ⟨hkeyed, fun _ => UrlGenerator.faithful_of_empty rfl, fun _ => UrlGenerator.known_of_empty rfl⟩ hcalls

def firstPage : Route := ⟨"/a/\x7bx\x7d", "a", none, [], none, none, none⟩

/-- Asking for a page that is missing and for one that cannot be read; two pages in the place of these, one more that is
new, and the layouts cleared before the next path. -/
def pageCalls : List GeneratorCall := [
  .generate "a" [("x", .int 1)], .generate "b" [], .store ⟨"/b/\x7bx", "b", none, [], none, none, none⟩,
  .generate "b" [("x", .int 2)], .store ⟨"/new/\x7bx\x7d", "a", none, [], none, none, none⟩,
  .store ⟨"/b/\x7bx:[a-z]\x7d", "b", none, [], none, none, none⟩, .store ⟨"/c", "c", none, [], none, none, none⟩,
  .clearCache, .generate "a" [("x", .int 3)], .generate "b" [("x", .int 4)], .generate "c" []]

theorem pageCalls_answered :
    ClearsInTime false [("a", firstPage)] pageCalls ∧
      (⟨[("a", firstPage)], {}⟩ : GeneratorSession).answers pageCalls = [
        .ok "/a/1", .error (.routeNotFound "b"), .error (.pattern (.fault .unbalancedBraces (some "/b/\x7bx"))),
        .ok "/new/3", .error (.mismatch "x" "[a-z]" "b"), .ok "/c"] := by
  have hcalls : ClearsInTime false [("a", firstPage)] pageCalls := ⟨rfl, rfl, rfl, rfl, rfl, rfl, trivial⟩
  exact ⟨hcalls, (kept_layouts_invisible _ (by decide) pageCalls hcalls).trans (by decide +kernel)⟩

end UrlRouter
