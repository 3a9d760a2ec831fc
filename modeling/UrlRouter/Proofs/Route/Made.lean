/-
Routes as they are built.

A route is built from values, which are read and put in order on the way: its methods are some, or it is for any, and
they stand in the order in which methods are listed.

Results:
- `Route.Made.unnamed`: only a route for any method with an empty path can be without a name.
- `Route.Made.canonical_sortedMethods`: the methods of a route are each once and in the order of all methods.
- `Route.Made.buckets_eq`: a route goes into the buckets of its methods, or into the one for any.
-/
import Mathlib.Tactic
import UrlRouter.Proofs.Except
import UrlRouter.Route.Basic

namespace UrlRouter

/-! ## Buckets of a route -/

def Route.methodNames (route : Route) : List String := route.sortedMethods.map Method.name

theorem methodName_ne_any (method : Method) : method.name ≠ anyMethod := by cases method <;> decide

theorem any_not_mem_methodNames (route : Route) : anyMethod ∉ route.methodNames := by
  intro h
  obtain ⟨method, -, hname⟩ := List.mem_map.1 h
  exact methodName_ne_any method hname

theorem buckets_eq (route : Route) :
    route.buckets = if route.sortedMethods.isEmpty then [anyMethod] else route.methodNames := by
  unfold Route.buckets Route.methodNames
  cases route.sortedMethods <;> rfl

theorem buckets_ne_nil (route : Route) : route.buckets ≠ [] := by
  unfold Route.buckets
  split
  · simp
  · rename_i h
    simpa using h

theorem methodName_inj {a b : Method} (h : a.name = b.name) : a = b := by
  have hback : ∀ method : Method, Method.ofName? method.name = some method := by
    intro method
    cases method <;> decide
  exact Option.some.inj ((hback a).symm.trans ((congrArg Method.ofName? h).trans (hback b)))

/-! ## Values and routes -/

/-- a route that was built from values -/
def Route.Made (route : Route) : Prop := ∃ values, Route.make values = .ok route

theorem canonical_ne_nil {methods : List Method} (h : methods ≠ []) : Method.canonical methods ≠ [] := by
  obtain ⟨method, hmethod⟩ := List.exists_mem_of_ne_nil methods h
  have hall : method ∈ Method.all := by cases method <;> decide
  exact List.ne_nil_of_mem (List.mem_filter.2 ⟨hall, List.contains_iff_mem.2 hmethod⟩)

theorem canonical_canonical (methods : List Method) :
    Method.canonical (Method.canonical methods) = Method.canonical methods := by
  apply List.filter_congr
  intro method hmethod
  simp [Method.canonical, hmethod]

/-- Methods that were read are some, in the order in which methods are listed. -/
theorem normalizeMethods_eq_some {names : Option (List String)} {methods : List Method}
    (h : normalizeMethods names = .ok (some methods)) : methods ≠ [] ∧ Method.canonical methods = methods := by
  unfold normalizeMethods at h
  split at h
  · cases h
  · cases h
  · rename_i names hnames
    obtain ⟨found, hfound, h⟩ := bind_eq_ok.1 h
    cases h
    refine ⟨canonical_ne_nil fun hnil => hnames ?_, canonical_canonical found⟩
    have hlength := (mapM_eq_ok.1 hfound).length_eq
    rwa [hnil, List.length_map, List.length_nil, List.length_eq_zero_iff] at hlength

/-- A route that was built has the methods and the name that its values give. -/
theorem Route.make_eq_ok {values : RouteValues} {route : Route} (h : Route.make values = .ok route) :
    normalizeMethods values.methods = .ok route.methods ∧ route.path = values.path ∧
      route.name = if values.name.isEmpty then Route.defaultName values.path route.methods else values.name := by
  obtain ⟨methods, hmethods, h⟩ := bind_eq_ok.1 h
  obtain ⟨_, -, h⟩ := bind_eq_ok.1 h
  obtain ⟨_, -, h⟩ := bind_eq_ok.1 h
  cases h
  exact ⟨hmethods, rfl, rfl⟩

theorem Route.Made.methods_ne {route : Route} (h : route.Made) : route.methods ≠ some [] := by
  obtain ⟨values, hvalues⟩ := h
  intro hnone
  have hmethods := (Route.make_eq_ok hvalues).1
  rw [hnone] at hmethods
  exact (normalizeMethods_eq_some hmethods).1 rfl

/-- **Only a route for any method with an empty path can be without a name.** -/
theorem Route.Made.unnamed {route : Route} (h : route.Made) (hname : route.name = "") :
    route.path = "" ∧ route.methods = none := by
  obtain ⟨values, hvalues⟩ := h
  obtain ⟨-, hpath, hroute⟩ := Route.make_eq_ok hvalues
  rw [hname] at hroute
  by_cases hgiven : values.name.isEmpty
  · rw [if_pos hgiven] at hroute
    cases hmethods : route.methods with
    | none =>
      rw [hmethods] at hroute
      exact ⟨hpath.trans hroute.symm, rfl⟩
    | some methods =>
      -- the name of a route that lists methods holds a mark behind the path
      rw [hmethods, Route.defaultName] at hroute
      have hmark := congrArg String.toList hroute
      simp at hmark
  · rw [if_neg hgiven] at hroute
    rw [← hroute] at hgiven
    exact absurd rfl hgiven

/-- A route with other tokens was built from other values. -/
theorem Route.Made.withTokens {route : Route} (h : route.Made) (tokens : Pattern.Overrides) :
    (route.withTokens tokens).Made := by
  obtain ⟨values, hvalues⟩ := h
  refine ⟨{ values with tokens := mergeTokens tokens route.tokens }, ?_⟩
  obtain ⟨methods, hmethods, hroute⟩ := bind_eq_ok.1 hvalues
  obtain ⟨host, hhost, hroute⟩ := bind_eq_ok.1 hroute
  obtain ⟨port, hport, hroute⟩ := bind_eq_ok.1 hroute
  cases hroute
  unfold Route.make
  rw [hmethods, ok_bind, hhost, ok_bind, hport, ok_bind]
  rfl

/-! ## Methods of built routes -/

theorem Route.Made.canonical_sortedMethods {route : Route} (h : route.Made) :
    Method.canonical route.sortedMethods = route.sortedMethods := by
  obtain ⟨values, hvalues⟩ := h
  have hmethods := (Route.make_eq_ok hvalues).1
  rw [Route.sortedMethods]
  cases hroute : route.methods with
  | none => rfl
  | some methods =>
    rw [hroute] at hmethods
    exact (normalizeMethods_eq_some hmethods).2

theorem Route.Made.isEmpty_sortedMethods {route : Route} (h : route.Made) :
    route.sortedMethods.isEmpty = route.allowsAnyMethod := by
  have hne := h.methods_ne
  rw [Route.sortedMethods, Route.allowsAnyMethod]
  cases hroute : route.methods with
  | none => rfl
  | some methods =>
    cases methods with
    | nil => exact absurd hroute hne
    | cons _ _ => rfl

/-- **A built route** goes into the buckets of its methods, or into the one for any method. -/
theorem Route.Made.buckets_eq {route : Route} (h : route.Made) :
    route.buckets = if route.allowsAnyMethod then [anyMethod] else route.methodNames := by
  rw [UrlRouter.buckets_eq, h.isEmpty_sortedMethods]

theorem Route.Made.nodup_buckets {route : Route} (h : route.Made) : route.buckets.Nodup := by
  rw [h.buckets_eq]
  split_ifs
  · exact List.nodup_singleton anyMethod
  · have hall : Method.all.Nodup := by decide
    rw [Route.methodNames, ← h.canonical_sortedMethods]
    exact (hall.filter _).map fun _ _ => methodName_inj

end UrlRouter
