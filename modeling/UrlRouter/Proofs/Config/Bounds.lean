/-
Bounds of configurations.

A check takes a value apart and puts a configuration together. Whatever passes is within the bounds of its fields: of
each check it is said what its results have in common, first of those for any value, then of those for configurations.

Results:
- `yields_optional`, `yields_nullable`, `yields_listOf`: what fields and items have that pass their check.
- `RouteConfig.check_valid`, `RouterConfig.check_valid`: a configuration that passes its check is valid.
-/
import Mathlib.Tactic
import UrlRouter.Config.Check
import UrlRouter.Proofs.Except

namespace UrlRouter

open Validation

/-! ## Valid configurations -/

structure RouteConfig.Valid (route : RouteConfig) : Prop where
  port : ∀ port, route.port = some port → 1 ≤ port ∧ port ≤ 65535
  methods : ∀ names, route.methods = some names → names ≠ [] ∧ ∀ name ∈ names, ∃ method : Method, method.name = name

/-- **The bounds of a configuration.** What may be one of a few names only, and what must be of some type, is so
already. -/
structure RouterConfig.Valid (config : RouterConfig) : Prop where
  chunkSize : 1 ≤ config.chunkSize
  routes : ∀ route ∈ config.routes, route.Valid
  lifetime : ∀ seconds, config.cache.lifetime = some seconds → 1 ≤ seconds

/-! ## What checks yield -/

section Yields

variable {α β : Type} {check : Check α} {P : α → Prop}

/-- What passes the check has the property. -/
def Yields (check : Check α) (P : α → Prop) : Prop := ∀ value a, check value = .ok a → P a

theorem both_eq_ok {x : Checked α} {y : Checked β} {a : α} {b : β} : both x y = .ok (a, b) ↔ x = .ok a ∧ y = .ok b := by
  cases x <;> cases y <;> simp [both]

theorem map_eq_ok {ε : Type} {f : α → β} {x : Except ε α} {b : β} : x.map f = .ok b ↔ ∃ a, x = .ok a ∧ f a = b := by
  cases x <;> simp [Except.map]

theorem under_eq_ok {step : Step} {x : Checked α} {a : α} : under step x = .ok a ↔ x = .ok a := mapError_eq_ok

theorem ensure_eq_ok {f : α → Except Cause β} {x : Checked α} {b : β} (h : ensure f x = .ok b) :
    ∃ a, x = .ok a ∧ f a = .ok b := by
  unfold ensure at h
  split at h
  · cases h
  · split at h
    · cases h
      exact ⟨_, rfl, ‹_›⟩
    · cases h

theorem yields_optional (h : Yields check P) {name : String} {absent : α} (habsent : P absent) :
    Yields (Validation.optional name absent check) P := by
  intro value a ha
  unfold Validation.optional at ha
  split at ha
  · exact h _ a (under_eq_ok.1 ha)
  · cases ha
    exact habsent

theorem yields_nullable (h : Yields check P) : Yields (nullable check) fun a => ∀ b, a = some b → P b := by
  rintro value a ha b rfl
  unfold nullable at ha
  split at ha
  · cases ha
  · obtain ⟨c, hc, heq⟩ := map_eq_ok.1 ha
    cases heq
    exact h value b hc

theorem yields_listOf (h : Yields check P) : Yields (listOf check) fun as => ∀ a ∈ as, P a := by
  have hitems : ∀ (values : List Json) (index : Nat) (as : List α), items check index values = .ok as →
      ∀ a ∈ as, P a := by
    intro values
    induction values with
    | nil =>
      intro index as has
      cases has
      exact fun a ha => absurd ha List.not_mem_nil
    | cons value values ih =>
      intro index as has
      obtain ⟨⟨b, bs⟩, hboth, rfl⟩ := map_eq_ok.1 has
      obtain ⟨hb, hbs⟩ := both_eq_ok.1 hboth
      intro a ha
      rcases List.mem_cons.1 ha with rfl | ha
      · exact h value a (under_eq_ok.1 hb)
      · exact ih (index + 1) bs hbs a ha
  intro value as has
  unfold listOf at has
  split at has
  · exact hitems _ 0 as has
  · cases has

theorem yields_model (h : Yields check P) (name : String) : Yields (model name check) P := by
  intro value a ha
  unfold model at ha
  split at ha
  · exact h _ a ha
  · cases ha

theorem yields_integerFrom (bound : Int) : Yields (integerFrom bound) (bound ≤ ·) := by
  intro value n hn
  obtain ⟨m, -, hbound⟩ := ensure_eq_ok hn
  unfold atLeast at hbound
  split_ifs at hbound with h
  · cases hbound
    exact h

theorem yields_integerWithin (low high : Int) : Yields (integerWithin low high) fun n => low ≤ n ∧ n ≤ high := by
  intro value n hn
  obtain ⟨m, hm, hbound⟩ := ensure_eq_ok hn
  unfold atMost at hbound
  split_ifs at hbound with h
  · cases hbound
    exact ⟨yields_integerFrom low value _ hm, h⟩

end Yields

/-! ## Checks of configurations -/

theorem checkMethodNames_valid {given names : List String} (h : checkMethodNames given = .ok names) :
    names ≠ [] ∧ ∀ name ∈ names, ∃ method : Method, method.name = name := by
  unfold checkMethodNames at h
  split_ifs at h with hempty
  refine ⟨?_, fun name hname => ?_⟩
  · rintro rfl
    have hlength := (mapM_eq_ok.1 h).length_eq
    simp at hlength
    simp [hlength] at hempty
  · obtain ⟨upper, -, hchosen⟩ := exists_of_mem_mapM h hname
    obtain ⟨method, -, heq⟩ := map_eq_ok.1 hchosen
    exact ⟨method, heq⟩

theorem yields_methods :
    Yields (fun methods => ensure nonEmptyMethods (nullable (listOf anyString) methods)) fun names =>
      ∀ chosen, names = some chosen → chosen ≠ [] ∧ ∀ name ∈ chosen, ∃ method : Method, method.name = name := by
  rintro value names hnames chosen rfl
  obtain ⟨given, -, hchecked⟩ := ensure_eq_ok hnames
  cases given with
  | none => cases hchecked
  | some given =>
    obtain ⟨others, hothers, heq⟩ := map_eq_ok.1 hchecked
    cases heq
    exact checkMethodNames_valid hothers

theorem RouteConfig.check_valid : Yields RouteConfig.check RouteConfig.Valid := by
  refine yields_model (fun value route hroute => ?_) _
  obtain ⟨⟨path, name, methods, tokens, host, port, schemes⟩, hboth, rfl⟩ := map_eq_ok.1 hroute
  obtain ⟨-, hboth⟩ := both_eq_ok.1 hboth
  obtain ⟨-, hboth⟩ := both_eq_ok.1 hboth
  obtain ⟨hmethods, hboth⟩ := both_eq_ok.1 hboth
  obtain ⟨-, hboth⟩ := both_eq_ok.1 hboth
  obtain ⟨-, hboth⟩ := both_eq_ok.1 hboth
  obtain ⟨hport, -⟩ := both_eq_ok.1 hboth
  exact {
    port := yields_optional (yields_nullable (yields_integerWithin 1 65535)) (fun _ h => by cases h) value port hport
    methods := yields_optional yields_methods (fun _ h => by cases h) value methods hmethods }

theorem CacheConfig.check_lifetime :
    Yields CacheConfig.check fun cache => ∀ seconds, cache.lifetime = some seconds → 1 ≤ seconds := by
  refine yields_model (fun value cache hcache => ?_) _
  obtain ⟨⟨enabled, backend, key, directory, redisUrl, keyPrefix, lifetime⟩, hboth, rfl⟩ := map_eq_ok.1 hcache
  obtain ⟨-, hboth⟩ := both_eq_ok.1 hboth
  obtain ⟨-, hboth⟩ := both_eq_ok.1 hboth
  obtain ⟨-, hboth⟩ := both_eq_ok.1 hboth
  obtain ⟨-, hboth⟩ := both_eq_ok.1 hboth
  obtain ⟨-, hboth⟩ := both_eq_ok.1 hboth
  obtain ⟨-, hlifetime⟩ := both_eq_ok.1 hboth
  exact yields_optional (yields_nullable (yields_integerFrom 1)) (fun _ h => by cases h) value lifetime hlifetime

/-- **A configuration that passes its check is valid.** -/
theorem RouterConfig.check_valid : Yields RouterConfig.check RouterConfig.Valid := by
  refine yields_model (fun value config hconfig => ?_) _
  obtain ⟨⟨environment, strategy, chunkSize, tokens, routes, cache, logging, metrics⟩, hboth, rfl⟩ :=
    map_eq_ok.1 hconfig
  obtain ⟨-, hboth⟩ := both_eq_ok.1 hboth
  obtain ⟨-, hboth⟩ := both_eq_ok.1 hboth
  obtain ⟨hsize, hboth⟩ := both_eq_ok.1 hboth
  obtain ⟨-, hboth⟩ := both_eq_ok.1 hboth
  obtain ⟨hroutes, hboth⟩ := both_eq_ok.1 hboth
  obtain ⟨hcache, -⟩ := both_eq_ok.1 hboth
  exact {
    chunkSize := yields_optional (yields_integerFrom 1) (by decide) value chunkSize hsize
    routes := yields_optional (yields_listOf RouteConfig.check_valid) (fun _ h => absurd h List.not_mem_nil) value
      routes hroutes
    lifetime := yields_optional CacheConfig.check_lifetime (fun _ h => by cases h) value cache hcache }

end UrlRouter
