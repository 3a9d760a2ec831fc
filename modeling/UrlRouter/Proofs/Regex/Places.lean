/-
What the matcher does with an expression.

To run an expression from a place is to try a list of further places in order. The list does not depend on what is done
with them, so that whether there is a match can be told for each part of an expression by itself.

Results:
- `exists_places`: the matcher hands a list of places to its continuation, in order.
- `isSome_run_or`: of two ways to go on, one succeeds somewhere when it succeeds alone.
- `run_alternatives`: alternatives are tried one after the other.
-/
import Mathlib.Tactic
import UrlRouter.Proofs.Regex.Running
import UrlRouter.Proofs.Regex.Shift

namespace UrlRouter.Regex

/-- The search tries a list of places in order, whatever is done with them. -/
def TriesPlaces (search : Place → Continuation → Option Place) : Prop :=
  ∀ p, ∃ places : List Place, ∀ k, search p k = places.findSome? k

/-! ## Ways to combine searches -/

theorem tries_here : TriesPlaces fun p k => k p := fun p => ⟨[p], fun k => by simp⟩

theorem tries_nowhere : TriesPlaces fun _ _ => none := fun _ => ⟨[], fun _ => rfl⟩

theorem tries_then {search search' : Place → Continuation → Option Place} (h : TriesPlaces search)
    (h' : TriesPlaces search') : TriesPlaces fun p k => search p fun q => search' q k := by
  intro p
  obtain ⟨places, hplaces⟩ := h p
  choose behind hbehind using h'
  refine ⟨places.flatMap behind, fun k => ?_⟩
  show search p _ = _
  rw [hplaces, findSome?_flatMap_eq]
  exact congrArg (List.findSome? · places) (funext fun q => hbehind q k)

theorem tries_or {search search' : Place → Continuation → Option Place} (h : TriesPlaces search)
    (h' : TriesPlaces search') : TriesPlaces fun p k => (search p k).or (search' p k) := by
  intro p
  obtain ⟨places, hplaces⟩ := h p
  obtain ⟨others, hothers⟩ := h' p
  refine ⟨places ++ others, fun k => ?_⟩
  rw [List.findSome?_append, ← hplaces, ← hothers]

/-- At most one place, found without regard to what follows. -/
theorem tries_found (found : Place → Option Place) : TriesPlaces fun p k => (found p).bind k := by
  intro p
  cases h : found p with
  | none => exact ⟨[], fun _ => by simp only [h]; rfl⟩
  | some q => exact ⟨[q], fun k => by simp [h]⟩

theorem tries_moved {search : Place → Continuation → Option Place} (h : TriesPlaces search) (move : Place → Place) :
    TriesPlaces fun p k => search (move p) k := fun p => h (move p)

/-! ## Loops -/

section Loops

variable {body : Place → Continuation → Option Place} (hbody : TriesPlaces body)

include hbody

theorem tries_iterate (count : Nat) : TriesPlaces (iterate body count) := by
  induction count with
  | zero => exact tries_here
  | succ count ih => exact fun p => tries_then hbody ih p

theorem tries_mostFirst (budget : Nat) (last : Option Nat) :
    TriesPlaces fun p k => mostFirst body k budget last p := by
  induction budget generalizing last with
  | zero => exact tries_here
  | succ budget ih =>
    intro p
    by_cases hlast : last = some p.position
    · obtain ⟨places, hplaces⟩ := tries_here p
      exact ⟨places, fun k => (if_pos hlast).trans (hplaces k)⟩
    · obtain ⟨places, hplaces⟩ := tries_or (tries_then hbody (ih (some p.position))) tries_here p
      exact ⟨places, fun k => (if_neg hlast).trans (hplaces k)⟩

theorem tries_fewestFirst (budget : Nat) (last : Option Nat) :
    TriesPlaces fun p k => fewestFirst body k budget last p := by
  induction budget generalizing last with
  | zero => exact tries_here
  | succ budget ih =>
    intro p
    by_cases hlast : last = some p.position
    · obtain ⟨places, hplaces⟩ := tries_or tries_here tries_nowhere p
      exact ⟨places, fun k => (congrArg (k p).or (if_pos hlast)).trans (hplaces k)⟩
    · obtain ⟨places, hplaces⟩ := tries_or tries_here (tries_then hbody (ih (some p.position))) p
      exact ⟨places, fun k => (congrArg (k p).or (if_neg hlast)).trans (hplaces k)⟩

end Loops

/-! ## Expressions -/

variable (text : Array Char)

/-- **The matcher hands a list of places to its continuation, in order.** -/
theorem exists_places (node : Node) : TriesPlaces (node.run text) := by
  induction node with
  | empty => exact tries_here
  | char mode test =>
    intro p
    refine ⟨((text[p.position]?.filter (test.accepts mode)).map fun _ => p.forward 1).toList, fun k => ?_⟩
    rw [Node.run]
    cases text[p.position]? with
    | none => rfl
    | some c => by_cases haccepts : test.accepts mode c = true <;> simp [haccepts, Option.filter]
  | anchor mode place =>
    intro p
    refine ⟨if place.holds mode text p.position then [p] else [], fun k => ?_⟩
    rw [Node.run]
    split_ifs <;> simp
  | backref mode n =>
    intro p
    refine ⟨(((p.span? n).filter fun span => repeats mode text span.1 p.position (span.2 - span.1)).map fun span =>
      p.forward (span.2 - span.1)).toList, fun k => ?_⟩
    rw [Node.run]
    cases p.span? n with
    | none => rfl
    | some span =>
      by_cases hrepeats : repeats mode text span.1 p.position (span.2 - span.1) = true <;>
        simp [hrepeats, Option.filter]
  | seq a b iha ihb => exact fun p => tries_then iha ihb p
  | alt a b iha ihb => exact fun p => tries_or iha ihb p
  | group n body ih =>
    exact fun p => tries_then (tries_moved ih (·.openGroup n)) (tries_moved tries_here (·.closeGroup n)) p
  | atomic body => exact fun p => tries_found (fun p => body.run text p some) p
  | look direction negated body =>
    intro p
    cases negated with
    | true =>
      refine ⟨if (lookedUp text body p direction).isSome then [] else [p], fun k => ?_⟩
      rw [run_look]
      cases lookedUp text body p direction <;> simp
    | false =>
      refine ⟨((lookedUp text body p direction).map fun q => { q with position := p.position }).toList, fun k => ?_⟩
      rw [run_look]
      cases lookedUp text body p direction <;> simp
  | conditional n present absent ihp iha =>
    intro p
    simp only [Node.run]
    split_ifs
    · exact ihp p
    · exact iha p
  | loop greed least most body ih =>
    have hbudget : ∀ {search : Nat → Place → Continuation → Option Place}, (∀ budget, TriesPlaces (search budget)) →
        TriesPlaces fun p k => search (loopBudget text p.position least most) p k := fun h p => h _ p
    have hleast := tries_iterate ih least
    intro p
    cases greed with
    | greedy => exact tries_then hleast (hbudget fun budget => tries_mostFirst ih budget none) p
    | lazy => exact tries_then hleast (hbudget fun budget => tries_fewestFirst ih budget none) p
    | possessive =>
      exact tries_then (tries_found fun p => iterateOnce (body.run text) least p)
        (tries_moved tries_here fun q =>
          allOrNothing (body.run text) (loopBudget text q.position least most) none q) p

variable {text}

theorem isSome_findSome? {α β : Type} {as : List α} {f : α → Option β} :
    (as.findSome? f).isSome = as.any fun a => (f a).isSome := by
  induction as with
  | nil => rfl
  | cons a as ih =>
    rw [List.findSome?_cons, List.any_cons, ← ih]
    cases f a <;> rfl

/-- **Of two ways to go on behind an expression, one succeeds just when it does so by itself.** -/
theorem isSome_run_or (node : Node) (p : Place) (k k' : Continuation) :
    (node.run text p fun q => (k q).or (k' q)).isSome = ((node.run text p k).isSome || (node.run text p k').isSome) := by
  obtain ⟨places, hplaces⟩ := exists_places text node p
  simp only [hplaces, isSome_findSome?, Option.isSome_or]
  clear hplaces
  induction places with
  | nil => rfl
  | cons q places ih =>
    simp only [List.any_cons, ih]
    cases (k q).isSome <;> cases (k' q).isSome <;> simp

/-- Items are matched one after the other. -/
theorem run_nodeOf_append (items more : List Item) (p : Place) (k : Continuation) :
    (nodeOf (items ++ more)).run text p k =
      (nodeOf items).run text p fun q => (nodeOf more).run text q k := by
  induction items generalizing p with
  | nil => rfl
  | cons item items ih =>
    rw [List.cons_append, run_nodeOf_cons, run_nodeOf_cons]
    exact congrArg (item.node.run text p) (funext fun q => ih q)

/-- **Alternatives are tried one after the other.** -/
theorem run_alternatives {nodes : List Node} (hne : nodes ≠ []) (p : Place) (k : Continuation) :
    (Node.ofAlternatives nodes).run text p k = nodes.findSome? fun node => node.run text p k := by
  induction nodes with
  | nil => exact absurd rfl hne
  | cons node rest ih =>
    cases rest with
    | nil =>
      rw [Node.ofAlternatives, List.findSome?_singleton]
    | cons next rest =>
      rw [List.findSome?_cons]
      show (node.run text p k).or ((Node.ofAlternatives (next :: rest)).run text p k) = _
      rw [ih (List.cons_ne_nil _ _)]
      cases node.run text p k <;> rfl

end UrlRouter.Regex
