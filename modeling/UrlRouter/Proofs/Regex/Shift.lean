/-
Expressions whose groups have other numbers.

An expression that refers to no group matches in the same way wherever its groups are counted from. `Node.shift` moves
their numbers, and two places are related by `Place.Follows` if the one knows of the moved groups what the other knows
of the groups as they were.

Results:
- `run_shift`: the matcher takes an expression and the moved one through related places to related results.
-/
import Mathlib.Tactic
import UrlRouter.Regex.Match

namespace UrlRouter.Regex

/-- whether an expression refers to a group -/
def Node.refers : Node → Bool
  | .empty | .char _ _ | .anchor _ _ => false
  | .backref _ _ | .conditional _ _ _ => true
  | .seq a b | .alt a b => a.refers || b.refers
  | .group _ body | .atomic body | .look _ _ body | .loop _ _ _ body => body.refers

/-- the expression with the numbers of its groups moved up -/
def Node.shift (offset : Nat) : Node → Node
  | .empty => .empty
  | .char mode test => .char mode test
  | .anchor mode place => .anchor mode place
  | .backref mode n => .backref mode (offset + n)
  | .seq a b => .seq (a.shift offset) (b.shift offset)
  | .alt a b => .alt (a.shift offset) (b.shift offset)
  | .group n body => .group (offset + n) (body.shift offset)
  | .atomic body => .atomic (body.shift offset)
  | .look direction negated body => .look direction negated (body.shift offset)
  | .conditional n present absent => .conditional (offset + n) (present.shift offset) (absent.shift offset)
  | .loop greed least most body => .loop greed least most (body.shift offset)

/-! ## Related places -/

/-- `p` stands where `q` stands, and has met the moved groups as `q` has met the groups as they were. -/
structure Place.Follows (offset : Nat) (p q : Place) : Prop where
  position : p.position = q.position
  opened : ∀ n, 1 ≤ n → p.opened.lookup (offset + n) = q.opened.lookup n
  closed : ∀ n, 1 ≤ n → p.closed.lookup (offset + n) = q.closed.lookup n

/-- Related places, handed on, lead to related results. -/
def Continuation.Follow (offset : Nat) (result : Place → Place → Prop) (k k' : Continuation) : Prop :=
  ∀ p q, p.Follows offset q → Option.Rel result (k p) (k' q)

/-- Whatever becomes of related places, the two searches lead them there. -/
def SearchesFollow (offset : Nat) (search search' : Place → Continuation → Option Place) : Prop :=
  ∀ p q, p.Follows offset q → ∀ (result : Place → Place → Prop) (k k' : Continuation),
    Continuation.Follow offset result k k' → Option.Rel result (search p k) (search' q k')

variable {offset : Nat} {p q : Place}

namespace Place.Follows

theorem moved (h : p.Follows offset q) (place : Nat) :
    ({ p with position := place } : Place).Follows offset { q with position := place } :=
  ⟨rfl, h.opened, h.closed⟩

theorem forward (h : p.Follows offset q) (count : Nat) : (p.forward count).Follows offset (q.forward count) :=
  ⟨congrArg (· + count) h.position, h.opened, h.closed⟩

theorem lookup_cons {here : Nat} {spans spans' : List (Nat × Nat)} (g : Nat)
    (h : ∀ n, 1 ≤ n → spans.lookup (offset + n) = spans'.lookup n) (n : Nat) (hn : 1 ≤ n) :
    ((offset + g, here) :: spans).lookup (offset + n) = ((g, here) :: spans').lookup n := by
  have hsame : (offset + n == offset + g) = (n == g) := by
    rw [Bool.eq_iff_iff, beq_iff_eq, beq_iff_eq]
    omega
  rw [List.lookup_cons, List.lookup_cons, hsame, h n hn]

theorem openGroup (h : p.Follows offset q) (g : Nat) : (p.openGroup (offset + g)).Follows offset (q.openGroup g) := by
  refine ⟨h.position, fun n hn => ?_, h.closed⟩
  rw [Place.openGroup, Place.openGroup, h.position]
  exact lookup_cons g h.opened n hn

theorem closeGroup (h : p.Follows offset q) (g : Nat) :
    (p.closeGroup (offset + g)).Follows offset (q.closeGroup g) := by
  refine ⟨h.position, h.opened, fun n hn => ?_⟩
  rw [Place.closeGroup, Place.closeGroup, h.position]
  exact lookup_cons g h.closed n hn

theorem lookup_around {here : Nat} {spans : List (Nat × Nat)} {n : Nat} (hn : 1 ≤ n) :
    ((offset, here) :: spans).lookup (offset + n) = spans.lookup (offset + n) := by
  have hne : (offset + n == offset) = false := by
    rw [beq_eq_false_iff_ne]
    omega
  rw [List.lookup_cons, hne]

/-- The group around an expression, opened at the start of a text. -/
theorem start (offset : Nat) : (({} : Place).openGroup offset).Follows offset {} :=
  ⟨rfl, fun _ hn => lookup_around hn, fun _ _ => rfl⟩

/-- The group around an expression, closed behind it. -/
theorem closeAround (h : p.Follows offset q) : (p.closeGroup offset).Follows offset q :=
  ⟨h.position, h.opened, fun n hn => (lookup_around hn).trans (h.closed n hn)⟩

theorem span? (h : p.Follows offset q) {n : Nat} (hn : 1 ≤ n) : p.span? (offset + n) = q.span? n := by
  simp only [Place.span?, h.opened n hn, h.closed n hn]

end Place.Follows

/-! ## Results side by side -/

theorem rel_imp {α β : Type} {first result : α → β → Prop} {a : Option α} {b : Option β} (hab : Option.Rel first a b)
    (h : ∀ p q, first p q → result p q) : Option.Rel result a b := by
  cases hab with
  | some hpq => exact .some (h _ _ hpq)
  | none => exact .none

theorem rel_or {result : Place → Place → Prop} {a a' b b' : Option Place} (ha : Option.Rel result a a')
    (hb : Option.Rel result b b') : Option.Rel result (a.or b) (a'.or b') := by
  cases ha with
  | some h => exact .some h
  | none => exact hb

theorem rel_bind {first result : Place → Place → Prop} {a a' : Option Place} {f f' : Place → Option Place}
    (ha : Option.Rel first a a') (hf : ∀ p q, first p q → Option.Rel result (f p) (f' q)) :
    Option.Rel result (a.bind f) (a'.bind f') := by
  cases ha with
  | some h => exact hf _ _ h
  | none => exact .none

theorem follow_some : Continuation.Follow offset (Place.Follows offset) some some := fun _ _ h => .some h

/-! ## Loops -/

section Loops

variable {body body' : Place → Continuation → Option Place} (hbody : SearchesFollow offset body body')

include hbody

theorem iterate_follows {result : Place → Place → Prop} {k k' : Continuation}
    (hk : Continuation.Follow offset result k k') (count : Nat) :
    ∀ p q, p.Follows offset q → Option.Rel result (iterate body count p k) (iterate body' count q k') := by
  induction count with
  | zero => exact hk
  | succ count ih => exact fun p q h => hbody p q h result _ _ ih

theorem mostFirst_follows {result : Place → Place → Prop} {k k' : Continuation}
    (hk : Continuation.Follow offset result k k') (budget : Nat) (last : Option Nat) :
    ∀ p q, p.Follows offset q → Option.Rel result (mostFirst body k budget last p) (mostFirst body' k' budget last q) := by
  induction budget generalizing last with
  | zero => exact hk
  | succ budget ih =>
    intro p q h
    rw [mostFirst, mostFirst, h.position]
    split_ifs
    · exact hk p q h
    · exact rel_or (hbody p q h result _ _ (ih _)) (hk p q h)

theorem fewestFirst_follows {result : Place → Place → Prop} {k k' : Continuation}
    (hk : Continuation.Follow offset result k k') (budget : Nat) (last : Option Nat) :
    ∀ p q, p.Follows offset q →
      Option.Rel result (fewestFirst body k budget last p) (fewestFirst body' k' budget last q) := by
  induction budget generalizing last with
  | zero => exact hk
  | succ budget ih =>
    intro p q h
    rw [fewestFirst, fewestFirst, h.position]
    refine rel_or (hk p q h) ?_
    split_ifs
    · exact .none
    · exact hbody p q h result _ _ (ih _)

theorem allOrNothing_follows (budget : Nat) (last : Option Nat) :
    ∀ p q, p.Follows offset q →
      (allOrNothing body budget last p).Follows offset (allOrNothing body' budget last q) := by
  induction budget generalizing last with
  | zero => exact fun p q h => h
  | succ budget ih =>
    intro p q h
    rw [allOrNothing, allOrNothing, h.position]
    split_ifs
    · exact h
    · have hfound := hbody p q h _ some some follow_some
      revert hfound
      cases body p some <;> cases body' q some <;> intro hfound
      · exact h
      · cases hfound
      · cases hfound
      · cases hfound with
        | some hnext => exact ih _ _ _ hnext

theorem iterateOnce_follows (count : Nat) :
    ∀ p q, p.Follows offset q →
      Option.Rel (Place.Follows offset) (iterateOnce body count p) (iterateOnce body' count q) := by
  induction count with
  | zero => exact follow_some
  | succ count ih => exact fun p q h => rel_bind (hbody p q h _ some some follow_some) ih

end Loops

/-! ## The matcher -/

variable (text : Array Char)

theorem loopBudget_follows (h : p.Follows offset q) (least : Nat) (most : Option Nat) :
    loopBudget text p.position least most = loopBudget text q.position least most := by
  rw [h.position]

/-- what a look-around finds of its body -/
def lookedUp (body : Node) (p : Place) : Direction → Option Place
  | .ahead => body.run text p some
  | .behind width =>
    if width.least ≤ p.position then body.run text { p with position := p.position - width.least } some else none

theorem run_look (direction : Direction) (negated : Bool) (body : Node) (p : Place) (k : Continuation) :
    (Node.look direction negated body).run text p k =
      if negated then
        match lookedUp text body p direction with
        | some _ => none
        | none => k p
      else (lookedUp text body p direction).bind fun q => k { q with position := p.position } := by
  cases direction <;> rfl

theorem lookedUp_follows (direction : Direction) {body body' : Node}
    (hbody : SearchesFollow offset (body.run text) (body'.run text)) (h : p.Follows offset q) :
    Option.Rel (Place.Follows offset) (lookedUp text body p direction) (lookedUp text body' q direction) := by
  cases direction with
  | ahead => exact hbody p q h _ some some follow_some
  | behind width =>
    simp only [lookedUp, h.position]
    split_ifs
    · exact hbody _ _ (h.moved _) _ some some follow_some
    · exact .none

/-- Only a look-around that is not negated keeps the groups that it met. -/
theorem look_follows (direction : Direction) (negated : Bool) {body body' : Node}
    (hbody : SearchesFollow offset (body.run text) (body'.run text)) :
    SearchesFollow offset ((Node.look direction negated body).run text)
      ((Node.look direction negated body').run text) := by
  intro p q h result k k' hk
  rw [run_look, run_look]
  have hfound := lookedUp_follows text direction hbody h
  cases negated with
  | true =>
    simp only [if_true]
    revert hfound
    cases lookedUp text body p direction <;> cases lookedUp text body' q direction <;> intro hfound
    · exact hk p q h
    · cases hfound
    · cases hfound
    · exact .none
  | false =>
    refine rel_bind hfound fun a b hab => hk _ _ ?_
    rw [h.position]
    exact hab.moved _

/-- **An expression that refers to no group matches in the same way wherever its groups are counted from.** -/
theorem run_shift (node : Node) (hrefers : node.refers = false) :
    SearchesFollow offset ((node.shift offset).run text) (node.run text) := by
  induction node with
  | empty => exact fun p q h result k k' hk => hk p q h
  | char mode test =>
    intro p q h result k k' hk
    simp only [Node.shift, Node.run, h.position]
    split
    · split_ifs
      · exact hk _ _ (h.forward 1)
      · exact .none
    · exact .none
  | anchor mode place =>
    intro p q h result k k' hk
    simp only [Node.shift, Node.run, h.position]
    split_ifs
    · exact hk p q h
    · exact .none
  | backref mode n => exact absurd hrefers (by simp [Node.refers])
  | seq a b iha ihb =>
    obtain ⟨ha, hb⟩ := Bool.or_eq_false_iff.1 hrefers
    exact fun p q h result k k' hk => iha ha p q h result _ _ fun p q h => ihb hb p q h result k k' hk
  | alt a b iha ihb =>
    obtain ⟨ha, hb⟩ := Bool.or_eq_false_iff.1 hrefers
    exact fun p q h result k k' hk => rel_or (iha ha p q h result k k' hk) (ihb hb p q h result k k' hk)
  | group n body ih =>
    exact fun p q h result k k' hk =>
      ih hrefers _ _ (h.openGroup n) result _ _ fun p q h => hk _ _ (h.closeGroup n)
  | atomic body ih =>
    exact fun p q h result k k' hk => rel_bind (ih hrefers p q h _ some some follow_some) hk
  | look direction negated body ih => exact look_follows text direction negated (ih hrefers)
  | conditional n present absent => exact absurd hrefers (by simp [Node.refers])
  | loop greed least most body ih =>
    intro p q h result k k' hk
    have hbody := ih hrefers
    cases greed with
    | greedy =>
      refine iterate_follows hbody (fun p q h => ?_) least p q h
      rw [loopBudget_follows text h]
      exact mostFirst_follows hbody hk _ none p q h
    | lazy =>
      refine iterate_follows hbody (fun p q h => ?_) least p q h
      rw [loopBudget_follows text h]
      exact fewestFirst_follows hbody hk _ none p q h
    | possessive =>
      refine rel_bind (iterateOnce_follows hbody least p q h) fun p q h => hk _ _ ?_
      rw [loopBudget_follows text h]
      exact allOrNothing_follows hbody _ none p q h

end UrlRouter.Regex
