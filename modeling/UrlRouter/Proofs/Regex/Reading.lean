/-
Steps of reading, and what they build.

Reading takes tokens one after the other and puts items into the current alternative; when all is read, the items make up
a tree. Here is what every account of reading uses, whichever expressions it is about.

Results:
- `steps_eq_ok`: many steps have nothing to read, or begin with one.
- `Reader.Reaches.trans`: runs of steps follow each other.
- `ofChars_eq_plain`: without backslashes every character is a token of its own.
- `ofList_problem`, `ofAlternatives_problem`: a tree has no problem if none of its parts has one.
-/
import Mathlib.Tactic
import UrlRouter.Regex.Match
import UrlRouter.Proofs.Except

namespace UrlRouter.Regex

/-- the characters that mean something of their own in an expression -/
def metacharacters : List Char := ['\\', '.', '^', '$', '*', '+', '?', '\x7b', '\x7d', '[', ']', '(', ')', '|']

/-- the node of a list of items -/
def nodeOf (items : List Item) : Node := .ofList (items.map (·.node))

/-- the names that a capture adds when it is opened -/
def captureNames (name : Option String) (n : Nat) : List (String × Nat) := (name.map (·, n)).toList

/-! ## Runs of steps -/

theorem steps_of_nil {r : Reader} (h : r.rest = []) (n : Nat) : (steps n).run r = .ok ((), r) := by
  cases n with
  | zero => rfl
  | succ n =>
    simp only [steps, StateT.run_bind, StateT.run_get, pure_bind, h, List.isEmpty_nil, if_true]
    rfl

theorem steps_of_cons {r : Reader} {t : Token} {rest : List Token} (h : r.rest = t :: rest) (n : Nat) :
    (steps (n + 1)).run r = step.run r >>= fun pair => (steps n).run pair.2 := by
  simp only [steps, StateT.run_bind, StateT.run_get, pure_bind, h, List.isEmpty_cons, Bool.false_eq_true, if_false]

/-- Many steps have nothing to read, or begin with one. -/
theorem steps_eq_ok {n : Nat} {r s : Reader} (h : (steps (n + 1)).run r = .ok ((), s)) :
    (r.rest = [] ∧ s = r) ∨
      ∃ t rest u, r.rest = t :: rest ∧ step.run r = .ok ((), u) ∧ (steps n).run u = .ok ((), s) := by
  cases hrest : r.rest with
  | nil =>
    rw [steps_of_nil hrest] at h
    cases h
    exact .inl ⟨rfl, rfl⟩
  | cons t rest =>
    rw [steps_of_cons hrest] at h
    obtain ⟨⟨_, u⟩, hstep, hsteps⟩ := bind_eq_ok.1 h
    exact .inr ⟨t, rest, u, rfl, hstep, hsteps⟩

/-- Some steps lead from `r` to `s`, each of which takes a token at least. -/
def Reader.Reaches (r s : Reader) : Prop :=
  ∃ n, n + s.rest.length ≤ r.rest.length ∧ ∀ m, (steps (n + m)).run r = (steps m).run s

namespace Reader.Reaches

theorem refl (r : Reader) : r.Reaches r := ⟨0, by omega, fun m => by rw [Nat.zero_add]⟩

theorem trans {r s t : Reader} (h1 : r.Reaches s) (h2 : s.Reaches t) : r.Reaches t := by
  obtain ⟨n1, hn1, e1⟩ := h1
  obtain ⟨n2, hn2, e2⟩ := h2
  exact ⟨n1 + n2, by omega, fun m => by rw [Nat.add_assoc, e1, e2]⟩

theorem of_step {r s : Reader} (h : step.run r = .ok ((), s)) (hlt : s.rest.length < r.rest.length) :
    r.Reaches s := by
  obtain ⟨t, rest, hrest⟩ := List.exists_cons_of_length_pos (Nat.zero_lt_of_lt hlt)
  refine ⟨1, by omega, fun m => ?_⟩
  rw [Nat.add_comm 1 m, steps_of_cons hrest, h, ok_bind]

end Reader.Reaches

/-! ## Characters and tokens -/

theorem readItem_ordinary (start : Nat) (c : Char) (hc : c ∉ metacharacters) :
    readItem start c = pushTest (.code c.toNat) := by
  simp only [metacharacters, List.mem_cons, List.not_mem_nil, or_false, not_or] at hc
  obtain ⟨-, h1, h2, h3, h4, h5, h6, h7, -, h8, -, h9, -, -⟩ := hc
  unfold readItem
  split <;> first | contradiction | rfl

/-- Identifiers hold neither the character that ends a group's name nor a backslash. -/
theorem not_mem_of_isIdentifier {name : String} (h : Text.isIdentifier name = true) :
    name.toList ≠ [] ∧ ∀ c ∈ name.toList, c ≠ '>' ∧ c ≠ '\\' := by
  unfold Text.isIdentifier at h
  cases hn : name.toList with
  | nil => rw [hn] at h; simp at h
  | cons c rest =>
    rw [hn] at h
    simp only [Bool.and_eq_true, List.all_eq_true] at h
    refine ⟨List.cons_ne_nil c rest, fun d hd => ?_⟩
    rcases List.mem_cons.1 hd with rfl | hd
    · have hs := h.1
      constructor <;> rintro rfl <;> exact absurd hs (by decide)
    · have hp := h.2 d hd
      constructor <;> rintro rfl <;> exact absurd hp (by decide)

theorem ofChars_eq_plain (text : List Char) (h : '\\' ∉ text) : Token.ofChars text = text.map .plain := by
  induction text with
  | nil => rfl
  | cons c rest ih =>
    have hc : c ≠ '\\' := fun hc => h (hc ▸ List.mem_cons_self)
    have hrest := ih fun hr => h (List.mem_cons_of_mem c hr)
    rw [List.map_cons, ← hrest]
    unfold Token.ofChars
    split
    · contradiction
    · rename_i heq; exact absurd (List.cons.inj heq).1 hc
    · rename_i heq; exact absurd (List.cons.inj heq).1 hc
    · rename_i heq
      obtain ⟨rfl, rfl⟩ := List.cons.inj heq
      rw [← Token.ofChars.eq_def]

/-! ## Trees without problems -/

theorem ofList_problem (nodes : List Node) (h : ∀ node ∈ nodes, node.problem? false = none) :
    (Node.ofList nodes).problem? false = none := by
  induction nodes with
  | nil => rfl
  | cons node rest ih =>
    have hrest := ih fun n hn => h n (List.mem_cons_of_mem node hn)
    cases rest with
    | nil => exact h node List.mem_cons_self
    | cons f rest => simp [Node.ofList, Node.problem?, h node List.mem_cons_self, hrest]

theorem ofAlternatives_problem (nodes : List Node) (h : ∀ node ∈ nodes, node.problem? false = none) :
    (Node.ofAlternatives nodes).problem? false = none := by
  induction nodes with
  | nil => rfl
  | cons node rest ih =>
    have hrest := ih fun n hn => h n (List.mem_cons_of_mem node hn)
    cases rest with
    | nil => exact h node List.mem_cons_self
    | cons f rest => simp [Node.ofAlternatives, Node.problem?, h node List.mem_cons_self, hrest]

end UrlRouter.Regex
