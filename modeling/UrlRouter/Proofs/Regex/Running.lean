/-
Running the parts that patterns are made of.

Where a part of an expression can match in several ways, the matcher tries them in an order of preference. For single
characters, runs of non-slashes and optional parts this order is written down here as a list of places.

Results:
- `run_nonSlashes`: a run of non-slashes ends first where the longest cut ends.
- `run_optional`: an optional part is entered if it can be, and left out otherwise.
- `fullMatch?_eq_find?`: a match of the whole text is the first of the places at its end.
-/
import Mathlib.Tactic
import UrlRouter.Proofs.Regex.Reading
import UrlRouter.Proofs.Text.Cuts

namespace UrlRouter.Regex

open Text (cuts mem_cuts cuts_nil)

variable (text : List Char)

/-! ## The matcher tries the places in order -/

theorem run_ofList_cons (chars : Array Char) (node : Node) (rest : List Node) (p : Place) (k : Continuation) :
    (Node.ofList (node :: rest)).run chars p k = node.run chars p fun q => (Node.ofList rest).run chars q k := by
  cases rest <;> rfl

theorem run_nodeOf_cons (chars : Array Char) (item : Item) (items : List Item) (p : Place) (k : Continuation) :
    (nodeOf (item :: items)).run chars p k = item.node.run chars p fun q => (nodeOf items).run chars q k := by
  rw [nodeOf, List.map_cons, run_ofList_cons]
  rfl

theorem forward_forward (p : Place) (a b : Nat) : (p.forward a).forward b = p.forward (b + a) := by
  simp only [Place.forward, Nat.add_assoc, Nat.add_comm a b]

theorem run_code (c : Char) (p : Place) (k : Continuation) :
    (Node.char {} (.code c.toNat)).run text.toArray p k =
      if text[p.position]? = some c then k (p.forward 1) else none := by
  have hcode : ∀ d : Char, (d.toNat = c.toNat) ↔ d = c := fun d => Char.toNat_inj
  simp only [Node.run, List.getElem?_toArray]
  cases text[p.position]? with
  | none => rfl
  | some d => simp [CharTest.accepts, hcode]

theorem run_notSlash (p : Place) (k : Continuation) :
    (Node.char {} (.notCode '/'.toNat)).run text.toArray p k =
      match text.drop p.position with
      | [] => none
      | c :: _ => if c = '/' then none else k (p.forward 1) := by
  have hcode : ∀ d : Char, (d.toNat = '/'.toNat) ↔ d = '/' := fun d => Char.toNat_inj
  simp only [Node.run, List.getElem?_toArray, ← List.head?_drop]
  cases text.drop p.position with
  | nil => rfl
  | cons d rest =>
    by_cases hd : d = '/'
    · simp [CharTest.accepts, hd]
    · have hd' : ¬d.toNat = '/'.toNat := fun h => hd ((hcode d).1 h)
      have haccepts : CharTest.accepts {} d (.notCode '/'.toNat) = true := by
        simp only [CharTest.accepts, Bool.false_eq_true, if_false, hd', decide_false, Bool.not_false]
      simp only [List.head?_cons, haccepts, hd, if_true, if_false]

/-- A greedy run of non-slashes tries the longest cut first and nothing at last. -/
theorem mostFirst_notSlash (k : Continuation) (budget : Nat) (last : Option Nat) (p : Place)
    (hlast : last ≠ some p.position) (hbudget : (text.drop p.position).length < budget) :
    mostFirst ((Node.char {} (.notCode '/'.toNat)).run text.toArray) k budget last p =
      (((cuts (text.drop p.position)).map fun cut => p.forward cut.1.length) ++ [p]).findSome? k := by
  induction budget generalizing last p with
  | zero => omega
  | succ budget ih =>
    rw [mostFirst, if_neg hlast, run_notSlash]
    cases hdrop : text.drop p.position with
    | nil => simp [cuts_nil]
    | cons c rest =>
      have hrest : text.drop (p.forward 1).position = rest := by
        show text.drop (p.position + 1) = rest
        rw [← List.tail_drop, hdrop]
        rfl
      by_cases hc : c = '/'
      · simp [cuts, hc]
      · have hnext := ih (some p.position) (p.forward 1) (by simp [Place.forward]) (by
          rw [hdrop] at hbudget
          rw [hrest]
          simpa using hbudget)
        simp only [hc, if_false, hnext, hrest, cuts, List.map_append, List.map_map, List.findSome?_append,
          List.findSome?_singleton, List.map_cons, List.map_nil, Function.comp_def, forward_forward,
          List.length_cons, List.length_nil, Nat.zero_add]

theorem run_nonSlashes (p : Place) (k : Continuation) :
    (Node.loop .greedy 1 none (.char {} (.notCode '/'.toNat))).run text.toArray p k =
      ((cuts (text.drop p.position)).map fun cut => p.forward cut.1.length).findSome? k := by
  show (Node.char {} (.notCode '/'.toNat)).run text.toArray p (fun q =>
    mostFirst ((Node.char {} (.notCode '/'.toNat)).run text.toArray) k (loopBudget text.toArray q.position 1 none)
      none q) = _
  rw [run_notSlash]
  cases hdrop : text.drop p.position with
  | nil => rfl
  | cons c rest =>
    have hrest : text.drop (p.forward 1).position = rest := by
      show text.drop (p.position + 1) = rest
      rw [← List.tail_drop, hdrop]
      rfl
    by_cases hc : c = '/'
    · simp [cuts, hc]
    · have hbudget : (text.drop (p.forward 1).position).length <
          loopBudget text.toArray (p.forward 1).position 1 none := by
        simp [loopBudget]
      have hnext := mostFirst_notSlash text k _ none (p.forward 1) (by simp) hbudget
      simp only [hc, if_false, hnext, hrest, cuts, List.map_append, List.map_map, Function.comp_def, forward_forward,
        List.length_cons, List.map_cons, List.map_nil, List.length_nil, Nat.zero_add]

/-- An optional part is entered if it can be, and left out otherwise. -/
theorem run_optional (body : Node) (p : Place) (k : Continuation) :
    (Node.loop .greedy 0 (some 1) body).run text.toArray p k = (body.run text.toArray p k).or (k p) := by
  have hbudget : loopBudget text.toArray p.position 0 (some 1) = 1 := by
    simp only [loopBudget]
    omega
  simp only [Node.run, iterate, hbudget]
  rw [mostFirst, if_neg (by simp)]
  rfl

theorem findSome?_flatMap_eq {α β γ : Type} (as : List α) (f : α → List β) (k : β → Option γ) :
    (as.flatMap f).findSome? k = as.findSome? fun a => (f a).findSome? k := by
  induction as with
  | nil => rfl
  | cons a rest ih =>
    rw [List.flatMap_cons, List.findSome?_append, ih, List.findSome?_cons]
    cases (f a).findSome? k <;> rfl

theorem fullMatch?_eq_find? (regex : Regex) (places : List Place)
    (h : ∀ k, regex.root.run text.toArray {} k = places.findSome? k) :
    regex.fullMatch? (String.ofList text) =
      (places.find? fun p => p.position = text.length).map (⟨text.toArray, ·⟩) := by
  have hguard : (fun p : Place => if p.position = text.toArray.size then some p else none) =
      Option.guard fun p => p.position = text.length := by
    funext p
    simp [Option.guard]
  simp only [fullMatch?, String.toList_ofList, h, hguard, List.find?_eq_findSome?_guard]

/-! ## Groups -/

/-- what group `g` holds at a place -/
def valueAt (p : Place) (g : Nat) : Option (List Char) :=
  (p.span? g).map fun span => (text.drop span.1).take (span.2 - span.1)

theorem group?_eq_valueAt (q : Place) (n : Nat) :
    (⟨text.toArray, q⟩ : Match).group? n = (valueAt text q n).map String.ofList := by
  unfold Match.group? valueAt
  rw [Option.map_map]
  refine Option.map_congr fun span _ => ?_
  simp

theorem Place.span?_openGroup {p : Place} {n g : Nat} (h : g ≠ n) : (p.openGroup n).span? g = p.span? g := by
  have hb : (g == n) = false := beq_eq_false_iff_ne.mpr h
  simp [Place.span?, Place.openGroup, List.lookup_cons, hb]

theorem Place.span?_closeGroup {p : Place} {n g : Nat} (h : g ≠ n) : (p.closeGroup n).span? g = p.span? g := by
  have hb : (g == n) = false := beq_eq_false_iff_ne.mpr h
  simp [Place.span?, Place.closeGroup, List.lookup_cons, hb]

end UrlRouter.Regex
