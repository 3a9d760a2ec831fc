/-
The order of groups.

A group gets its number when its parenthesis opens. While an expression is read, the groups that are met stand in the
frames around, from the outermost inwards, and in the group that is read; taken in this order their numbers run from one
on. Quantifiers, bars and closing parentheses put nodes around what was read and do not change the order.

Results:
- `inOrder_step`: a step of reading keeps the groups in order.
- `compile_numbers`: the groups of a compiled expression are numbered by their opening parentheses, and no number stands
  for two of them.
-/
import Mathlib.Tactic
import UrlRouter.Proofs.Regex.MetNames

namespace UrlRouter.Regex

variable {α β : Type}

/-! ## Numbers from left to right -/

/-- the numbers of the groups, in the order in which they open -/
def Node.numbers : Node → List Nat
  | .empty | .char _ _ | .anchor _ _ | .backref _ _ => []
  | .seq a b | .alt a b | .conditional _ a b => a.numbers ++ b.numbers
  | .group n body => n :: body.numbers
  | .atomic body | .look _ _ body | .loop _ _ _ body => body.numbers

/-- the number of the group itself, or those in the first part of a conditional -/
def GroupKind.numbers : GroupKind → List Nat
  | .capture n => [n]
  | .conditional _ (some present) => present.numbers
  | _ => []

/-- the numbers in the finished alternatives and in the current one -/
def Frame.inner (f : Frame) : List Nat := f.done.reverse.flatMap Node.numbers ++ f.items.reverse.flatMap (·.node.numbers)

def Frame.numbers (f : Frame) : List Nat := f.kind.numbers ++ f.inner

def Reader.numbers (r : Reader) : List Nat := r.outer.reverse.flatMap Frame.numbers ++ r.frame.numbers

/-- what the outermost frame becomes at the end -/
def Reader.bottom (r : Reader) : GroupKind := (r.outer.getLast?.getD r.frame).kind

/-- The groups that were met are numbered from one in the order in which they opened. -/
structure Reader.InOrder (r : Reader) : Prop where
  numbers : r.numbers = List.range' 1 r.widths.length
  bottom : r.bottom = .whole
  /-- The first part of a conditional is in no list of finished alternatives. -/
  conditional : ∀ f ∈ r.frame :: r.outer, f.kind.refers = true → f.done = []

theorem ofList_numbers (nodes : List Node) : (Node.ofList nodes).numbers = nodes.flatMap Node.numbers := by
  induction nodes with
  | nil => rfl
  | cons node rest ih =>
    cases rest with
    | nil => exact (List.append_nil _).symm
    | cons next rest => exact congrArg (node.numbers ++ ·) ih

theorem ofAlternatives_numbers (nodes : List Node) :
    (Node.ofAlternatives nodes).numbers = nodes.flatMap Node.numbers := by
  induction nodes with
  | nil => rfl
  | cons node rest ih =>
    cases rest with
    | nil => exact (List.append_nil _).symm
    | cons next rest => exact congrArg (node.numbers ++ ·) ih

theorem alternative_numbers (f : Frame) : f.alternative.numbers = f.items.reverse.flatMap (·.node.numbers) := by
  rw [Frame.alternative, ofList_numbers, List.flatMap_map]

theorem body_numbers (f : Frame) : f.body.numbers = f.inner := by
  rw [Frame.body, ofAlternatives_numbers, List.flatMap_append, List.flatMap_singleton, alternative_numbers, Frame.inner]

/-- A group that closes has the numbers of its frame. -/
theorem closed_numbers (r : Reader) : r.closed.numbers = r.frame.numbers := by
  have hbody := body_numbers r.frame
  unfold Reader.closed Frame.numbers
  cases r.frame.kind with
  | conditional group present =>
    cases present with
    | none => simpa [Node.numbers, GroupKind.numbers] using hbody
    | some present => simpa [Node.numbers, GroupKind.numbers] using hbody
  | _ => simpa [Node.numbers, GroupKind.numbers] using hbody

/-! ## Changes of the state -/

namespace Reader.InOrder

variable {r s : Reader}

/-- The same groups are open, and the innermost one has the same numbers. -/
theorem level (h : r.InOrder) (houter : s.outer = r.outer) (hwidths : s.widths.length = r.widths.length)
    (hnumbers : s.frame.numbers = r.frame.numbers) (hwhole : r.frame.kind = .whole → s.frame.kind = .whole)
    (hconditional : s.frame.kind.refers = true → s.frame.done = []) : s.InOrder where
  numbers := by rw [Reader.numbers, houter, hnumbers, hwidths]; exact h.numbers
  bottom := by
    have hbottom := h.bottom
    rw [Reader.bottom] at hbottom ⊢
    rw [houter]
    cases hlast : r.outer.getLast? with
    | none => rw [hlast] at hbottom; exact hwhole hbottom
    | some f => rwa [hlast] at hbottom
  conditional := by
    intro f hf
    rw [houter] at hf
    rcases List.mem_cons.1 hf with rfl | hf
    · exact hconditional
    · exact h.conditional f (List.mem_cons_of_mem _ hf)

/-- The frames are the same. -/
theorem same (h : r.InOrder) (hframe : s.frame = r.frame) (houter : s.outer = r.outer)
    (hwidths : s.widths.length = r.widths.length) : s.InOrder :=
  h.level houter hwidths (by rw [hframe]) (by rw [hframe]; exact id)
    (by rw [hframe]; exact h.conditional r.frame List.mem_cons_self)

theorem scanned (h : r.InOrder) (hs : r.Scanned s) : s.InOrder := by
  rw [hs.same]
  exact h.same rfl rfl rfl

/-- A node without groups comes into the current alternative. -/
theorem pushed (h : r.InOrder) {item : Item} (hitem : item.node.numbers = []) : (r.pushed item).InOrder := by
  refine h.level rfl rfl ?_ id (h.conditional r.frame List.mem_cons_self)
  simp [Reader.pushed, Frame.numbers, Frame.inner, hitem]

theorem repeated (h : r.InOrder) {item : Item} {earlier : List Item} (hitems : r.frame.items = item :: earlier)
    (greed : Greed) (least : Nat) (most : Option Nat) : (r.repeated item.node earlier greed least most).InOrder := by
  refine h.level rfl rfl ?_ id (h.conditional r.frame List.mem_cons_self)
  simp [Reader.repeated, Frame.numbers, Frame.inner, Node.numbers, hitems]

/-- A group opens; if it is a capture, it has the next number. -/
theorem entered (h : r.InOrder) (count : Nat) {kind : GroupKind} {start : Nat} {mode : Mode}
    (hframe : s.frame = ⟨kind, start, mode, [], []⟩) (houter : s.outer = r.frame :: r.outer)
    (hwidths : s.widths.length = r.widths.length + count) (hkind : kind.numbers = List.range' r.groupBound count) :
    s.InOrder where
  numbers := by
    have hnumbers := h.numbers
    rw [Reader.numbers] at hnumbers
    rw [Reader.numbers, houter, List.reverse_cons, List.flatMap_append, List.flatMap_singleton, hnumbers, hwidths,
      hframe, Frame.numbers, hkind, Frame.inner]
    simp only [List.reverse_nil, List.flatMap_nil, List.append_nil, Reader.groupBound]
    rw [Nat.add_comm r.widths.length 1, List.range'_append_1]
  bottom := by
    rw [Reader.bottom, houter, List.getLast?_cons, Option.getD_some]
    exact h.bottom
  conditional := by
    intro f hf
    rw [hframe, houter] at hf
    rcases List.mem_cons.1 hf with rfl | hf
    · exact fun _ => rfl
    · exact h.conditional f hf

theorem parted (h : r.InOrder) (hkind : ∀ group present, r.frame.kind ≠ .conditional group present) :
    r.parted.InOrder := by
  refine h.level rfl rfl ?_ id fun hrefers => ?_
  · simp [Reader.parted, Frame.numbers, Frame.inner, alternative_numbers]
  · change r.frame.kind.refers = true at hrefers
    cases hframe : r.frame.kind with
    | conditional group present => exact absurd hframe (hkind group present)
    | _ => rw [hframe] at hrefers; cases hrefers

theorem otherwise (h : r.InOrder) {group : Nat} (hkind : r.frame.kind = .conditional group none) :
    (r.otherwise group).InOrder := by
  have hdone : r.frame.done = [] := h.conditional r.frame List.mem_cons_self (by rw [hkind]; rfl)
  refine h.level rfl rfl ?_ (fun hwhole => ?_) fun _ => hdone
  · simp [Reader.otherwise, Frame.numbers, Frame.inner, GroupKind.numbers, alternative_numbers, hkind, hdone]
  · rw [hkind] at hwhole
    cases hwhole

theorem close (h : r.InOrder) {around : Frame} {outer : List Frame} (houter : r.outer = around :: outer) :
    (r.close around outer).InOrder := by
  obtain ⟨widths, behindFrom, hwidths, heq⟩ := close_eq r around outer
  have hclosed := closed_numbers r
  have hnumbers := h.numbers
  have hbottom := h.bottom
  rw [Reader.numbers, houter, List.reverse_cons, List.flatMap_append, List.flatMap_singleton] at hnumbers
  rw [Reader.bottom, houter, List.getLast?_cons, Option.getD_some] at hbottom
  rw [heq]
  refine ⟨?_, ?_, fun f hf => ?_⟩
  · rw [hwidths, ← hnumbers, ← hclosed]
    simp [Reader.numbers, Frame.numbers, Frame.inner, Reader.closed]
  · rw [Reader.bottom]
    cases hlast : outer.getLast? <;> simpa [hlast] using hbottom
  · rcases List.mem_cons.1 hf with rfl | hf
    · exact h.conditional around (by rw [houter]; simp)
    · exact h.conditional f (by rw [houter]; simp [show f ∈ outer from hf])

end Reader.InOrder

/-! ## Operations -/

/-- Where the operation succeeds, it keeps the groups in order. -/
def KeepsOrder (x : Read α) : Prop := ∀ r : Reader, r.InOrder → ∀ a s, x.run r = .ok (a, s) → s.InOrder

theorem inOrder_never {x : Read α} (h : Never x) : KeepsOrder x := fun r _ a s hrun => absurd hrun (h r a s)

theorem inOrder_scans {x x' : Read α} (h : Scans [] x x') : KeepsOrder x :=
  fun r hr a s hrun => hr.scanned (h r a s hrun).1

theorem inOrder_bind {x : Read α} {f : α → Read β} (hx : KeepsOrder x) (hf : ∀ a, KeepsOrder (f a)) :
    KeepsOrder (x >>= f) := by
  intro r hr b s h
  obtain ⟨⟨a, t⟩, hxa, hfa⟩ := bind_eq_ok.1 h
  exact hf a t (hx r hr a t hxa) b s hfa

/-- Tokens are taken first. -/
theorem inOrder_scans_bind {x x' : Read α} {f : α → Read β} (hx : Scans [] x x') (hf : ∀ a, KeepsOrder (f a)) :
    KeepsOrder (x >>= f) := inOrder_bind (inOrder_scans hx) hf

theorem Reader.InOrder.taken {r s : Reader} (hr : r.InOrder) {found : Option Token} (h : take?.run r = .ok (found, s)) :
    s.InOrder ∧ s.frame = r.frame ∧ s.outer = r.outer := by
  rcases take_eq_ok h with ⟨-, -, rfl⟩ | ⟨_, _, -, -, -, rfl⟩
  · exact ⟨hr, rfl, rfl⟩
  · exact ⟨hr.same rfl rfl rfl, rfl, rfl⟩

theorem inOrder_take_bind {f : Option Token → Read β} (hf : ∀ t, KeepsOrder (f t)) : KeepsOrder (take? >>= f) :=
  inOrder_bind (fun _ hr _ _ h => (hr.taken h).1) hf

theorem inOrder_ite {p : Prop} [Decidable p] {x y : Read α} (hx : KeepsOrder x) (hy : KeepsOrder y) :
    KeepsOrder (if p then x else y) := by
  split_ifs
  · exact hx
  · exact hy

theorem inOrder_guard {p : Prop} [Decidable p] {x : Read Unit} {next : Unit → Read β} (hx : Never x)
    (hnext : KeepsOrder (next ())) : KeepsOrder (if p then x >>= next else next ()) :=
  inOrder_ite (inOrder_never (never_first hx)) hnext

theorem inOrder_get_bind {f : Reader → Read β} (hf : ∀ r, r.InOrder → KeepsOrder (f r)) : KeepsOrder (get >>= f) :=
  fun r hr b s h => hf r hr r hr b s h

theorem inOrder_mode_bind {f : Mode → Read β} (hf : ∀ mode, KeepsOrder (f mode)) : KeepsOrder (mode >>= f) :=
  fun r hr b s h => hf r.frame.mode r hr b s h

theorem inOrder_pushTest (test : CharTest) : KeepsOrder (pushTest test) := by
  intro r hr a s h
  cases h
  exact hr.pushed rfl

theorem inOrder_pushAnchor (anchor : Anchor) : KeepsOrder (pushAnchor anchor) := by
  intro r hr a s h
  cases h
  exact hr.pushed rfl

theorem inOrder_putsReference {f : Read Unit} (hf : PutsReference f) : KeepsOrder f := by
  intro r hr a s h
  obtain ⟨mode, n, rfl⟩ := hf r a s h
  show (r.pushed ⟨.backref mode n, .yes⟩).InOrder
  exact hr.pushed rfl

/-! ## Items -/

theorem inOrder_digitEscape (c : Char) : KeepsOrder (digitEscape c) := by
  unfold digitEscape
  extract_lets reference
  have hreference : ∀ digits, KeepsOrder (reference digits) := fun digits =>
    inOrder_get_bind fun _ _ => inOrder_ite
      (inOrder_ite (inOrder_never (never_failBack _ _)) (inOrder_putsReference (putsReference_checked _)))
      (inOrder_never (never_failBack _ _))
  refine inOrder_scans_bind (scans_acceptIf (by decide)) fun d => ?_
  cases d with
  | none => exact hreference _
  | some d =>
    refine inOrder_ite (inOrder_scans_bind (scans_acceptIf (by decide)) fun e => ?_) (hreference _)
    cases e with
    | none => exact hreference _
    | some e => exact inOrder_scans_bind (scans_octalEscape _) fun _ => inOrder_pushTest _

theorem inOrder_readEscape (c : Char) : KeepsOrder (readEscape c) := by
  unfold readEscape
  split
  · exact inOrder_pushAnchor _
  split
  · exact inOrder_pushTest _
  split
  · exact inOrder_pushTest _
  refine inOrder_scans_bind (scans_codeEscape? c) fun n => ?_
  split
  · exact inOrder_pushTest _
  refine inOrder_ite ?_ (inOrder_ite (inOrder_digitEscape c) ?_)
  · exact inOrder_scans_bind (scans_takeWhile (by decide) _) fun _ => inOrder_pushTest _
  · exact inOrder_scans_bind (scans_plainEscape _) fun _ => inOrder_pushTest _

theorem inOrder_readSet (start : Nat) : KeepsOrder (readSet start) :=
  inOrder_scans_bind (scans_accept (by decide)) fun _ => inOrder_get_bind fun _ _ =>
    inOrder_scans_bind (scans_readMembers start start _ le_rfl) fun _ => inOrder_pushTest _

theorem inOrder_quantify (start least : Nat) (most : Option Nat) : KeepsOrder (quantify start least most) := by
  intro r hr a s h
  rw [run_quantify_eq] at h
  cases hitems : r.frame.items with
  | nil => rw [hitems] at h; cases h
  | cons item earlier =>
    rw [hitems] at h
    cases hquantifiable : item.quantifiable with
    | no => simp only [hquantifiable] at h; cases h
    | already => simp only [hquantifiable] at h; cases h
    | yes =>
      simp only [hquantifiable] at h
      obtain ⟨⟨greed, t⟩, hgreed, h⟩ := bind_eq_ok.1 h
      cases h
      obtain ⟨ht, -⟩ := @scans_readGreed [] r greed t hgreed
      exact (hr.scanned ht).repeated (by rw [ht.same]; exact hitems) greed least most

theorem inOrder_quantifyBounds (start : Nat) (high : List Char) (least : Nat) :
    KeepsOrder (quantifyBounds start high least) :=
  inOrder_ite (inOrder_quantify _ _ _) (inOrder_scans_bind (scans_repetitions _) fun _ =>
    inOrder_ite (inOrder_never (never_failAt _ _)) (inOrder_quantify _ _ _))

theorem inOrder_closeBraces (start : Nat) (low high : List Char) {here : Reader} (hhere : here.InOrder) :
    KeepsOrder (closeBraces start low high here) := by
  refine inOrder_scans_bind (scans_accept (by decide)) fun close => inOrder_ite ?_ fun r _ a s h => ?_
  · exact inOrder_ite (inOrder_scans_bind (scans_pure _) fun _ => inOrder_quantifyBounds _ _ _)
      (inOrder_scans_bind (scans_repetitions _) fun _ => inOrder_quantifyBounds _ _ _)
  · -- reading goes back to where it was
    exact inOrder_pushTest _ here hhere a s h

theorem inOrder_readBraces (start : Nat) : KeepsOrder (readBraces start) := by
  have hdigits : ∀ limit, Scans [] (takeWhile Text.isAsciiDigit limit) (takeWhile Text.isAsciiDigit limit) :=
    scans_takeWhile (by decide)
  have hbounds : ∀ here : Reader, here.InOrder → KeepsOrder (readBounds start here) := fun here hhere =>
    inOrder_scans_bind (hdigits _) fun low => inOrder_scans_bind (scans_accept (by decide)) fun comma =>
      inOrder_ite (inOrder_scans_bind (hdigits _) fun high => inOrder_closeBraces start low high hhere)
        (inOrder_scans_bind (scans_pure _) fun high => inOrder_closeBraces start low high hhere)
  intro r hr a s h
  rw [run_readBraces] at h
  split_ifs at h
  · exact inOrder_pushTest _ r hr a s h
  · exact hbounds r hr r hr a s h

/-! ## Groups -/

theorem inOrder_openFrame {kind : GroupKind} (hkind : kind.numbers = []) (start : Nat) (mode : Mode) :
    KeepsOrder (openFrame kind start mode) := by
  intro r hr a s h
  cases h
  exact hr.entered 0 rfl rfl rfl hkind

theorem inOrder_openCapture (start : Nat) (name : Option String) : KeepsOrder (openCapture start name) := by
  have hcaptured : ∀ (r : Reader) names, r.InOrder → (r.captured start names).InOrder := fun r names hr =>
    hr.entered 1 rfl rfl (by simp [Reader.captured]) rfl
  intro r hr a s h
  cases name with
  | none =>
    rw [run_openCapture_none] at h
    cases h
    exact hcaptured r [] hr
  | some name =>
    rw [run_openCapture_some] at h
    cases hlookup : r.names.lookup name with
    | some earlier =>
      rw [hlookup] at h
      exact absurd h (never_failBack _ _ r a s)
    | none =>
      rw [hlookup] at h
      cases h
      exact hcaptured r _ hr

theorem inOrder_readNamedReference : KeepsOrder readNamedReference := by
  refine inOrder_scans_bind (scans_groupName _) fun name => inOrder_get_bind fun r _ => ?_
  split
  · exact inOrder_never (never_failBack _ _)
  · exact inOrder_guard (never_failBack _ _) (inOrder_putsReference (putsReference_checked _))

theorem inOrder_readCondition (start : Nat) : KeepsOrder (readCondition start) := by
  refine inOrder_scans_bind (scans_nameUntil _ _) fun text => ?_
  intro r hr a s h
  obtain ⟨⟨group, t⟩, hgroup, h⟩ := bind_eq_ok.1 h
  obtain ⟨references, rfl⟩ := conditionGroup_eq_ok hgroup
  obtain ⟨⟨_, t⟩, hcheck, h⟩ := bind_eq_ok.1 h
  obtain rfl := checkLookBehind_eq_ok hcheck
  cases h
  exact hr.entered 0 rfl rfl rfl rfl

theorem inOrder_openLook (start : Nat) (behind negated : Bool) : KeepsOrder (openLook start behind negated) := by
  intro r hr a s h
  rw [run_openLook] at h
  cases h
  exact hr.entered 0 rfl rfl rfl rfl

theorem inOrder_setGlobalFlags (start : Nat) (on : List Char) : KeepsOrder (setGlobalFlags start on) := by
  refine inOrder_get_bind fun r hr => inOrder_guard (never_failAt _ _) fun _ _ a s h => ?_
  cases h
  exact hr.level rfl rfl rfl id (hr.conditional r.frame List.mem_cons_self)

theorem inOrder_openOptions (start : Nat) (on off : List Char) : KeepsOrder (openOptions start on off) := by
  unfold openOptions
  refine inOrder_guard (never_failBack _ _) ?_
  refine inOrder_guard (never_failBack _ _) ?_
  exact inOrder_mode_bind fun _ => inOrder_openFrame rfl _ _

theorem inOrder_readOff (start limit : Nat) (on : List Char) (close : Char) :
    KeepsOrder (readOff start limit on close) := by
  have hopened := inOrder_openOptions start on
  refine inOrder_ite (inOrder_take_bind fun t => ?_) (inOrder_scans_bind (scans_pure _) hopened)
  split
  · exact inOrder_never (never_first (never_failHere _))
  · exact inOrder_ite (inOrder_scans_bind (scans_flagsOff _ _ le_rfl) hopened)
      (inOrder_never (never_first (never_badFlag _ _)))
  · exact inOrder_never (never_first (never_badFlag _ _))

theorem inOrder_readFlags (start : Nat) (letter : Char) : KeepsOrder (readFlags start letter) := by
  have hchosen : ∀ limit flags, KeepsOrder (readChosen start limit flags) := fun limit flags =>
    inOrder_ite (inOrder_setGlobalFlags _ _) (inOrder_guard (never_failBack _ _) (inOrder_readOff _ _ _ _))
  intro r hr a s h
  rw [run_readFlags] at h
  split_ifs at h
  · exact hchosen _ _ r hr a s h
  · exact inOrder_scans_bind (scans_flagsOn _ _ le_rfl) (hchosen _) r hr a s h

theorem inOrder_openGroup (start : Nat) : KeepsOrder (openGroup start) := by
  refine inOrder_scans_bind (scans_accept (by decide)) fun extended =>
    inOrder_ite (inOrder_openCapture _ _) (inOrder_take_bind fun t => ?_)
  split
  · exact inOrder_never (never_failHere _)
  · refine inOrder_scans_bind (scans_accept (by decide)) fun named => inOrder_ite ?_ ?_
    · exact inOrder_scans_bind (scans_groupName _) fun _ => inOrder_openCapture _ _
    · refine inOrder_scans_bind (scans_accept (by decide)) fun reference =>
        inOrder_ite inOrder_readNamedReference (inOrder_take_bind fun u => ?_)
      split
      · exact inOrder_never (never_failHere _)
      · exact inOrder_never (never_failBack _ _)
  · exact inOrder_mode_bind fun _ => inOrder_openFrame rfl _ _
  · exact inOrder_get_bind fun _ _ => inOrder_scans (scans_skipComment start start le_rfl)
  · exact inOrder_openLook _ _ _
  · exact inOrder_openLook _ _ _
  · refine inOrder_take_bind fun u => ?_
    split
    · exact inOrder_never (never_failHere _)
    · exact inOrder_openLook _ _ _
    · exact inOrder_openLook _ _ _
    · exact inOrder_never (never_failBack _ _)
  · exact inOrder_readCondition _
  · exact inOrder_mode_bind fun _ => inOrder_openFrame rfl _ _
  · split
    · exact inOrder_ite (inOrder_readFlags _ _) (inOrder_never (never_failBack _ _))
    · exact inOrder_never (never_failBack _ _)

theorem inOrder_nextAlternative : KeepsOrder nextAlternative := by
  intro r hr a s h
  by_cases hconditional : ∃ group present, r.frame.kind = .conditional group present
  · obtain ⟨group, present, hkind⟩ := hconditional
    cases present with
    | some present => exact absurd h (run_nextAlternative_full hkind)
    | none =>
      rw [run_nextAlternative_otherwise hkind] at h
      obtain ⟨⟨found, u⟩, htake, h⟩ := bind_eq_ok.1 h
      cases h
      obtain ⟨hu, hframe, -⟩ := hr.taken htake
      exact hu.otherwise (by rw [hframe]; exact hkind)
  · have hkind : ∀ group present, r.frame.kind ≠ .conditional group present := fun group present hkind =>
      hconditional ⟨group, present, hkind⟩
    rw [run_nextAlternative_parted hkind] at h
    obtain ⟨⟨found, u⟩, htake, h⟩ := bind_eq_ok.1 h
    cases h
    obtain ⟨hu, hframe, -⟩ := hr.taken htake
    exact hu.parted (by rw [hframe]; exact hkind)

theorem inOrder_closeGroup : KeepsOrder closeGroup := by
  intro r hr a s h
  cases houter : r.outer with
  | nil =>
    unfold closeGroup at h
    rw [StateT.run_bind, StateT.run_get] at h
    simp only [pure_bind, houter] at h
    exact absurd h (never_ite (never_throw _) (never_failHere _) r a s)
  | cons around outer =>
    rw [run_closeGroup houter] at h
    obtain ⟨⟨found, u⟩, htake, h⟩ := bind_eq_ok.1 h
    cases h
    obtain ⟨hu, -, hsame⟩ := hr.taken htake
    exact hu.close (hsame.trans houter)

/-! ## Steps -/

theorem inOrder_readItem (start : Nat) (c : Char) : KeepsOrder (readItem start c) := by
  unfold readItem
  split
  · exact inOrder_readSet _
  · exact inOrder_quantify _ _ _
  · exact inOrder_quantify _ _ _
  · exact inOrder_quantify _ _ _
  · exact inOrder_readBraces _
  · exact inOrder_pushTest _
  · exact inOrder_openGroup _
  · exact inOrder_pushAnchor _
  · exact inOrder_pushAnchor _
  · exact inOrder_pushTest _

/-- **A step of reading** keeps the groups in order. -/
theorem inOrder_step {r s : Reader} {t : Token} {rest : List Token} {a : Unit} (hr : r.InOrder) (hrest : r.rest = t :: rest)
    (h : step.run r = .ok (a, s)) : s.InOrder := by
  rw [run_step_cons hrest] at h
  split_ifs at h
  · exact inOrder_nextAlternative r hr a s h
  · exact inOrder_closeGroup r hr a s h
  · obtain ⟨⟨found, u⟩, htake, hread⟩ := bind_eq_ok.1 h
    have hu := (hr.taken htake).1
    cases t with
    | plain c =>
      rw [readToken, run_readPlain] at hread
      split_ifs at hread
      · cases hread
        exact hu
      · exact hu.scanned (skipLine_scanned _ u a s hread)
      · exact inOrder_readItem _ _ u hu a s hread
    | escaped c => exact inOrder_readEscape c u hu a s hread
    | loneBackslash => exact absurd hread (never_failAt _ _ u a s)

theorem inOrder_steps (n : Nat) : KeepsOrder (steps n) := by
  induction n with
  | zero => exact inOrder_scans (scans_pure ())
  | succ n ih =>
    intro r hr a s h
    rcases steps_eq_ok h with ⟨-, rfl⟩ | ⟨t, rest, u, hrest, hstep, hsteps⟩
    · exact hr
    · exact ih u (inOrder_step hr hrest hstep) a s hsteps

theorem Reader.InOrder.reached {r s : Reader} (hr : r.InOrder) (h : r.Reaches s) : s.InOrder := by
  obtain ⟨n, -, hsteps⟩ := h
  exact inOrder_steps (n + 0) r hr () s ((hsteps 0).trans rfl)

/-! ## Whole expressions -/

theorem inOrder_facingText (text : String) : (Reader.facingText text).InOrder :=
  ⟨rfl, rfl, fun f hf hrefers => by rw [List.mem_singleton.1 hf] at hrefers; cases hrefers⟩

theorem ofReader_eq_ok {r : Reader} {regex : Regex} (h : ofReader r = .ok regex) :
    r.outer = [] ∧ regex = ⟨r.frame.body, r.widths.length, r.names⟩ := by
  refine ⟨ofReader_outer h, ?_⟩
  unfold ofReader at h
  dsimp only at h
  rw [if_pos (by simpa using ofReader_outer h)] at h
  split at h
  · cases h
  · split at h
    · cases h
    · split at h
      · cases h
      · cases h
        rfl

/-- What a compiled expression was read to. -/
theorem reader_of_compile {text : String} {regex : Regex} (h : compile text = .ok regex) :
    ∃ s, Reader.finish {} text = .ok s ∧ s.outer = [] ∧ regex = ⟨s.frame.body, s.widths.length, s.names⟩ := by
  obtain ⟨s, hfinish, hreader⟩ := bind_eq_ok.1 (show (Reader.finish {} text >>= ofReader) = _ from h)
  exact ⟨s, hfinish, ofReader_eq_ok hreader⟩

/-- **Groups are numbered by their opening parentheses**, from one on, each with a number of its own. -/
theorem compile_numbers {text : String} {regex : Regex} (h : compile text = .ok regex) :
    regex.root.numbers = List.range' 1 regex.groups := by
  obtain ⟨s, hfinish, houter, rfl⟩ := reader_of_compile h
  obtain ⟨hnumbers, hbottom, -⟩ := inOrder_steps _ _ (inOrder_facingText text) () s (steps_of_finish hfinish).2
  rw [Reader.bottom, houter] at hbottom
  rw [Reader.numbers, houter, Frame.numbers, show s.frame.kind = .whole from hbottom] at hnumbers
  exact (body_numbers s.frame).trans hnumbers

end UrlRouter.Regex
