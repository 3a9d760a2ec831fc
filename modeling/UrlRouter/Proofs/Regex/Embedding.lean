/-
Reading an expression between parentheses.

An expression that can be read by itself is also read as the body of a group within a longer expression, unless it
refers to groups or sets options for the whole: the groups then have higher numbers, and nothing else changes. The
state of reading it there holds the state of reading it alone, with what was there before around it.

Results:
- `Context.Holds`: how the state within the longer expression goes with the state of reading the expression alone.
- `Context.Carries`: where an operation succeeds alone, it does the same in the longer expression, or fails there
  because of a reference, a name or an option.
- `carries_readEscape`, `carries_quantify`, `carries_readBraces`: so do the operations that read items and repeat them.
-/
import Mathlib.Tactic
import UrlRouter.Proofs.Regex.Scanning
import UrlRouter.Proofs.Regex.Shift
import UrlRouter.Proofs.Regex.Reading

namespace UrlRouter.Regex

/-! ## Moved parts -/

/-- Unless the node refers to a group, `node'` is the node with its groups moved up. -/
def Node.Moved (offset : Nat) (node node' : Node) : Prop := node.refers = false → node' = node.shift offset

structure Item.Moved (offset : Nat) (item item' : Item) : Prop where
  node : item.node.Moved offset item'.node
  quantifiable : item'.quantifiable = item.quantifiable

inductive GroupKind.Moved (offset : Nat) : GroupKind → GroupKind → Prop
  | capture (number : Nat) : Moved offset (.capture number) (.capture (offset + number))
  | plain : Moved offset .plain .plain
  | atomic : Moved offset .atomic .atomic
  | look (behind negated : Bool) (outer outer' : Option Nat) :
    Moved offset (.look behind negated outer) (.look behind negated outer')
  | conditional (group group' : Nat) {present present' : Option Node} (h : present'.isSome = present.isSome) :
    Moved offset (.conditional group present) (.conditional group' present')

/-- what an open group has read is moved -/
structure Frame.Moved (offset : Nat) (f f' : Frame) : Prop where
  mode : f'.mode = f.mode
  done : List.Forall₂ (Node.Moved offset) f.done f'.done
  items : List.Forall₂ (Item.Moved offset) f.items f'.items

/-! ## References, names and options -/

def GroupKind.refers : GroupKind → Bool
  | .conditional _ _ => true
  | _ => false

/-- whether what an open group has read refers to a group -/
def Frame.refers (f : Frame) : Bool := f.kind.refers || f.done.any Node.refers || f.items.any (·.node.refers)

/-- Nothing has been read that depends on the other groups or bears on the whole expression. -/
structure Reader.Clean (r : Reader) : Prop where
  names : r.names = []
  flags : r.globalFlags = []
  references : r.references = []
  frames : ∀ f ∈ r.frame :: r.outer, f.refers = false

/-! ## States side by side -/

/-- Where an expression stands: in a group of the given kind, behind `groups` groups, when groups of the given names and
the frames around it are open and conditionals have referred to groups, and before the closing parenthesis and `tail`. -/
structure Context where
  kind : GroupKind
  unconditional : ∀ group present, kind ≠ .conditional group present
  groups : Nat
  names : List (String × Nat)
  references : List (Nat × Nat)
  around : Frame
  outer : List Frame
  tail : List Token

namespace Context

variable (c : Context)

/-- The frames of the expression, of which the outermost is that of the group around it. -/
inductive Frames : Frame → List Frame → Frame → List Frame → Prop
  | base {f f' : Frame} (kind : f.kind = .whole) (kind' : f'.kind = c.kind) (mode : f.mode = {})
    (parts : f.Moved c.groups f') : Frames f [] f' (c.around :: c.outer)
  | inner {f f' g g' : Frame} {outer outer' : List Frame} (kind : f.kind.Moved c.groups f'.kind)
    (parts : f.Moved c.groups f') (rest : Frames g outer g' outer') : Frames f (g :: outer) f' (g' :: outer')

/-- `r'` is the state within the longer expression when `r` is the state of reading the expression alone. -/
structure Holds (r r' : Reader) : Prop where
  rest : r'.rest = r.rest ++ .plain ')' :: c.tail
  groups : r'.widths.length = c.groups + r.widths.length
  names : r'.names = c.names ++ r.names.map fun named => (named.1, c.groups + named.2)
  frames : c.Frames r.frame r.outer r'.frame r'.outer
  references : r.Clean → r'.references = c.references
  flags : r'.globalFlags = []

/-- The outcome within the longer expression when the expression alone gives `a` and leaves `s`. -/
def Agrees {α : Type} (s : Reader) (a : α) : Except CompileError (α × Reader) → Prop
  | .ok (a', s') => a' = a ∧ c.Holds s s'
  | .error _ => ¬s.Clean

/-- Where `f` succeeds alone, `f'` does the same within the longer expression, or the state is not clean any more. -/
def Carries {α : Type} (f f' : Read α) : Prop :=
  ∀ r a s, f.run r = .ok (a, s) → (s.Clean → r.Clean) ∧ r.Before s ∧
    ∀ r', c.Holds r r' → c.Agrees s a (f'.run r')

end Context

variable {α β : Type} {c : Context}

theorem carries_never {f f' : Read α} (h : Never f) : c.Carries f f' := fun r a s hrun => absurd hrun (h r a s)

theorem carries_pure (a : α) : c.Carries (pure a) (pure a) := by
  intro r b s h
  cases h
  exact ⟨id, .of_eq rfl, fun r' hr' => ⟨rfl, hr'⟩⟩

/-- An operation that gave the value before. -/
def Gives (x : Read α) (a : α) : Prop := ∃ r s, x.run r = .ok (a, s)

theorem carries_bind {x x' : Read α} {f f' : α → Read β} (hx : c.Carries x x')
    (hf : ∀ a, Gives x a → c.Carries (f a) (f' a)) : c.Carries (x >>= f) (x' >>= f') := by
  intro r b s h
  obtain ⟨⟨a, t⟩, hxa, hfa⟩ := bind_eq_ok.1 h
  obtain ⟨hclean, hle, hx'⟩ := hx r a t hxa
  obtain ⟨hclean', hle', hf'⟩ := hf a ⟨r, t, hxa⟩ t b s hfa
  refine ⟨fun hs => hclean (hclean' hs), hle.trans hle', fun r' hr' => ?_⟩
  have hagrees := hx' r' hr'
  show c.Agrees s b (x'.run r' >>= fun pair => (f' pair.1).run pair.2)
  cases hrun : x'.run r' with
  | error e =>
    rw [hrun] at hagrees
    exact fun hs => hagrees (hclean' hs)
  | ok pair =>
    rw [hrun] at hagrees
    obtain ⟨rfl, ht⟩ := hagrees
    exact hf' pair.2 ht

theorem carries_cases {p : Prop} [Decidable p] {f f' g g' : Read α} (hf : p → c.Carries f f')
    (hg : ¬p → c.Carries g g') : c.Carries (if p then f else g) (if p then f' else g') := by
  split_ifs with hp
  · exact hf hp
  · exact hg hp

theorem carries_ite {p : Prop} [Decidable p] {f f' g g' : Read α} (hf : c.Carries f f') (hg : c.Carries g g') :
    c.Carries (if p then f else g) (if p then f' else g') := carries_cases (fun _ => hf) fun _ => hg

/-- Something that is checked first. -/
theorem carries_guard {p : Prop} [Decidable p] {x x' : Read Unit} {next next' : Unit → Read β} (hx : Never x)
    (hnext : c.Carries (next ()) (next' ())) :
    c.Carries (if p then x >>= next else next ()) (if p then x' >>= next' else next' ()) :=
  carries_ite (carries_bind (carries_never hx) fun _ _ => hnext) hnext

namespace Context

theorem Frames.mode {f f' : Frame} {outer outer' : List Frame} (h : c.Frames f outer f' outer') : f'.mode = f.mode := by
  cases h with
  | base _ _ _ parts => exact parts.mode
  | inner _ parts _ => exact parts.mode

theorem Frames.parts {f f' : Frame} {outer outer' : List Frame} (h : c.Frames f outer f' outer') :
    f.Moved c.groups f' := by
  cases h with
  | base _ _ _ parts => exact parts
  | inner _ parts _ => exact parts

/-- The innermost group has read something else. -/
theorem Frames.replace {f f' g g' : Frame} {outer outer' : List Frame} (h : c.Frames f outer f' outer')
    (hkind : g.kind = f.kind) (hkind' : g'.kind = f'.kind) (hmode : g.mode = f.mode) (parts : g.Moved c.groups g') :
    c.Frames g outer g' outer' := by
  cases h with
  | base kind kind' mode _ => exact .base (hkind.trans kind) (hkind'.trans kind') (hmode.trans mode) parts
  | inner kind _ rest =>
    refine .inner ?_ parts rest
    rw [hkind, hkind']
    exact kind

end Context

/-- What is done with the state may only rely on its mode and on how many tokens are left. -/
theorem carries_get_bind {f f' : Reader → Read β}
    (hf : ∀ r r' : Reader, r.rest.length ≤ r'.rest.length → r'.frame.mode = r.frame.mode → c.Carries (f r) (f' r')) :
    c.Carries (get >>= f) (get >>= f') := by
  intro r b s h
  obtain ⟨hclean, hle, -⟩ := hf r r le_rfl rfl r b s h
  refine ⟨hclean, hle, fun r' hr' => ?_⟩
  have hlength : r.rest.length ≤ r'.rest.length := by rw [hr'.rest, List.length_append]; omega
  exact (hf r r' hlength hr'.frames.mode r b s h).2.2 r' hr'

theorem carries_mode_bind {f f' : Mode → Read β} (hf : ∀ mode, c.Carries (f mode) (f' mode)) :
    c.Carries (mode >>= f) (mode >>= f') := by
  intro r b s h
  obtain ⟨hclean, hle, hf'⟩ := hf r.frame.mode r b s h
  refine ⟨hclean, hle, fun r' hr' => ?_⟩
  have hagrees := hf' r' hr'
  rw [← hr'.frames.mode] at hagrees
  exact hagrees

theorem Reader.Scanned.clean {r s : Reader} (h : r.Scanned s) (hs : s.Clean) : r.Clean := by
  rw [h.same] at hs
  exact ⟨hs.names, hs.flags, hs.references, hs.frames⟩

theorem Reader.Scanned.holds {r s r' : Reader} (h : r.Scanned s) (hr' : c.Holds r r') (position : Nat) :
    c.Holds s { r' with rest := s.rest ++ .plain ')' :: c.tail, position } := by
  rw [h.same]
  exact ⟨rfl, hr'.groups, hr'.names, hr'.frames, fun hs => hr'.references ⟨hs.names, hs.flags, hs.references, hs.frames⟩,
    hr'.flags⟩

/-- Operations that only take tokens. -/
theorem carries_scans {f f' : Read α} (h : Scans c.tail f f') : c.Carries f f' := by
  intro r a s hrun
  obtain ⟨hs, hf'⟩ := h r a s hrun
  refine ⟨hs.clean, hs.before, fun r' hr' => ?_⟩
  obtain ⟨position, hrun'⟩ := hf' r' hr'.rest
  rw [hrun']
  exact ⟨rfl, hs.holds hr' position⟩

/-- Something that is done with the next token and fails where there is none. -/
theorem carries_take_bind {f f' : Option Token → Read β} (hnone : Never (f none))
    (hsome : ∀ t, c.Carries (f (some t)) (f' (some t))) : c.Carries (take? >>= f) (take? >>= f') := by
  intro r b s h
  obtain ⟨⟨found, t⟩, htake, hf⟩ := bind_eq_ok.1 h
  cases found with
  | none => exact absurd hf (hnone t b s)
  | some token =>
    obtain ⟨ht, -, htake'⟩ := @take_scanned c.tail _ _ _ htake
    obtain ⟨hclean, hle, hf'⟩ := hsome token t b s hf
    refine ⟨fun hs => ht.clean (hclean hs), ht.before.trans hle, fun r' hr' => ?_⟩
    obtain ⟨position, hrun'⟩ := htake' r' hr'.rest
    rw [StateT.run_bind, hrun', ok_bind]
    exact hf' _ (ht.holds hr' position)

/-! ## Items -/

theorem Reader.Clean.of_push {r : Reader} {item : Item}
    (h : ({ r with frame := { r.frame with items := item :: r.frame.items } } : Reader).Clean) : r.Clean := by
  refine ⟨h.names, h.flags, h.references, fun f hf => ?_⟩
  rcases List.mem_cons.1 hf with rfl | hf
  · have htop := h.frames _ List.mem_cons_self
    simp only [Frame.refers, List.any_cons, Bool.or_eq_false_iff] at htop ⊢
    exact ⟨htop.1, htop.2.2⟩
  · exact h.frames f (List.mem_cons_of_mem _ hf)

theorem Context.Holds.push {r r' : Reader} (h : c.Holds r r') {item item' : Item}
    (hitem : item.Moved c.groups item') :
    c.Holds { r with frame := { r.frame with items := item :: r.frame.items } }
      { r' with frame := { r'.frame with items := item' :: r'.frame.items } } := by
  obtain ⟨hmode, hdone, hitems⟩ := h.frames.parts
  exact ⟨h.rest, h.groups, h.names, h.frames.replace rfl rfl rfl ⟨hmode, hdone, .cons hitem hitems⟩,
    fun hs => h.references hs.of_push, h.flags⟩

theorem carries_push {node node' : Node} (hnode : node.Moved c.groups node') (quantifiable : Quantifiable) :
    c.Carries (push node quantifiable) (push node' quantifiable) := by
  intro r a s h
  cases h
  exact ⟨Reader.Clean.of_push, .of_eq rfl, fun r' hr' => ⟨rfl, hr'.push ⟨hnode, rfl⟩⟩⟩

theorem carries_pushTest (test : CharTest) : c.Carries (pushTest test) (pushTest test) :=
  carries_mode_bind fun _ => carries_push (fun _ => rfl) _

theorem carries_pushAnchor (anchor : Anchor) : c.Carries (pushAnchor anchor) (pushAnchor anchor) :=
  carries_mode_bind fun _ => carries_push (fun _ => rfl) _

/-! ## References -/

/-- Where the operation succeeds, it puts a reference to a group into the current alternative. -/
def PutsReference (f : Read Unit) : Prop :=
  ∀ r a s, f.run r = .ok (a, s) →
    ∃ mode n, s = { r with frame := { r.frame with items := ⟨.backref mode n, .yes⟩ :: r.frame.items } }

theorem putsReference_pushBackref (n : Nat) : PutsReference (pushBackref n) := by
  intro r a s h
  cases h
  exact ⟨_, n, rfl⟩

theorem checkLookBehind_eq_ok {n : Nat} {r s : Reader} {a : Unit} (h : (checkLookBehind n).run r = .ok (a, s)) :
    s = r := by
  unfold checkLookBehind at h
  rw [StateT.run_bind, StateT.run_get] at h
  simp only [pure_bind] at h
  cases hbehind : r.behindFrom with
  | none =>
    rw [hbehind] at h
    cases h
    rfl
  | some bound =>
    rw [hbehind] at h
    simp only [StateT.run_bind, StateT.run_get, pure_bind] at h
    split_ifs at h
    · exact absurd h (never_failHere _ r a s)
    · exact absurd h (never_failHere _ r a s)
    · cases h
      rfl

theorem putsReference_checked (n : Nat) : PutsReference (checkLookBehind n >>= fun _ => pushBackref n) := by
  intro r a s h
  obtain ⟨⟨_, t⟩, hcheck, hpush⟩ := bind_eq_ok.1 h
  obtain rfl := checkLookBehind_eq_ok hcheck
  exact putsReference_pushBackref n t a s hpush

/-- A reference, wherever it points, is the end of a clean state. -/
theorem carries_putsReference {f : Read Unit} (hf : PutsReference f) : c.Carries f f := by
  intro r a s h
  obtain ⟨mode, n, rfl⟩ := hf r a s h
  have hdirty : ¬({ r with frame := { r.frame with items := ⟨.backref mode n, .yes⟩ :: r.frame.items } } :
      Reader).Clean := by
    intro hclean
    have htop := hclean.frames _ List.mem_cons_self
    simp [Frame.refers, Node.refers] at htop
  refine ⟨fun hclean => absurd hclean hdirty, .of_eq rfl, fun r' hr' => ?_⟩
  cases hrun : f.run r' with
  | error e => exact hdirty
  | ok pair =>
    obtain ⟨a', s'⟩ := pair
    obtain ⟨mode', n', rfl⟩ := hf r' a' s' hrun
    exact ⟨rfl, hr'.push ⟨fun hrefers => by simp [Node.refers] at hrefers, rfl⟩⟩

theorem carries_digitEscape (d : Char) : c.Carries (digitEscape d) (digitEscape d) := by
  unfold digitEscape
  extract_lets reference
  have hreference : ∀ digits, c.Carries (reference digits) (reference digits) := by
    intro digits
    have hputs : PutsReference (reference digits) := by
      intro r a s h
      simp only [reference, StateT.run_bind, StateT.run_get, pure_bind] at h
      revert h
      split_ifs
      · exact fun h => absurd h (never_failBack _ _ r a s)
      · exact putsReference_checked _ r a s
      · exact fun h => absurd h (never_failBack _ _ r a s)
    exact carries_putsReference hputs
  refine carries_bind (carries_scans (scans_acceptIf (by decide))) fun found _ => ?_
  cases found with
  | none => exact hreference _
  | some e =>
    refine carries_ite ?_ (hreference _)
    refine carries_bind (carries_scans (scans_acceptIf (by decide))) fun found _ => ?_
    cases found with
    | none => exact hreference _
    | some g => exact carries_bind (carries_scans (scans_octalEscape _)) fun _ _ => carries_pushTest _

theorem carries_readEscape (d : Char) : c.Carries (readEscape d) (readEscape d) := by
  unfold readEscape
  split
  · exact carries_pushAnchor _
  split
  · exact carries_pushTest _
  split
  · exact carries_pushTest _
  refine carries_bind (carries_scans (scans_codeEscape? d)) fun n _ => ?_
  split
  · exact carries_pushTest _
  refine carries_ite ?_ (carries_ite (carries_digitEscape d) ?_)
  · exact carries_bind (carries_scans (scans_takeWhile (by decide) _)) fun _ _ => carries_pushTest _
  · exact carries_bind (carries_scans (scans_plainEscape d)) fun _ _ => carries_pushTest _

/-! ## Sets and quantifiers -/

theorem carries_readSet (start start' : Nat) : c.Carries (readSet start) (readSet start') := by
  refine carries_bind (carries_scans (scans_accept (by decide))) fun negated _ => ?_
  refine carries_get_bind fun r r' hle _ => ?_
  exact carries_bind (carries_scans (scans_readMembers _ _ _ (by omega))) fun _ _ => carries_pushTest _

/-- the sign behind a quantifier -/
def readGreed : Read Greed := do
  if ← accept '?' then pure .lazy else if ← accept '+' then pure .possessive else pure .greedy

theorem scans_readGreed {tail : List Token} : Scans tail readGreed readGreed :=
  scans_bind (scans_accept (by decide)) fun _ => scans_ite (scans_pure _)
    (scans_bind (scans_accept (by decide)) fun _ => scans_ite (scans_pure _) (scans_pure _))

/-- the state in which the latest item is repeated -/
def Reader.repeated (r : Reader) (node : Node) (earlier : List Item) (greed : Greed) (least : Nat) (most : Option Nat) :
    Reader :=
  { r with frame := { r.frame with items := ⟨.loop greed least most node, .already⟩ :: earlier } }

theorem run_quantify_eq (start least : Nat) (most : Option Nat) (r : Reader) :
    (quantify start least most).run r =
      match r.frame.items with
      | [] => (failAt .nothingToRepeat start : Read Unit).run r
      | item :: earlier =>
        match item.quantifiable with
        | .no => (failAt .nothingToRepeat start : Read Unit).run r
        | .already => (failAt .multipleRepeat start : Read Unit).run r
        | .yes => readGreed.run r >>= fun (greed, t) => .ok ((), t.repeated item.node earlier greed least most) := by
  unfold quantify
  rw [StateT.run_bind, StateT.run_get]
  simp only [pure_bind]
  cases hitems : r.frame.items with
  | nil => rfl
  | cons item earlier =>
    cases hquantifiable : item.quantifiable with
    | no => simp only [hquantifiable]
    | already => simp only [hquantifiable]
    | yes =>
      simp only [hquantifiable, readGreed, StateT.run_bind, bind_assoc]
      congr 1
      funext pair
      split_ifs
      · rfl
      · simp only [StateT.run_bind, bind_assoc]
        congr 1
        funext pair
        split_ifs <;> rfl

theorem Reader.Clean.of_repeated {r : Reader} {item : Item} {earlier : List Item} {greed : Greed} {least : Nat}
    {most : Option Nat} (hitems : r.frame.items = item :: earlier)
    (h : (r.repeated item.node earlier greed least most).Clean) : r.Clean := by
  refine ⟨h.names, h.flags, h.references, fun f hf => ?_⟩
  rcases List.mem_cons.1 hf with rfl | hf
  · have htop := h.frames _ List.mem_cons_self
    simp only [Frame.refers, hitems]
    exact htop
  · exact h.frames f (List.mem_cons_of_mem _ hf)

theorem Node.Moved.loop {offset : Nat} {node node' : Node} (h : node.Moved offset node') (greed : Greed) (least : Nat)
    (most : Option Nat) : (Node.loop greed least most node).Moved offset (.loop greed least most node') :=
  fun hrefers => congrArg _ (h hrefers)

theorem carries_quantify (start start' least : Nat) (most : Option Nat) :
    c.Carries (quantify start least most) (quantify start' least most) := by
  intro r a s h
  rw [run_quantify_eq] at h
  cases hitems : r.frame.items with
  | nil =>
    rw [hitems] at h
    cases h
  | cons item earlier =>
    rw [hitems] at h
    cases hquantifiable : item.quantifiable with
    | no => simp only [hquantifiable] at h; cases h
    | already => simp only [hquantifiable] at h; cases h
    | yes =>
      simp only [hquantifiable] at h
      obtain ⟨⟨greed, t⟩, hgreed, h⟩ := bind_eq_ok.1 h
      cases h
      obtain ⟨ht, hgreed'⟩ := @scans_readGreed c.tail r greed t hgreed
      have htitems : t.frame.items = item :: earlier := by rw [ht.same]; exact hitems
      refine ⟨fun hs => ht.clean (.of_repeated htitems hs), ⟨ht.before.shorter, ht.before.back⟩, fun r' hr' => ?_⟩
      obtain ⟨position, hrun'⟩ := hgreed' r' hr'.rest
      have hmoved := hr'.frames.parts.items
      rw [hitems] at hmoved
      obtain ⟨item', earlier', hitem, hearlier, hitems'⟩ := List.forall₂_cons_left_iff.1 hmoved
      rw [run_quantify_eq, hitems']
      simp only [hitem.quantifiable, hquantifiable, hrun', ok_bind]
      refine ⟨rfl, ?_⟩
      have hholds := ht.holds hr' position
      obtain ⟨hmode, hdone, -⟩ := hholds.frames.parts
      exact ⟨hholds.rest, hholds.groups, hholds.names,
        hholds.frames.replace rfl rfl rfl ⟨hmode, hdone, .cons ⟨hitem.node.loop greed least most, rfl⟩ hearlier⟩,
        fun hs => hholds.references (.of_repeated htitems hs), hholds.flags⟩

/-- The same from any state in which some tokens behind `here` are taken. -/
def Context.CarriesFrom (c : Context) (here : Reader) (f : Read α) (f' : Reader → Read α) : Prop :=
  ∀ r a s, here.Scanned r → f.run r = .ok (a, s) → (s.Clean → here.Clean) ∧ here.Before s ∧
    ∀ here', c.Holds here here' → ∀ position,
      c.Agrees s a ((f' here').run { here' with rest := r.rest ++ .plain ')' :: c.tail, position })

section From

variable {here : Reader}

theorem Context.Carries.from {f f' : Read α} (h : c.Carries f f') : c.CarriesFrom here f fun _ => f' := by
  intro r a s hr hrun
  obtain ⟨hclean, hle, hf'⟩ := h r a s hrun
  exact ⟨fun hs => hr.clean (hclean hs), hr.before.trans hle, fun here' h' position => hf' _ (hr.holds h' position)⟩

theorem from_ite {p : Prop} [Decidable p] {f g : Read α} {f' g' : Reader → Read α} (hf : c.CarriesFrom here f f')
    (hg : c.CarriesFrom here g g') :
    c.CarriesFrom here (if p then f else g) fun here' => if p then f' here' else g' here' := by
  split_ifs
  · exact hf
  · exact hg

/-- Tokens that are taken first. -/
theorem from_scanned_bind {x : Read α} {x' : Reader → Read α} {f : α → Read β} {f' : Reader → α → Read β}
    (hx : ∀ r a s, here.Scanned r → x.run r = .ok (a, s) → r.Scanned s ∧
      ∀ here', c.Holds here here' → ∀ position, ∃ next,
        (x' here').run { here' with rest := r.rest ++ .plain ')' :: c.tail, position } =
          .ok (a, { here' with rest := s.rest ++ .plain ')' :: c.tail, position := next }))
    (hf : ∀ a, c.CarriesFrom here (f a) fun here' => f' here' a) :
    c.CarriesFrom here (x >>= f) fun here' => x' here' >>= f' here' := by
  intro r b s hr h
  obtain ⟨⟨a, t⟩, hxa, hfa⟩ := bind_eq_ok.1 h
  obtain ⟨ht, hx'⟩ := hx r a t hr hxa
  obtain ⟨hclean, hle, hf'⟩ := hf a t b s (hr.trans ht) hfa
  refine ⟨hclean, hle, fun here' h' position => ?_⟩
  obtain ⟨next, hnext⟩ := hx' here' h' position
  rw [StateT.run_bind, hnext, ok_bind]
  exact hf' here' h' next

theorem from_bind {x x' : Read α} {f : α → Read β} {f' : Reader → α → Read β} (hx : Scans c.tail x x')
    (hf : ∀ a, c.CarriesFrom here (f a) fun here' => f' here' a) :
    c.CarriesFrom here (x >>= f) fun here' => x' >>= f' here' :=
  from_scanned_bind (fun r a s _ hrun => ⟨(hx r a s hrun).1, fun _ _ _ => (hx r a s hrun).2 _ rfl⟩) hf

/-- All the characters of a class that come next. -/
theorem from_takeWhile_bind {p : Char → Bool} (hp : p ')' = false) {f : List Char → Read β}
    {f' : Reader → List Char → Read β} (hf : ∀ a, c.CarriesFrom here (f a) fun here' => f' here' a) :
    c.CarriesFrom here (takeWhile p here.rest.length >>= f) fun here' =>
      takeWhile p here'.rest.length >>= f' here' := by
  refine from_scanned_bind (fun r a s hr hrun => ?_) hf
  refine ⟨(@takeWhile_scanned c.tail _ hp _ _ le_rfl r a s (.inl rfl) hrun).1, fun here' h' position => ?_⟩
  have hlength : here.rest.length ≤ here'.rest.length := by rw [h'.rest, List.length_append]; omega
  exact (takeWhile_scanned hp _ _ hlength r a s (.inr hr.shorter) hrun).2 _ rfl

/-- Reading goes back to where it was. -/
theorem from_set_bind {f f' : Read α} (h : c.Carries f f') :
    c.CarriesFrom here (set here >>= fun _ => f) fun here' => set here' >>= fun _ => f' :=
  fun _ a s _ hrun => ⟨(h here a s hrun).1, (h here a s hrun).2.1, fun here' h' _ => (h here a s hrun).2.2 here' h'⟩

theorem carries_get_from {f f' : Reader → Read α} (h : ∀ here, c.CarriesFrom here (f here) f') :
    c.Carries (get >>= f) (get >>= f') := by
  intro r a s hrun
  obtain ⟨hclean, hle, hf'⟩ := h r r a s (.refl r) hrun
  refine ⟨hclean, hle, fun r' hr' => ?_⟩
  have hagrees := hf' r' hr' r'.position
  rw [← hr'.rest] at hagrees
  exact hagrees

end From

/-- A choice by the token that comes next, which is not the closing parenthesis. -/
theorem carries_next_ite {t : Token} (ht : t ≠ .plain ')') {f f' g g' : Read α} (hf : c.Carries f f')
    (hg : c.Carries g g') :
    c.Carries (do if (← next?) = some t then f else g) (do if (← next?) = some t then f' else g') := by
  have hrun : ∀ (f g : Read α) (r : Reader),
      (do if (← next?) = some t then f else g : Read α).run r = if r.rest.head? = some t then f.run r else g.run r := by
    intro f g r
    show StateT.run (if r.rest.head? = some t then f else g) r = _
    split_ifs <;> rfl
  intro r a s h
  rw [hrun] at h
  have hhead : ∀ r', c.Holds r r' → (r'.rest.head? = some t ↔ r.rest.head? = some t) := by
    intro r' hr'
    rw [hr'.rest]
    cases r.rest with
    | nil => simpa using Ne.symm ht
    | cons u rest => rfl
  split_ifs at h with hnext
  · obtain ⟨hclean, hle, hf'⟩ := hf r a s h
    refine ⟨hclean, hle, fun r' hr' => ?_⟩
    rw [hrun, if_pos ((hhead r' hr').2 hnext)]
    exact hf' r' hr'
  · obtain ⟨hclean, hle, hg'⟩ := hg r a s h
    refine ⟨hclean, hle, fun r' hr' => ?_⟩
    rw [hrun, if_neg fun hnext' => hnext ((hhead r' hr').1 hnext')]
    exact hg' r' hr'

/-- the quantifier between braces, from its bounds -/
def quantifyBounds (start : Nat) (high : List Char) (least : Nat) : Read Unit := do
  if high.isEmpty then quantify start least none
  else
    let most ← repetitions high
    if most < least then failAt .repeatBoundsReversed (start + 1)
    else quantify start least (some most)

/-- the rest of a brace, behind the digits of its bounds -/
def closeBraces (start : Nat) (low high : List Char) (here : Reader) : Read Unit := do
  if ← accept '\x7d' then
    let least ← if low.isEmpty then pure 0 else repetitions low
    quantifyBounds start high least
  else
    set here
    pushTest (.code '\x7b'.toNat)

theorem carries_quantifyBounds (start start' : Nat) (high : List Char) (least : Nat) :
    c.Carries (quantifyBounds start high least) (quantifyBounds start' high least) :=
  carries_ite (carries_quantify _ _ _ _) (carries_bind (carries_scans (scans_repetitions _)) fun _ _ =>
    carries_ite (carries_never (never_failAt _ _)) (carries_quantify _ _ _ _))

theorem from_closeBraces (start start' : Nat) (low high : List Char) (here : Reader) :
    c.CarriesFrom here (closeBraces start low high here) (closeBraces start' low high) := by
  refine from_bind (scans_accept (by decide)) fun close => from_ite (Context.Carries.from ?_)
    (from_set_bind (carries_pushTest _))
  exact carries_ite (carries_bind (carries_pure _) fun _ _ => carries_quantifyBounds _ _ _ _)
    (carries_bind (carries_scans (scans_repetitions _)) fun _ _ => carries_quantifyBounds _ _ _ _)

theorem carries_readBraces (start start' : Nat) : c.Carries (readBraces start) (readBraces start') := by
  refine carries_next_ite (by decide) (carries_pushTest _) (carries_get_from fun here => ?_)
  refine from_takeWhile_bind (by decide) fun low => from_bind (scans_accept (by decide)) fun comma => ?_
  have hclosing : ∀ high, c.CarriesFrom here (closeBraces start low high here) (closeBraces start' low high) :=
    fun high => from_closeBraces _ _ _ _ _
  exact from_ite (from_takeWhile_bind (by decide) hclosing) (from_bind (scans_pure low) hclosing)

end UrlRouter.Regex
