/-
Groups of an expression that stands between parentheses.

Within the longer expression the groups of the shorter one have higher numbers. A reference, a name and an option for the
whole are all that may make a difference; where one of them is read, the state is not clean any more.

Results:
- `carries_openGroup`, `advances_nextAlternative`, `advances_closeGroup`: opening, parting and closing groups.
- `advances_step`: one step of reading.
- `steps_embedded`: reading an expression to its end.
-/
import Mathlib.Tactic
import UrlRouter.Proofs.Regex.Embedding

namespace UrlRouter.Regex

variable {α β : Type} {c : Context}

/-! ## Opening groups -/

theorem Reader.Clean.of_enter {r : Reader} {frame : Frame}
    (h : ({ r with frame, outer := r.frame :: r.outer } : Reader).Clean) : r.Clean :=
  ⟨h.names, h.flags, h.references, fun f hf => h.frames f (List.mem_cons_of_mem _ hf)⟩

theorem carries_openFrame {kind kind' : GroupKind} (hkind : kind.Moved c.groups kind') (start start' : Nat)
    (mode : Mode) : c.Carries (openFrame kind start mode) (openFrame kind' start' mode) := by
  intro r a s h
  cases h
  refine ⟨.of_enter, .of_eq rfl, fun r' hr' => ⟨rfl, ?_⟩⟩
  exact ⟨hr'.rest, hr'.groups, hr'.names, .inner hkind ⟨rfl, .nil, .nil⟩ hr'.frames,
    fun hs => hr'.references (.of_enter hs), hr'.flags⟩

/-- the state in which the next group is opened -/
def Reader.captured (r : Reader) (start : Nat) (names : List (String × Nat)) : Reader :=
  { r with
    names := r.names ++ names
    widths := r.widths ++ [none]
    frame := ⟨.capture r.groupBound, start, r.frame.mode, [], []⟩
    outer := r.frame :: r.outer }

theorem run_openCapture_none (start : Nat) (r : Reader) :
    (openCapture start none).run r = .ok ((), r.captured start []) := by
  unfold Reader.captured
  rw [List.append_nil]
  rfl

theorem run_openCapture_some (start : Nat) (name : String) (r : Reader) :
    (openCapture start (some name)).run r =
      match r.names.lookup name with
      | some earlier =>
        (failBack (.duplicateGroupName name r.groupBound earlier) (name.length + 1) : Read Unit).run r
      | none => .ok ((), r.captured start [(name, r.groupBound)]) := by
  unfold openCapture
  rw [StateT.run_bind, StateT.run_get]
  simp only [pure_bind]
  cases r.names.lookup name <;> rfl

theorem groupBound_eq {r r' : Reader} (h : c.Holds r r') : r'.groupBound = c.groups + r.groupBound := by
  simp only [Reader.groupBound, h.groups]
  omega

theorem Reader.Clean.of_captured {r : Reader} {start : Nat} {names : List (String × Nat)}
    (h : (r.captured start names).Clean) : r.Clean ∧ names = [] := by
  have hnames := List.append_eq_nil_iff.1 h.names
  exact ⟨⟨hnames.1, h.flags, h.references, fun f hf => h.frames f (List.mem_cons_of_mem _ hf)⟩, hnames.2⟩

theorem Context.Holds.captured {r r' : Reader} (h : c.Holds r r') (start start' : Nat)
    {names names' : List (String × Nat)} (hnames : names' = names.map fun named => (named.1, c.groups + named.2)) :
    c.Holds (r.captured start names) (r'.captured start' names') := by
  refine ⟨h.rest, ?_, ?_, ?_, fun hs => h.references hs.of_captured.1, h.flags⟩
  · simp only [Reader.captured, List.length_append, h.groups]
    omega
  · simp only [Reader.captured, h.names, hnames, List.map_append, List.append_assoc]
  · refine .inner ?_ ⟨h.frames.mode, .nil, .nil⟩ h.frames
    show GroupKind.Moved _ (.capture r.groupBound) (.capture r'.groupBound)
    rw [groupBound_eq h]
    exact .capture _

theorem carries_openCapture (start start' : Nat) (name : Option String) :
    c.Carries (openCapture start name) (openCapture start' name) := by
  intro r a s h
  cases name with
  | none =>
    rw [run_openCapture_none] at h
    cases h
    refine ⟨fun hs => hs.of_captured.1, .of_eq rfl, fun r' hr' => ?_⟩
    rw [run_openCapture_none]
    exact ⟨rfl, hr'.captured _ _ rfl⟩
  | some name =>
    rw [run_openCapture_some] at h
    split at h
    · exact absurd h (never_failBack _ _ r a s)
    · cases h
      refine ⟨fun hs => hs.of_captured.1, .of_eq rfl, fun r' hr' => ?_⟩
      rw [run_openCapture_some]
      split
      · exact fun hs => absurd hs.of_captured.2 (List.cons_ne_nil _ _)
      · refine ⟨rfl, hr'.captured _ _ ?_⟩
        rw [groupBound_eq hr']
        rfl

theorem scans_groupName {tail : List Token} (terminator : Char) :
    Scans tail (groupName terminator) (groupName terminator) :=
  scans_bind (scans_nameUntil _ _) fun _ => scans_ite (scans_pure _) (scans_never (never_failBack _ _))

theorem carries_readNamedReference : c.Carries readNamedReference readNamedReference := by
  refine carries_bind (carries_scans (scans_groupName _)) fun name _ => carries_putsReference fun r a s h => ?_
  rw [StateT.run_bind, StateT.run_get] at h
  simp only [pure_bind] at h
  revert h
  split
  · exact fun h => absurd h (never_failBack _ _ r a s)
  · split_ifs
    · exact fun h => absurd h (never_first (never_failBack _ _) r a s)
    · exact putsReference_checked _ r a s

/-- Where the operation succeeds, it opens a conditional. -/
def OpensCondition (f : Read Unit) : Prop :=
  ∀ r a s, f.run r = .ok (a, s) → ∃ group start references,
    s = { r with frame := ⟨.conditional group none, start, r.frame.mode, [], []⟩, outer := r.frame :: r.outer
                 references }

theorem conditionGroup_eq_ok {text : String} {r s : Reader} {n : Nat} (h : (conditionGroup text).run r = .ok (n, s)) :
    ∃ references, s = { r with references } := by
  unfold conditionGroup at h
  rw [StateT.run_bind, StateT.run_get] at h
  simp only [pure_bind] at h
  split_ifs at h
  · split at h
    · cases h
      exact ⟨_, rfl⟩
    · exact absurd h (never_failBack _ _ r n s)
  · split at h
    · exact absurd h (never_failBack _ _ r n s)
    · split_ifs at h
      · exact absurd h (never_failBack _ _ r n s)
      · exact absurd h (never_failBack _ _ r n s)
      · exact absurd h (never_failBack _ _ r n s)
      · cases h
        exact ⟨_, rfl⟩
      · cases h
        exact ⟨_, rfl⟩

theorem carries_readCondition (start start' : Nat) : c.Carries (readCondition start) (readCondition start') := by
  have hopens : ∀ start text, OpensCondition (do
      let group ← conditionGroup text
      checkLookBehind group
      openFrame (.conditional group none) start (← mode)) := by
    intro start text r a s h
    obtain ⟨⟨group, t⟩, hgroup, h⟩ := bind_eq_ok.1 h
    obtain ⟨references, rfl⟩ := conditionGroup_eq_ok hgroup
    obtain ⟨⟨_, t⟩, hcheck, h⟩ := bind_eq_ok.1 h
    obtain rfl := checkLookBehind_eq_ok hcheck
    cases h
    exact ⟨group, start, references, rfl⟩
  refine carries_bind (carries_scans (scans_nameUntil _ _)) fun text _ => ?_
  intro r a s h
  obtain ⟨group, begin, references, rfl⟩ := hopens start text r a s h
  have hdirty : ∀ {s : Reader} {group : Nat}, s.frame.kind = .conditional group none → ¬s.Clean := by
    intro s group hkind hs
    have htop := hs.frames _ List.mem_cons_self
    simp [Frame.refers, hkind, GroupKind.refers] at htop
  refine ⟨fun hs => absurd hs (hdirty rfl), .of_eq rfl, fun r' hr' => ?_⟩
  have hrun := hopens start' text r'
  revert hrun
  generalize StateT.run (do
      let group ← conditionGroup text
      checkLookBehind group
      openFrame (.conditional group none) start' (← mode) : Read Unit) r' = outcome
  intro hrun
  cases outcome with
  | error e => exact hdirty rfl
  | ok pair =>
    obtain ⟨group', begin', references', hs'⟩ := hrun pair.1 pair.2 rfl
    refine ⟨rfl, ?_⟩
    rw [hs']
    exact ⟨hr'.rest, hr'.groups, hr'.names, .inner (.conditional _ _ rfl) ⟨hr'.frames.mode, .nil, .nil⟩ hr'.frames,
      fun hs => absurd hs (hdirty rfl), hr'.flags⟩

theorem run_openLook (start : Nat) (behind negated : Bool) (r : Reader) :
    (openLook start behind negated).run r = .ok ((), { r with
      frame := ⟨.look behind negated r.behindFrom, start, r.frame.mode, [], []⟩
      outer := r.frame :: r.outer
      behindFrom := if behind && r.behindFrom.isNone then some r.groupBound else r.behindFrom }) := by
  unfold openLook
  rw [StateT.run_bind, StateT.run_get]
  simp only [pure_bind]
  split_ifs <;> rfl

theorem carries_openLook (start start' : Nat) (behind negated : Bool) :
    c.Carries (openLook start behind negated) (openLook start' behind negated) := by
  intro r a s h
  rw [run_openLook] at h
  cases h
  have hclean : ∀ {s : Reader} {frame : Frame} {behindFrom : Option Nat},
      ({ s with frame, outer := s.frame :: s.outer, behindFrom } : Reader).Clean → s.Clean := fun h =>
    ⟨h.names, h.flags, h.references, fun f hf => h.frames f (List.mem_cons_of_mem _ hf)⟩
  refine ⟨hclean, .of_eq rfl, fun r' hr' => ?_⟩
  rw [run_openLook]
  exact ⟨rfl, hr'.rest, hr'.groups, hr'.names, .inner (.look _ _ _ _) ⟨hr'.frames.mode, .nil, .nil⟩ hr'.frames,
    fun hs => hr'.references (hclean hs), hr'.flags⟩

theorem Context.Frames.outer_ne_nil {f f' : Frame} {outer outer' : List Frame} (h : c.Frames f outer f' outer') :
    outer' ≠ [] := by
  cases h <;> exact List.cons_ne_nil _ _

/-- Options for the whole expression are refused within a longer one. -/
theorem carries_setGlobalFlags (start start' : Nat) {on : List Char} (hon : on ≠ []) :
    c.Carries (setGlobalFlags start on) (setGlobalFlags start' on) := by
  intro r a s h
  have hflags : s.globalFlags = r.globalFlags ++ on ∧ s.rest = r.rest := by
    unfold setGlobalFlags at h
    rw [StateT.run_bind, StateT.run_get] at h
    simp only [pure_bind] at h
    split_ifs at h
    · exact absurd h (never_first (never_failAt _ _) r a s)
    · cases h
      exact ⟨rfl, rfl⟩
  have hdirty : ¬s.Clean := fun hs => hon (List.append_eq_nil_iff.1 (hflags.1.symm.trans hs.flags)).2
  refine ⟨fun hs => absurd hs hdirty, .of_eq hflags.2, fun r' hr' => ?_⟩
  have hlate : (setGlobalFlags start' on).run r' = .error (.malformed .lateGlobalFlags (some start')) := by
    unfold setGlobalFlags
    rw [StateT.run_bind, StateT.run_get]
    have houter : r'.outer.isEmpty = false := by
      simpa using hr'.frames.outer_ne_nil
    simp only [pure_bind, houter, Bool.not_false, Bool.true_or, if_true]
    rfl
  rw [hlate]
  exact hdirty

theorem flagsOn_ne_nil {on : List Char} {c : Char} {limit : Nat} {r s : Reader} {flags : List Char × Char}
    (h : (flagsOn on c limit).run r = .ok (flags, s)) : flags.1 ≠ [] := by
  induction limit generalizing on c r with
  | zero => exact absurd h (never_failHere _ r flags s)
  | succ limit ih =>
    unfold flagsOn at h
    have h := guard_eq_ok (never_failHere _) h
    have h := guard_eq_ok (never_failHere _) h
    obtain ⟨⟨found, t⟩, -, h⟩ := bind_eq_ok.1 h
    cases found with
    | none => exact absurd h (never_failHere _ t flags s)
    | some token =>
      cases token with
      | plain d =>
        simp only at h
        split_ifs at h
        · cases h
          exact List.append_ne_nil_of_right_ne_nil _ (List.cons_ne_nil _ _)
        · exact ih h
        · exact absurd h (never_badFlag _ _ t flags s)
      | escaped d => exact absurd h (never_badFlag _ _ t flags s)
      | loneBackslash => exact absurd h (never_badFlag _ _ t flags s)

/-- the opening of a group with options, once these are read -/
def openOptions (start : Nat) (on off : List Char) : Read Unit := do
  if off.contains 't' then failBack .globalFlagOff 1
  if on.any off.contains then failBack .flagOnAndOff 1
  openFrame .plain start ((← mode).adjust on off)

theorem carries_openOptions (start start' : Nat) (on off : List Char) :
    c.Carries (openOptions start on off) (openOptions start' on off) := by
  unfold openOptions
  refine carries_guard (never_failBack _ _) ?_
  refine carries_guard (never_failBack _ _) ?_
  exact carries_mode_bind fun _ => carries_openFrame .plain _ _ _

theorem carries_readFlags (start start' : Nat) (letter : Char) :
    c.Carries (readFlags start letter) (readFlags start' letter) := by
  refine carries_get_bind fun r r' hle _ => ?_
  extract_lets limit flags limit' flags'
  have hlimit : limit ≤ limit' := by omega
  have hflags : ∀ pair : List Char × Char, (pair.2 = ')' → pair.1 ≠ []) → c.Carries (flags pair) (flags' pair) := by
    rintro ⟨on, close⟩ hon
    have hopened : ∀ off, c.Carries (openOptions start on off) (openOptions start' on off) :=
      carries_openOptions start start' on
    refine carries_cases (fun hclose => carries_setGlobalFlags _ _ (hon hclose)) fun _ => ?_
    extract_lets chosen chosen'
    refine carries_guard (never_failBack _ _) ?_
    refine carries_ite (carries_take_bind (never_first (never_failHere _)) fun t => ?_)
      (carries_bind (carries_pure _) fun off _ => hopened off)
    cases t with
    | plain d =>
      exact carries_ite (carries_bind (carries_scans (scans_flagsOff _ _ hlimit)) fun off _ => hopened off)
        (carries_never (never_first (never_badFlag _ _)))
    | escaped d => exact carries_never (never_first (never_badFlag _ _))
    | loneBackslash => exact carries_never (never_first (never_badFlag _ _))
  refine carries_ite (carries_bind (carries_pure _) fun pair hpair => hflags pair ?_)
    (carries_bind (carries_scans (scans_flagsOn _ _ hlimit)) fun pair hpair => hflags pair ?_)
  · obtain ⟨r, s, h⟩ := hpair
    cases h
    exact fun h => absurd h (by decide)
  · obtain ⟨r, s, h⟩ := hpair
    exact fun _ => flagsOn_ne_nil h

theorem carries_openGroup (start start' : Nat) : c.Carries (openGroup start) (openGroup start') := by
  refine carries_bind (carries_scans (scans_accept (by decide))) fun extended _ =>
    carries_ite (carries_openCapture _ _ _) (carries_take_bind (never_failHere _) fun t => ?_)
  split
  · rename_i heq
    cases heq
  · refine carries_bind (carries_scans (scans_accept (by decide))) fun named _ => carries_ite ?_ ?_
    · exact carries_bind (carries_scans (scans_groupName _)) fun _ _ => carries_openCapture _ _ _
    · refine carries_bind (carries_scans (scans_accept (by decide))) fun reference _ =>
        carries_ite carries_readNamedReference (carries_take_bind (never_failHere _) fun u => ?_)
      exact carries_never (never_failBack _ _)
  · exact carries_mode_bind fun _ => carries_openFrame .plain _ _ _
  · exact carries_get_bind fun r r' hle _ => carries_scans (scans_skipComment _ _ (by omega))
  · exact carries_openLook _ _ _ _
  · exact carries_openLook _ _ _ _
  · refine carries_take_bind (never_failHere _) fun u => ?_
    split
    · rename_i heq
      cases heq
    · exact carries_openLook _ _ _ _
    · exact carries_openLook _ _ _ _
    · exact carries_never (never_failBack _ _)
  · exact carries_readCondition _ _
  · exact carries_mode_bind fun _ => carries_openFrame .atomic _ _ _
  · split
    · exact carries_ite (carries_readFlags _ _ _) (carries_never (never_failBack _ _))
    · exact carries_never (never_failBack _ _)

/-! ## Alternatives -/

theorem ofList_refers (nodes : List Node) : (Node.ofList nodes).refers = nodes.any Node.refers := by
  induction nodes with
  | nil => rfl
  | cons node rest ih =>
    cases rest with
    | nil => simp [Node.ofList]
    | cons next rest =>
      rw [List.any_cons, ← ih]
      rfl

theorem ofAlternatives_refers (nodes : List Node) : (Node.ofAlternatives nodes).refers = nodes.any Node.refers := by
  induction nodes with
  | nil => rfl
  | cons node rest ih =>
    cases rest with
    | nil => simp [Node.ofAlternatives]
    | cons next rest =>
      rw [List.any_cons, ← ih]
      rfl

theorem ofList_shift (offset : Nat) (nodes : List Node) :
    (Node.ofList nodes).shift offset = .ofList (nodes.map (·.shift offset)) := by
  induction nodes with
  | nil => rfl
  | cons node rest ih =>
    cases rest with
    | nil => rfl
    | cons next rest => exact congrArg (Node.seq _) ih

theorem ofAlternatives_shift (offset : Nat) (nodes : List Node) :
    (Node.ofAlternatives nodes).shift offset = .ofAlternatives (nodes.map (·.shift offset)) := by
  induction nodes with
  | nil => rfl
  | cons node rest ih =>
    cases rest with
    | nil => rfl
    | cons next rest => exact congrArg (Node.alt _) ih

theorem map_of_moved {offset : Nat} {nodes nodes' : List Node} (h : List.Forall₂ (Node.Moved offset) nodes nodes')
    (hrefers : nodes.any Node.refers = false) : nodes' = nodes.map (·.shift offset) := by
  induction h with
  | nil => rfl
  | cons hnode _ ih =>
    obtain ⟨hfirst, hrest⟩ := Bool.or_eq_false_iff.1 (List.any_cons.symm.trans hrefers)
    rw [List.map_cons, hnode hfirst, ih hrest]

theorem ofList_moved {offset : Nat} {nodes nodes' : List Node} (h : List.Forall₂ (Node.Moved offset) nodes nodes') :
    (Node.ofList nodes).Moved offset (.ofList nodes') := by
  intro hrefers
  rw [ofList_shift, map_of_moved h ((ofList_refers nodes).symm.trans hrefers)]

theorem ofAlternatives_moved {offset : Nat} {nodes nodes' : List Node}
    (h : List.Forall₂ (Node.Moved offset) nodes nodes') :
    (Node.ofAlternatives nodes).Moved offset (.ofAlternatives nodes') := by
  intro hrefers
  rw [ofAlternatives_shift, map_of_moved h ((ofAlternatives_refers nodes).symm.trans hrefers)]

theorem alternative_moved {offset : Nat} {f f' : Frame} (h : f.Moved offset f') :
    f.alternative.Moved offset f'.alternative := by
  refine ofList_moved ?_
  rw [List.forall₂_map_left_iff, List.forall₂_map_right_iff]
  exact (List.rel_reverse h.items).imp fun _ _ hitem => hitem.node

theorem body_moved {offset : Nat} {f f' : Frame} (h : f.Moved offset f') : f.body.Moved offset f'.body :=
  ofAlternatives_moved (List.rel_append (List.rel_reverse h.done) (.cons (alternative_moved h) .nil))

theorem alternative_refers (f : Frame) : f.alternative.refers = f.items.any (·.node.refers) := by
  rw [Frame.alternative, ofList_refers, List.any_map, List.any_reverse]
  rfl

theorem body_refers (f : Frame) : f.body.refers = (f.done.any Node.refers || f.items.any (·.node.refers)) := by
  rw [Frame.body, ofAlternatives_refers, List.any_append, List.any_reverse, List.any_cons, List.any_nil,
    Bool.or_false, alternative_refers]

/-- The width of an expression that refers to no group does not depend on the groups. -/
theorem width_shift {offset : Nat} {groups groups' : Nat → Width} {node : Node} (h : node.refers = false) :
    (node.shift offset).width groups' = node.width groups := by
  induction node with
  | empty => rfl
  | char mode test => rfl
  | anchor mode place => rfl
  | backref mode n => cases h
  | seq a b iha ihb =>
    obtain ⟨ha, hb⟩ := Bool.or_eq_false_iff.1 h
    simp only [Node.shift, Node.width, iha ha, ihb hb]
  | alt a b iha ihb =>
    obtain ⟨ha, hb⟩ := Bool.or_eq_false_iff.1 h
    simp only [Node.shift, Node.width, iha ha, ihb hb]
  | group n body ih => exact ih h
  | atomic body ih => exact ih h
  | look direction negated body => rfl
  | conditional n present absent => cases h
  | loop greed least most body ih => simp only [Node.shift, Node.width, ih h]

/-! ## A vertical bar -/

/-- the state in which the next alternative begins -/
def Reader.parted (r : Reader) : Reader :=
  { r with frame := { r.frame with done := r.frame.alternative :: r.frame.done, items := [] } }

/-- the state in which the second part of a conditional begins -/
def Reader.otherwise (r : Reader) (group : Nat) : Reader :=
  { r with frame := { r.frame with kind := .conditional group (some r.frame.alternative), items := [] } }

theorem Reader.Clean.of_parted {r : Reader} (h : r.parted.Clean) : r.Clean := by
  refine ⟨h.names, h.flags, h.references, fun f hf => ?_⟩
  rcases List.mem_cons.1 hf with rfl | hf
  · have htop := h.frames _ List.mem_cons_self
    simp only [Reader.parted, Frame.refers, List.any_cons, List.any_nil, Bool.or_false, alternative_refers] at htop
    rw [Frame.refers, Bool.or_assoc, Bool.or_comm (r.frame.done.any _)]
    rwa [Bool.or_eq_false_iff] at htop ⊢
  · exact h.frames f (List.mem_cons_of_mem _ hf)

theorem not_clean_of_conditional {r : Reader} {group : Nat} {present : Option Node}
    (h : r.frame.kind = .conditional group present) : ¬r.Clean := by
  intro hs
  have htop := hs.frames _ List.mem_cons_self
  simp [Frame.refers, h, GroupKind.refers] at htop

/-- An operation that leads from `r` to `s` alone, taking a token at least, does the same within the longer expression
unless `s` is not clean. -/
def Context.Advances (c : Context) (r s : Reader) (f : Read Unit) : Prop :=
  (s.Clean → r.Clean) ∧ s.rest.length < r.rest.length ∧ r.Before s ∧ ∀ r', c.Holds r r' → c.Agrees s () (f.run r')

theorem take_of_cons {r s : Reader} {t : Token} {rest : List Token} {found : Option Token} (hrest : r.rest = t :: rest)
    (h : take?.run r = .ok (found, s)) : found = some t := by
  rcases take_eq_ok h with ⟨hnil, -⟩ | ⟨t', rest', hrest', -, rfl, -⟩
  · rw [hrest] at hnil
    cases hnil
  · rw [hrest] at hrest'
    cases hrest'
    rfl

/-- A token is taken and then the state changed in related ways. -/
theorem advances_take {r s : Reader} {t : Token} {rest : List Token} {f : Read Unit} {next : Reader → Reader}
    (hrest : r.rest = t :: rest)
    (hrun : (take?.run r >>= fun pair => .ok ((), next pair.2) : Except CompileError (Unit × Reader)) = .ok ((), s))
    (hkeeps : ∀ u : Reader, (next u).rest = u.rest) (hclean : ∀ u, r.Scanned u → (next u).Clean → u.Clean)
    (hother : ∀ u, r.Scanned u → ∀ r', c.Holds r r' → ∃ next' : Reader → Reader,
      f.run r' = (take?.run r' >>= fun pair => .ok ((), next' pair.2)) ∧
      ∀ position, c.Holds (next u) (next' { r' with rest := u.rest ++ .plain ')' :: c.tail, position })) :
    c.Advances r s f := by
  obtain ⟨⟨found, u⟩, htake, hpure⟩ := bind_eq_ok.1 hrun
  cases hpure
  obtain rfl := take_of_cons hrest htake
  obtain ⟨hu, hlt, htake'⟩ := @take_scanned c.tail _ _ _ htake
  have hsame : (next u).rest = u.rest := hkeeps u
  refine ⟨fun hs => hu.clean (hclean u hu hs), by rw [hsame]; exact hlt, hu.before.trans (.of_eq hsame), fun r' hr' => ?_⟩
  obtain ⟨position, hposition⟩ := htake' r' hr'.rest
  obtain ⟨next', hf, hholds⟩ := hother u hu r' hr'
  rw [hf, hposition]
  exact ⟨rfl, hholds position⟩

theorem run_nextAlternative_parted {r : Reader} (hkind : ∀ group present, r.frame.kind ≠ .conditional group present) :
    nextAlternative.run r = (take?.run r >>= fun pair => .ok ((), pair.2.parted)) := by
  unfold nextAlternative
  rw [StateT.run_bind, StateT.run_get]
  simp only [pure_bind]
  split
  · rename_i group h
    exact absurd h (hkind group none)
  · rename_i group present h
    exact absurd h (hkind group (some present))
  · rfl

theorem run_nextAlternative_otherwise {r : Reader} {group : Nat} (hkind : r.frame.kind = .conditional group none) :
    nextAlternative.run r = (take?.run r >>= fun pair => .ok ((), pair.2.otherwise group)) := by
  unfold nextAlternative
  rw [StateT.run_bind, StateT.run_get]
  simp only [pure_bind, hkind]
  rfl

theorem run_nextAlternative_full {r s : Reader} {group : Nat} {present : Node} {a : Unit}
    (hkind : r.frame.kind = .conditional group (some present)) : nextAlternative.run r ≠ .ok (a, s) := by
  unfold nextAlternative
  rw [StateT.run_bind, StateT.run_get]
  simp only [pure_bind, hkind]
  exact never_failHere _ r a s

namespace Context.Frames

variable {f f' : Frame} {outer outer' : List Frame}

theorem conditional (h : c.Frames f outer f' outer') {group : Nat} (hkind : f.kind = .conditional group none) :
    ∃ group', f'.kind = .conditional group' none := by
  cases h with
  | base kind _ _ _ =>
    rw [hkind] at kind
    cases kind
  | inner kind _ _ =>
    rw [hkind] at kind
    generalize f'.kind = kind' at kind
    cases kind with
    | conditional _ group' hpresent =>
      exact ⟨group', by rw [Option.isNone_iff_eq_none.1 (Option.isSome_eq_false_iff.1 hpresent)]⟩

theorem not_conditional (h : c.Frames f outer f' outer') (hkind : ∀ group present, f.kind ≠ .conditional group present) :
    ∀ group present, f'.kind ≠ .conditional group present := by
  intro group' present' hkind'
  cases h with
  | base _ kind' _ _ => exact c.unconditional _ _ (kind'.symm.trans hkind')
  | inner kind _ _ =>
    rw [hkind'] at kind
    generalize hf : f.kind = kindf at kind
    cases kind with
    | conditional group _ _ => exact hkind group _ hf

/-- The first part of a conditional is over. -/
theorem otherwise (h : c.Frames f outer f' outer') {group group' : Nat} {present present' : Node}
    (hkind : f.kind = .conditional group none) :
    c.Frames { f with kind := .conditional group (some present), items := [] } outer
      { f' with kind := .conditional group' (some present'), items := [] } outer' := by
  cases h with
  | base kind _ _ _ =>
    rw [hkind] at kind
    cases kind
  | inner _ parts rest => exact .inner (.conditional _ _ rfl) ⟨parts.mode, parts.done, .nil⟩ rest

end Context.Frames

theorem advances_nextAlternative {r s : Reader} {t : Token} {rest : List Token} (hrest : r.rest = t :: rest)
    (h : nextAlternative.run r = .ok ((), s)) : c.Advances r s nextAlternative := by
  by_cases hconditional : ∃ group present, r.frame.kind = .conditional group present
  · obtain ⟨group, present, hkind⟩ := hconditional
    cases present with
    | some present => exact absurd h (run_nextAlternative_full hkind)
    | none =>
      rw [run_nextAlternative_otherwise hkind] at h
      have hdirty : ∀ u : Reader, ¬(u.otherwise group).Clean := fun u => not_clean_of_conditional rfl
      have hclean : ∀ u, r.Scanned u → (u.otherwise group).Clean → u.Clean := fun u _ hs => absurd hs (hdirty u)
      have hkeeps : ∀ u : Reader, (u.otherwise group).rest = u.rest := fun _ => rfl
      refine advances_take hrest h hkeeps hclean fun u hu r' hr' => ?_
      obtain ⟨group', hkind'⟩ := hr'.frames.conditional hkind
      refine ⟨(·.otherwise group'), run_nextAlternative_otherwise hkind', fun position => ?_⟩
      have hholds := hu.holds hr' position
      have hukind : u.frame.kind = .conditional group none := by rw [hu.same]; exact hkind
      exact ⟨hholds.rest, hholds.groups, hholds.names, hholds.frames.otherwise hukind, fun hs => absurd hs (hdirty u),
        hholds.flags⟩
  · have hkind : ∀ group present, r.frame.kind ≠ .conditional group present := fun group present h =>
      hconditional ⟨group, present, h⟩
    rw [run_nextAlternative_parted hkind] at h
    refine advances_take hrest h (fun _ => rfl) (fun _ _ hs => hs.of_parted) fun u hu r' hr' => ?_
    refine ⟨(·.parted), run_nextAlternative_parted (hr'.frames.not_conditional hkind), fun position => ?_⟩
    have hholds := hu.holds hr' position
    obtain ⟨hmode, hdone, hitems⟩ := hholds.frames.parts
    exact ⟨hholds.rest, hholds.groups, hholds.names,
      hholds.frames.replace rfl rfl rfl ⟨hmode, .cons (alternative_moved ⟨hmode, hdone, hitems⟩) hdone, .nil⟩,
      fun hs => hholds.references hs.of_parted, hholds.flags⟩

/-! ## A closing parenthesis -/

theorem close_eq (r : Reader) (around : Frame) (outer : List Frame) :
    ∃ widths behindFrom, widths.length = r.widths.length ∧ r.close around outer =
      { r with frame := { around with items := ⟨r.closed, .yes⟩ :: around.items }, outer, widths, behindFrom } := by
  unfold Reader.close
  split
  · exact ⟨_, r.behindFrom, List.length_set, rfl⟩
  · exact ⟨r.widths, _, rfl, rfl⟩
  · exact ⟨r.widths, r.behindFrom, rfl, rfl⟩

theorem closed_refers {r : Reader} (h : r.closed.refers = false) : r.frame.refers = false := by
  have hparts : r.frame.body.refers = false → r.frame.kind.refers = false → r.frame.refers = false := by
    intro hbody hkind
    rw [Frame.refers, hkind, Bool.false_or, ← body_refers, hbody]
  unfold Reader.closed at h
  cases hkind : r.frame.kind with
  | whole => rw [hkind] at h; exact hparts h (by rw [hkind]; rfl)
  | capture n => rw [hkind] at h; exact hparts h (by rw [hkind]; rfl)
  | plain => rw [hkind] at h; exact hparts h (by rw [hkind]; rfl)
  | atomic => rw [hkind] at h; exact hparts h (by rw [hkind]; rfl)
  | look behind negated outer => rw [hkind] at h; exact hparts h (by rw [hkind]; rfl)
  | conditional group present =>
    rw [hkind] at h
    cases present <;> exact absurd h (by simp [Node.refers])

theorem closed_moved {offset : Nat} {r r' : Reader} (hkind : r.frame.kind.Moved offset r'.frame.kind)
    (hparts : r.frame.Moved offset r'.frame) : r.closed.Moved offset r'.closed := by
  have hbody := body_moved hparts
  unfold Reader.closed
  generalize r.frame.kind = kind, r'.frame.kind = kind' at hkind
  cases hkind with
  | capture n => exact fun hrefers => congrArg _ (hbody hrefers)
  | plain => exact hbody
  | atomic => exact fun hrefers => congrArg _ (hbody hrefers)
  | look behind negated outer outer' =>
    intro hrefers
    have hwidth : (r.frame.body.shift offset).width r'.groupWidth = r.frame.body.width r.groupWidth :=
      width_shift hrefers
    simp only [hbody hrefers, hwidth, Node.shift]
  | conditional group group' hpresent =>
    rename_i present present'
    cases present <;> exact fun hrefers => absurd hrefers (by simp [Node.refers])

theorem Reader.Clean.of_close {r : Reader} {around : Frame} {outer : List Frame} (houter : r.outer = around :: outer)
    (h : (r.close around outer).Clean) : r.Clean := by
  obtain ⟨widths, behindFrom, -, heq⟩ := close_eq r around outer
  rw [heq] at h
  have htop := h.frames _ List.mem_cons_self
  simp only [Frame.refers, List.any_cons, Bool.or_eq_false_iff] at htop
  refine ⟨h.names, h.flags, h.references, fun f hf => ?_⟩
  rw [houter] at hf
  rcases List.mem_cons.1 hf with rfl | hf
  · exact closed_refers htop.2.1
  · rcases List.mem_cons.1 hf with rfl | hf
    · simp only [Frame.refers, Bool.or_eq_false_iff]
      exact ⟨htop.1, htop.2.2⟩
    · exact h.frames f (List.mem_cons_of_mem _ hf)

theorem Context.Holds.close {r r' : Reader} (h : c.Holds r r') {g : Frame} {outer : List Frame}
    (houter : r.outer = g :: outer) :
    ∃ g' outer', r'.outer = g' :: outer' ∧ c.Holds (r.close g outer) (r'.close g' outer') := by
  have hframes := h.frames
  rw [houter] at hframes
  generalize houter' : r'.outer = stack' at hframes
  cases hframes with
  | @inner _ _ _ g' _ outer' hkind hparts hrest =>
    refine ⟨g', outer', rfl, ?_⟩
    have hclean : (r.close g outer).Clean → r.Clean := .of_close houter
    obtain ⟨widths, behindFrom, hwidths, heq⟩ := close_eq r g outer
    obtain ⟨widths', behindFrom', hwidths', heq'⟩ := close_eq r' g' outer'
    obtain ⟨hmode, hdone, hitems⟩ := hrest.parts
    have hclosed := closed_moved hkind hparts
    have hreferences : (r.close g outer).Clean → r'.references = c.references := fun hs => h.references (hclean hs)
    rw [heq] at hreferences
    rw [heq, heq']
    exact ⟨h.rest, by rw [hwidths, hwidths']; exact h.groups, h.names,
      hrest.replace rfl rfl rfl ⟨hmode, hdone, .cons ⟨hclosed, rfl⟩ hitems⟩, hreferences, h.flags⟩

theorem run_closeGroup {r : Reader} {around : Frame} {outer : List Frame} (houter : r.outer = around :: outer) :
    closeGroup.run r = (take?.run r >>= fun pair => .ok ((), pair.2.close around outer)) := by
  unfold closeGroup
  rw [StateT.run_bind, StateT.run_get]
  simp only [pure_bind, houter]
  rfl

theorem advances_closeGroup {r s : Reader} {t : Token} {rest : List Token} (hrest : r.rest = t :: rest)
    (h : closeGroup.run r = .ok ((), s)) : c.Advances r s closeGroup := by
  cases houter : r.outer with
  | nil =>
    unfold closeGroup at h
    rw [StateT.run_bind, StateT.run_get] at h
    simp only [pure_bind, houter] at h
    exact absurd h (never_ite (never_throw _) (never_failHere _) r () s)
  | cons around outer =>
    rw [run_closeGroup houter] at h
    have hrest' : ∀ u : Reader, (u.close around outer).rest = u.rest := by
      intro u
      obtain ⟨_, _, -, heq⟩ := close_eq u around outer
      rw [heq]
    have hkeeps : ∀ u, r.Scanned u → u.outer = around :: outer := by
      intro u hu
      rw [hu.same]
      exact houter
    refine advances_take hrest h hrest' (fun u hu hs => hs.of_close (hkeeps u hu)) fun u hu r' hr' => ?_
    obtain ⟨g', outer', houter', -⟩ := hr'.close houter
    refine ⟨(·.close g' outer'), run_closeGroup houter', fun position => ?_⟩
    obtain ⟨g'', outer'', heq, hholds⟩ := (hu.holds hr' position).close (hkeeps u hu)
    rw [show r'.outer = g'' :: outer'' from heq] at houter'
    cases houter'
    exact hholds

/-! ## Steps -/

theorem carries_readItem (start start' : Nat) (d : Char) : c.Carries (readItem start d) (readItem start' d) := by
  unfold readItem
  split
  · exact carries_readSet _ _
  · exact carries_quantify _ _ _ _
  · exact carries_quantify _ _ _ _
  · exact carries_quantify _ _ _ _
  · exact carries_readBraces _ _
  · exact carries_pushTest _
  · exact carries_openGroup _ _
  · exact carries_pushAnchor _
  · exact carries_pushAnchor _
  · exact carries_pushTest _

/-- what a step reads that starts with a plain character -/
def readPlain (start : Nat) (d : Char) : Read Unit := do
  let verbose := (← mode).verbose
  if verbose && isPatternBlank d then return ()
  else if verbose && d = '#' then skipLine ((← get).rest.length + 1)
  else readItem start d

theorem Context.Frames.base_mode {f f' : Frame} {outer outer' : List Frame} (h : c.Frames f outer f' outer')
    (houter : outer = []) : f.mode = {} := by
  cases h with
  | base _ _ mode _ => exact mode
  | inner _ _ _ => cases houter

theorem run_readPlain (start : Nat) (d : Char) (r : Reader) :
    (readPlain start d).run r =
      if r.frame.mode.verbose && isPatternBlank d then (pure () : Read Unit).run r
      else if r.frame.mode.verbose && d = '#' then (skipLine (r.rest.length + 1)).run r
      else (readItem start d).run r := by
  show StateT.run (if r.frame.mode.verbose && isPatternBlank d then _
    else if r.frame.mode.verbose && d = '#' then _ else _ : Read Unit) r = _
  split_ifs <;> rfl

/-- A comment of verbose mode may not run to the end of the expression, unless a group is left open. -/
theorem readPlain_carries {start start' : Nat} {d : Char} {r s : Reader} (hend : s.rest = [] → s.outer = [])
    (h : (readPlain start d).run r = .ok ((), s)) :
    (s.Clean → r.Clean) ∧ r.Before s ∧
      ∀ r', c.Holds r r' → c.Agrees s () ((readPlain start' d).run r') := by
  have hmode : ∀ r', c.Holds r r' → r'.frame.mode = r.frame.mode := fun r' hr' => hr'.frames.mode
  rw [run_readPlain] at h
  split_ifs at h with hblank hcomment
  · obtain ⟨hclean, hle, hpure⟩ := carries_pure (c := c) () r () s h
    refine ⟨hclean, hle, fun r' hr' => ?_⟩
    rw [run_readPlain, hmode r' hr', if_pos hblank]
    exact hpure r' hr'
  · have hs := skipLine_scanned _ r () s h
    refine ⟨hs.clean, hs.before, fun r' hr' => ?_⟩
    have hne : s.rest ≠ [] := by
      intro hnil
      have houter : r.outer = [] := by
        have hsouter := hend hnil
        rw [hs.same] at hsouter
        exact hsouter
      rw [Bool.and_eq_true, hr'.frames.base_mode houter] at hcomment
      exact absurd hcomment.1 (by decide)
    have hlength : r.rest.length + 1 ≤ r'.rest.length + 1 := by rw [hr'.rest, List.length_append]; omega
    obtain ⟨-, hskip⟩ := @skipLine_scans c.tail _ _ hlength r () s (Nat.lt_succ_self _) hne h
    obtain ⟨position, hposition⟩ := hskip r' hr'.rest
    rw [run_readPlain, hmode r' hr', if_neg hblank, if_pos hcomment, hposition]
    exact ⟨rfl, hs.holds hr' position⟩
  · obtain ⟨hclean, hle, hitem⟩ := carries_readItem (c := c) start start' d r () s h
    refine ⟨hclean, hle, fun r' hr' => ?_⟩
    rw [run_readPlain, hmode r' hr', if_neg hblank, if_neg hcomment]
    exact hitem r' hr'

/-- what a step reads, from its first token on -/
def readToken (start : Nat) : Token → Read Unit
  | .plain d => readPlain start d
  | .escaped d => readEscape d
  | .loneBackslash => failAt .escapeAtEnd start

theorem run_step_cons {r : Reader} {t : Token} {rest : List Token} (hrest : r.rest = t :: rest) :
    step.run r =
      if t = .plain '|' then nextAlternative.run r
      else if t = .plain ')' then closeGroup.run r
      else take?.run r >>= fun pair => (readToken r.position t).run pair.2 := by
  have hnext : next?.run r = .ok (some t, r) := by
    show Except.ok (r.rest.head?, r) = _
    rw [hrest]
    rfl
  unfold step
  rw [StateT.run_bind, hnext, ok_bind]
  by_cases hbar : t = .plain '|'
  · rw [if_pos hbar, hbar]
    rfl
  by_cases hclose : t = .plain ')'
  · rw [if_neg hbar, if_pos hclose, hclose]
    rfl
  rw [if_neg hbar, if_neg hclose]
  split
  · contradiction
  · simp_all
  · simp_all
  · rename_i u _ _ hu
    obtain rfl : t = u := by simpa using hu
    cases t <;> rfl

theorem advances_step {r s : Reader} {t : Token} {rest : List Token} (hrest : r.rest = t :: rest)
    (hend : s.rest = [] → s.outer = []) (h : step.run r = .ok ((), s)) : c.Advances r s step := by
  have hrest' : ∀ r', c.Holds r r' → r'.rest = t :: (rest ++ .plain ')' :: c.tail) := by
    intro r' hr'
    rw [hr'.rest, hrest]
    rfl
  rw [run_step_cons hrest] at h
  split_ifs at h with hbar hclose
  · obtain ⟨hclean, hlt, hbefore, hother⟩ := advances_nextAlternative (c := c) hrest h
    refine ⟨hclean, hlt, hbefore, fun r' hr' => ?_⟩
    rw [run_step_cons (hrest' r' hr'), if_pos hbar]
    exact hother r' hr'
  · obtain ⟨hclean, hlt, hbefore, hother⟩ := advances_closeGroup (c := c) hrest h
    refine ⟨hclean, hlt, hbefore, fun r' hr' => ?_⟩
    rw [run_step_cons (hrest' r' hr'), if_neg hbar, if_pos hclose]
    exact hother r' hr'
  · obtain ⟨⟨found, u⟩, htake, hread⟩ := bind_eq_ok.1 h
    obtain rfl := take_of_cons hrest htake
    obtain ⟨hu, hlt, htake'⟩ := @take_scanned c.tail _ _ _ htake
    have htoken : (s.Clean → u.Clean) ∧ u.Before s ∧
        ∀ r' start', c.Holds u r' → c.Agrees s () ((readToken start' t).run r') := by
      cases t with
      | plain d =>
        have hplain := fun start' => @readPlain_carries c _ start' _ _ _ hend hread
        exact ⟨(hplain 0).1, (hplain 0).2.1, fun r' start' => (hplain start').2.2 r'⟩
      | escaped d =>
        obtain ⟨hclean, hle, hescape⟩ := carries_readEscape (c := c) d u () s hread
        exact ⟨hclean, hle, fun r' _ => hescape r'⟩
      | loneBackslash => exact absurd hread (never_failAt _ _ u () s)
    obtain ⟨hclean, hle, hother⟩ := htoken
    refine ⟨fun hs => hu.clean (hclean hs), lt_of_le_of_lt hle.shorter hlt, hu.before.trans hle, fun r' hr' => ?_⟩
    obtain ⟨position, hposition⟩ := htake' r' hr'.rest
    rw [run_step_cons (hrest' r' hr'), if_neg hbar, if_neg hclose, hposition]
    exact hother _ _ (hu.holds hr' position)

/-! ## The whole expression -/

/-- Reading fails after some steps. -/
def Reader.Fails (r : Reader) : Prop := ∃ n, n ≤ r.rest.length ∧ ∀ m, ∃ e, (steps (n + m)).run r = .error e

theorem Reader.Reaches.fails {r s : Reader} (h : r.Reaches s) (hs : s.Fails) : r.Fails := by
  obtain ⟨n, hn, hsteps⟩ := h
  obtain ⟨k, hk, hfails⟩ := hs
  refine ⟨n + k, by omega, fun m => ?_⟩
  rw [Nat.add_assoc, hsteps]
  exact hfails m

theorem Reader.Fails.of_step {r : Reader} {t : Token} {rest : List Token} {e : CompileError} (hrest : r.rest = t :: rest)
    (h : step.run r = .error e) : r.Fails := by
  refine ⟨1, by rw [hrest, List.length_cons]; omega, fun m => ⟨e, ?_⟩⟩
  rw [Nat.add_comm 1 m, steps_of_cons hrest, h]
  rfl

/-- **An expression that can be read alone is read in the same way within a longer one**, or makes it fail because it is
not clean. -/
theorem steps_embedded (n : Nat) :
    ∀ r s : Reader, r.rest.length ≤ n → s.outer = [] → (steps n).run r = .ok ((), s) →
      s.rest = [] ∧ (s.Clean → r.Clean) ∧ r.Before s ∧
        ∀ r', c.Holds r r' → (∃ s', c.Holds s s' ∧ r'.Reaches s') ∨ (¬s.Clean ∧ r'.Fails) := by
  induction n with
  | zero =>
    intro r s hn _ h
    cases h
    exact ⟨List.length_eq_zero_iff.1 (Nat.le_zero.1 hn), id, .of_eq rfl, fun r' hr' => .inl ⟨r', hr', .refl r'⟩⟩
  | succ n ih =>
    intro r s hn houter h
    rcases steps_eq_ok h with ⟨hrest, rfl⟩ | ⟨t, rest, u, hrest, hstep, hsteps⟩
    · exact ⟨hrest, id, .of_eq rfl, fun r' hr' => .inl ⟨r', hr', .refl r'⟩⟩
    have hend : u.rest = [] → u.outer = [] := by
      intro hnil
      rw [steps_of_nil hnil] at hsteps
      cases hsteps
      exact houter
    obtain ⟨hclean, hlt, hbefore, hother⟩ := advances_step (c := c) hrest hend hstep
    obtain ⟨hnil, hclean', hbefore', hrest'⟩ := ih u s (by omega) houter hsteps
    refine ⟨hnil, fun hs => hclean (hclean' hs), hbefore.trans hbefore', fun r' hr' => ?_⟩
    have hcons : r'.rest = t :: (rest ++ .plain ')' :: c.tail) := by rw [hr'.rest, hrest]; rfl
    have hagrees := hother r' hr'
    cases hstep' : step.run r' with
    | error e =>
      rw [hstep'] at hagrees
      exact .inr ⟨fun hs => hagrees (hclean' hs), .of_step hcons hstep'⟩
    | ok pair =>
      obtain ⟨_, u'⟩ := pair
      rw [hstep'] at hagrees
      have hu' : c.Holds u u' := hagrees.2
      have hshorter : u'.rest.length < r'.rest.length := by
        rw [hu'.rest, hr'.rest, List.length_append, List.length_append]
        omega
      have hreaches : r'.Reaches u' := .of_step hstep' hshorter
      rcases hrest' u' hu' with ⟨s', hs', hreaches'⟩ | ⟨hdirty, hfails⟩
      · exact .inl ⟨s', hs', hreaches.trans hreaches'⟩
      · exact .inr ⟨hdirty, hreaches.fails hfails⟩

end UrlRouter.Regex
