/-
The names of groups.

A compiled expression gives no name to two groups. Only the opening of a named capture adds a name, and it refuses one
that is taken; every other reading operation leaves the names alone.

Results:
- `keeps_step`: a step of reading keeps the names distinct.
- `compile_names_nodup`: the named groups of a compiled expression have distinct names.
-/
import Mathlib.Tactic
import UrlRouter.Regex.Compile
import UrlRouter.Proofs.Except

namespace UrlRouter.Regex

/-! ## Operations that keep the names distinct -/

def Reader.NamesDistinct (r : Reader) : Prop := (r.names.map (·.1)).Nodup

/-- Where the operation succeeds, it keeps the names distinct. -/
def Keeps {α : Type} (x : Read α) : Prop :=
  ∀ r : Reader, r.NamesDistinct → ∀ a s, x.run r = .ok (a, s) → s.NamesDistinct

variable {α β : Type}

theorem keeps_pure (a : α) : Keeps (pure a) := by
  intro r hr b s h
  cases h
  exact hr

theorem keeps_ite {c : Prop} [Decidable c] {x y : Read α} (hx : Keeps x) (hy : Keeps y) :
    Keeps (if c then x else y) := by
  split
  · exact hx
  · exact hy

theorem keeps_throw (e : CompileError) : Keeps (throw e : Read α) := by
  intro r hr a s h
  cases h

theorem keeps_bind {x : Read α} {f : α → Read β} (hx : Keeps x) (hf : ∀ a, Keeps (f a)) : Keeps (x >>= f) := by
  intro r hr b s h
  obtain ⟨⟨a, t⟩, hxa, hfa⟩ := bind_eq_ok.1 h
  exact hf a t (hx r hr a t hxa) b s hfa

/-- Something that is done first on a condition only. -/
theorem keeps_guard {c : Prop} [Decidable c] {x : Read Unit} {next : Unit → Read β} (hx : Keeps x)
    (hnext : Keeps (next ())) : Keeps (if c then x >>= next else next ()) :=
  keeps_ite (keeps_bind hx fun _ => hnext) hnext

/-- What is done with the state may rely on its names being distinct. -/
theorem keeps_get_bind {f : Reader → Read β} (hf : ∀ r : Reader, r.NamesDistinct → Keeps (f r)) :
    Keeps (get >>= f) := fun r hr b s h => hf r hr r hr b s h

theorem keeps_set {r : Reader} (hr : r.NamesDistinct) : Keeps (set r) := by
  intro _ _ _ s h
  cases h
  exact hr

theorem keeps_modify {f : Reader → Reader} (hf : ∀ r, (f r).names = r.names) : Keeps (modify f) := by
  intro r hr _ s h
  cases h
  show ((f r).names.map _).Nodup
  rw [hf]
  exact hr

theorem keeps_failBack (problem : Problem) (back : Nat) : Keeps (failBack problem back : Read α) :=
  keeps_get_bind fun _ _ => keeps_throw _

theorem keeps_failHere (problem : Problem) : Keeps (failHere problem : Read α) := keeps_failBack problem 0

theorem keeps_failAt (problem : Problem) (position : Nat) : Keeps (failAt problem position : Read α) := keeps_throw _

/-! ## Tokens -/

theorem keeps_next? : Keeps next? := keeps_get_bind fun _ _ => keeps_pure _

theorem keeps_mode : Keeps mode := keeps_get_bind fun _ _ => keeps_pure _

theorem checkNext_eq_ok {r s : Reader} (h : checkNext r = .ok s) : s = r := by
  unfold checkNext at h
  split at h
  · cases h
  · exact (Except.ok.inj h).symm

theorem keeps_take? : Keeps take? := by
  refine keeps_get_bind fun r hr => ?_
  split
  · exact keeps_pure _
  · rename_i t rest _
    have hnext : (({ r with rest, position := r.position + t.length } : Reader)).NamesDistinct := hr
    intro _ _ a s h
    obtain ⟨⟨next, _⟩, hcheck, h⟩ := bind_eq_ok.1 h
    obtain ⟨found, hfound, hpair⟩ := bind_eq_ok.1 hcheck
    cases hpair
    cases h
    rw [checkNext_eq_ok hfound]
    exact hnext

theorem keeps_accept (c : Char) : Keeps (accept c) := by
  refine keeps_bind keeps_next? fun t => ?_
  split_ifs
  · exact keeps_bind keeps_take? fun _ => keeps_pure _
  · exact keeps_pure _

theorem keeps_acceptIf (p : Char → Bool) : Keeps (acceptIf p) := by
  refine keeps_bind keeps_next? fun t => ?_
  split
  · split_ifs
    · exact keeps_bind keeps_take? fun _ => keeps_pure _
    · exact keeps_pure _
  · exact keeps_pure _

theorem keeps_takeWhile (p : Char → Bool) (limit : Nat) : Keeps (takeWhile p limit) := by
  induction limit with
  | zero => exact keeps_pure _
  | succ limit ih =>
    refine keeps_bind (keeps_acceptIf p) fun c => ?_
    split
    · exact keeps_bind ih fun _ => keeps_pure _
    · exact keeps_pure _

theorem keeps_takeUntil (terminator : Char) (what : String) (taken : List Char) (limit : Nat) :
    Keeps (takeUntil terminator what taken limit) := by
  induction limit generalizing taken with
  | zero => exact keeps_failHere _
  | succ limit ih =>
    refine keeps_bind keeps_take? fun t => ?_
    split
    · split_ifs
      · exact keeps_failHere _
      · exact keeps_failBack _ _
    · split_ifs
      · exact keeps_failBack _ _
      · exact keeps_pure _
      · exact ih _

theorem keeps_nameUntil (terminator : Char) (what : String) : Keeps (nameUntil terminator what) :=
  keeps_get_bind fun _ _ => keeps_takeUntil _ _ _ _

theorem keeps_push (node : Node) (quantifiable : Quantifiable) : Keeps (push node quantifiable) :=
  keeps_modify fun _ => rfl

theorem keeps_pushTest (test : CharTest) : Keeps (pushTest test) := keeps_bind keeps_mode fun _ => keeps_push _ _

theorem keeps_pushAnchor (anchor : Anchor) : Keeps (pushAnchor anchor) :=
  keeps_bind keeps_mode fun _ => keeps_push _ _

theorem keeps_pushBackref (n : Nat) : Keeps (pushBackref n) := keeps_bind keeps_mode fun _ => keeps_push _ _

theorem keeps_checkLookBehind (n : Nat) : Keeps (checkLookBehind n) := by
  refine keeps_get_bind fun r _ => ?_
  split
  · exact keeps_pure _
  · refine keeps_get_bind fun s _ => ?_
    split_ifs
    · exact keeps_failHere _
    · exact keeps_failHere _
    · exact keeps_pure _

/-! ## Escapes and sets -/

theorem keeps_hexEscape (letter : Char) (count : Nat) : Keeps (hexEscape letter count) := by
  refine keeps_bind (keeps_takeWhile _ _) fun digits => ?_
  split_ifs
  · exact keeps_failBack _ _
  · exact keeps_pure _

theorem keeps_namedEscape : Keeps namedEscape := by
  refine keeps_bind (keeps_accept _) fun b => ?_
  split_ifs
  · exact keeps_bind (keeps_nameUntil _ _) fun _ => keeps_failBack _ _
  · exact keeps_failHere _

theorem keeps_codeEscape? (letter : Char) : Keeps (codeEscape? letter) := by
  unfold codeEscape?
  split
  · exact keeps_bind (keeps_hexEscape _ _) fun _ => keeps_pure _
  · exact keeps_bind (keeps_hexEscape _ _) fun _ => keeps_pure _
  · refine keeps_bind (keeps_takeWhile _ _) fun digits => ?_
    split_ifs
    · exact keeps_failBack _ _
    · exact keeps_failBack _ _
    · exact keeps_pure _
  · exact keeps_bind keeps_namedEscape fun _ => keeps_pure _
  · exact keeps_pure _

theorem keeps_plainEscape (c : Char) : Keeps (plainEscape c) := by
  unfold plainEscape
  split_ifs
  · exact keeps_failBack _ _
  · exact keeps_pure _

theorem keeps_octalEscape (digits : List Char) : Keeps (octalEscape digits) := by
  unfold octalEscape
  split_ifs
  · exact keeps_failBack _ _
  · exact keeps_pure _

theorem keeps_setEscape (c : Char) : Keeps (setEscape c) := by
  unfold setEscape
  split
  · exact keeps_pure _
  split
  · exact keeps_pure _
  refine keeps_bind (keeps_codeEscape? c) fun n => ?_
  split
  · exact keeps_pure _
  split_ifs
  · exact keeps_bind (keeps_takeWhile _ _) fun _ => keeps_bind (keeps_octalEscape _) fun _ => keeps_pure _
  · exact keeps_bind (keeps_plainEscape _) fun _ => keeps_pure _

theorem keeps_digitEscape (c : Char) : Keeps (digitEscape c) := by
  unfold digitEscape
  extract_lets reference
  have hreference : ∀ digits, Keeps (reference digits) := by
    intro digits
    refine keeps_get_bind fun r _ => ?_
    refine keeps_ite (keeps_ite (keeps_failBack _ _) ?_) (keeps_failBack _ _)
    exact keeps_bind (keeps_checkLookBehind _) fun _ => keeps_pushBackref _
  refine keeps_bind (keeps_acceptIf _) fun d => ?_
  split
  · exact hreference _
  split_ifs
  · refine keeps_bind (keeps_acceptIf _) fun e => ?_
    split
    · exact keeps_bind (keeps_octalEscape _) fun _ => keeps_pushTest _
    · exact hreference _
  · exact hreference _

theorem keeps_readEscape (c : Char) : Keeps (readEscape c) := by
  unfold readEscape
  split
  · exact keeps_pushAnchor _
  split
  · exact keeps_pushTest _
  split
  · exact keeps_pushTest _
  refine keeps_bind (keeps_codeEscape? c) fun n => ?_
  split
  · exact keeps_pushTest _
  split_ifs
  · exact keeps_bind (keeps_takeWhile _ _) fun _ => keeps_pushTest _
  · exact keeps_digitEscape c
  · exact keeps_bind (keeps_plainEscape _) fun _ => keeps_pushTest _

theorem keeps_setMember (t : Token) : Keeps (setMember t) := by
  cases t with
  | escaped c => exact keeps_setEscape c
  | plain c => exact keeps_pure _
  | loneBackslash => exact keeps_failHere _

theorem keeps_readMembers (start : Nat) (members : List Member) (limit : Nat) :
    Keeps (readMembers start members limit) := by
  induction limit generalizing members with
  | zero => exact keeps_failAt _ _
  | succ limit ih =>
    refine keeps_bind keeps_take? fun first => ?_
    split
    · exact keeps_failAt _ _
    split_ifs
    · exact keeps_pure _
    refine keeps_bind (keeps_setMember _) fun low => keeps_bind (keeps_accept _) fun dash => ?_
    split_ifs
    · refine keeps_bind keeps_take? fun last => ?_
      split
      · exact keeps_failAt _ _
      split_ifs
      · exact keeps_pure _
      refine keeps_bind (keeps_setMember _) fun high => ?_
      dsimp only
      split
      · split_ifs
        · exact keeps_failBack _ _
        · exact ih _
      · exact keeps_failBack _ _
    · exact ih _

theorem keeps_readSet (start : Nat) : Keeps (readSet start) :=
  keeps_bind (keeps_accept _) fun _ => keeps_get_bind fun _ _ =>
    keeps_bind (keeps_readMembers _ _ _) fun _ => keeps_pushTest _

/-! ## Quantifiers -/

theorem keeps_repetitions (digits : List Char) : Keeps (repetitions digits) := by
  unfold repetitions
  dsimp only
  split_ifs
  all_goals first
    | exact keeps_throw _
    | exact keeps_pure _

theorem keeps_quantify (start least : Nat) (most : Option Nat) : Keeps (quantify start least most) := by
  refine keeps_get_bind fun r _ => ?_
  split
  · exact keeps_failAt _ _
  split
  · exact keeps_failAt _ _
  · exact keeps_failAt _ _
  refine keeps_bind (keeps_accept _) fun lazy => ?_
  split_ifs
  · exact keeps_bind (keeps_pure _) fun _ => keeps_modify fun _ => rfl
  refine keeps_bind (keeps_accept _) fun possessive => ?_
  split_ifs
  · exact keeps_bind (keeps_pure _) fun _ => keeps_modify fun _ => rfl
  · exact keeps_bind (keeps_pure _) fun _ => keeps_modify fun _ => rfl

theorem keeps_readBraces (start : Nat) : Keeps (readBraces start) := by
  refine keeps_bind keeps_next? fun t => keeps_ite (keeps_pushTest _) ?_
  refine keeps_get_bind fun here hhere => keeps_bind (keeps_takeWhile _ _) fun low =>
    keeps_bind (keeps_accept _) fun comma => ?_
  extract_lets closing
  have hclosing : ∀ high, Keeps (closing high) := by
    intro high
    refine keeps_bind (keeps_accept _) fun close => keeps_ite ?_ (keeps_bind (keeps_set hhere) fun _ => keeps_pushTest _)
    extract_lets bounded
    have hbounded : ∀ least, Keeps (bounded least) := fun least =>
      keeps_ite (keeps_quantify _ _ _)
        (keeps_bind (keeps_repetitions _) fun _ => keeps_ite (keeps_failAt _ _) (keeps_quantify _ _ _))
    exact keeps_ite (keeps_bind (keeps_pure _) hbounded) (keeps_bind (keeps_repetitions _) hbounded)
  exact keeps_ite (keeps_bind (keeps_takeWhile _ _) hclosing) (keeps_bind (keeps_pure _) hclosing)

/-! ## Groups -/

theorem keeps_openFrame (kind : GroupKind) (start : Nat) (mode : Mode) : Keeps (openFrame kind start mode) :=
  keeps_modify fun _ => rfl

/-- A named capture adds its name, which is a new one. -/
theorem keeps_openCapture (start : Nat) (name : Option String) : Keeps (openCapture start name) := by
  intro r hr a s h
  cases name with
  | none =>
    cases h
    exact hr
  | some name =>
    cases hlookup : r.names.lookup name with
    | some earlier =>
      unfold openCapture at h
      simp only [StateT.run_bind, StateT.run_get, pure_bind, hlookup] at h
      cases h
    | none =>
      have hopened : (openCapture start (some name)).run r = .ok ((), { r with
          names := r.names ++ [(name, r.groupBound)]
          widths := r.widths ++ [none]
          frame := ⟨.capture r.groupBound, start, r.frame.mode, [], []⟩
          outer := r.frame :: r.outer }) := by
        unfold openCapture
        simp only [StateT.run_bind, StateT.run_get, pure_bind, hlookup]
        rfl
      rw [hopened] at h
      cases h
      show ((r.names ++ [(name, r.groupBound)]).map (·.1)).Nodup
      rw [List.map_append, List.nodup_append]
      refine ⟨hr, List.nodup_singleton name, fun key hkey other hother heq => ?_⟩
      obtain rfl := List.mem_singleton.1 hother
      obtain ⟨entry, hentry, rfl⟩ := List.mem_map.1 hkey
      have hne := List.lookup_eq_none_iff.1 hlookup entry hentry
      rw [heq] at hne
      simp at hne

theorem keeps_groupName (terminator : Char) : Keeps (groupName terminator) := by
  refine keeps_bind (keeps_nameUntil _ _) fun name => ?_
  split_ifs
  · exact keeps_pure _
  · exact keeps_failBack _ _

theorem keeps_readNamedReference : Keeps readNamedReference := by
  refine keeps_bind (keeps_groupName _) fun name => keeps_get_bind fun r _ => ?_
  split
  · exact keeps_failBack _ _
  · refine keeps_guard (keeps_failBack _ _) ?_
    exact keeps_bind (keeps_checkLookBehind _) fun _ => keeps_pushBackref _

theorem keeps_conditionGroup (text : String) : Keeps (conditionGroup text) := by
  refine keeps_get_bind fun r hr => ?_
  split_ifs
  · split
    · exact keeps_pure _
    · exact keeps_failBack _ _
  split
  · exact keeps_failBack _ _
  split_ifs
  · exact keeps_failBack _ _
  · exact keeps_failBack _ _
  · exact keeps_failBack _ _
  · exact keeps_bind (keeps_set hr) fun _ => keeps_pure _
  · exact keeps_pure _

theorem keeps_readCondition (start : Nat) : Keeps (readCondition start) :=
  keeps_bind (keeps_nameUntil _ _) fun _ => keeps_bind (keeps_conditionGroup _) fun _ =>
    keeps_bind (keeps_checkLookBehind _) fun _ => keeps_bind keeps_mode fun _ => keeps_openFrame _ _ _

theorem keeps_openLook (start : Nat) (behind negated : Bool) : Keeps (openLook start behind negated) := by
  refine keeps_get_bind fun r hr => ?_
  refine keeps_guard (keeps_set hr) ?_
  exact keeps_openFrame _ _ _

theorem keeps_skipComment (start limit : Nat) : Keeps (skipComment start limit) := by
  induction limit with
  | zero => exact keeps_failAt _ _
  | succ limit ih =>
    refine keeps_bind keeps_take? fun t => ?_
    split
    · exact keeps_failAt _ _
    · split_ifs
      · exact keeps_pure _
      · exact ih

theorem keeps_badFlag (t : Token) (expected : String) : Keeps (badFlag t expected : Read α) := by
  unfold badFlag
  split
  · exact keeps_failBack _ _
  · exact keeps_failBack _ _

theorem keeps_flagsOn (on : List Char) (c : Char) (limit : Nat) : Keeps (flagsOn on c limit) := by
  induction limit generalizing on c with
  | zero => exact keeps_failHere _
  | succ limit ih =>
    unfold flagsOn
    refine keeps_guard (keeps_failHere _) ?_
    refine keeps_guard (keeps_failHere _) ?_
    refine keeps_bind keeps_take? fun t => ?_
    split
    · exact keeps_failHere _
    · exact keeps_ite (keeps_pure _) (keeps_ite (ih _ _) (keeps_badFlag _ _))
    · exact keeps_badFlag _ _

theorem keeps_flagsOff (off : List Char) (c : Char) (limit : Nat) : Keeps (flagsOff off c limit) := by
  induction limit generalizing off c with
  | zero => exact keeps_failHere _
  | succ limit ih =>
    unfold flagsOff
    refine keeps_guard (keeps_failHere _) ?_
    refine keeps_bind keeps_take? fun t => ?_
    split
    · exact keeps_failHere _
    · exact keeps_ite (keeps_pure _) (keeps_ite (ih _ _) (keeps_badFlag _ _))
    · exact keeps_badFlag _ _

theorem keeps_setGlobalFlags (start : Nat) (on : List Char) : Keeps (setGlobalFlags start on) :=
  keeps_get_bind fun _ hr => keeps_guard (keeps_failAt _ _) (keeps_set hr)

theorem keeps_readFlags (start : Nat) (c : Char) : Keeps (readFlags start c) := by
  refine keeps_get_bind fun r _ => ?_
  extract_lets limit flags
  have hflags : ∀ pair, Keeps (flags pair) := by
    rintro ⟨on, close⟩
    refine keeps_ite (keeps_setGlobalFlags _ _) (keeps_guard (keeps_failBack _ _) ?_)
    extract_lets opened
    have hopened : ∀ off, Keeps (opened off) := fun off =>
      keeps_guard (keeps_failBack _ _) (keeps_guard (keeps_failBack _ _)
        (keeps_bind keeps_mode fun _ => keeps_openFrame _ _ _))
    refine keeps_ite (keeps_bind keeps_take? fun t => ?_) (keeps_bind (keeps_pure _) hopened)
    split
    · exact keeps_bind (keeps_failHere _) hopened
    · exact keeps_ite (keeps_bind (keeps_flagsOff _ _ _) hopened) (keeps_bind (keeps_badFlag _ _) hopened)
    · exact keeps_bind (keeps_badFlag _ _) hopened
  exact keeps_ite (keeps_bind (keeps_pure _) fun pair => hflags pair) (keeps_bind (keeps_flagsOn _ _ _) fun pair => hflags pair)

theorem keeps_openGroup (start : Nat) : Keeps (openGroup start) := by
  refine keeps_bind (keeps_accept _) fun extended => keeps_ite (keeps_openCapture _ _) ?_
  refine keeps_bind keeps_take? fun t => ?_
  split
  · exact keeps_failHere _
  · refine keeps_bind (keeps_accept _) fun named => keeps_ite ?_ ?_
    · exact keeps_bind (keeps_groupName _) fun _ => keeps_openCapture _ _
    · refine keeps_bind (keeps_accept _) fun reference => keeps_ite keeps_readNamedReference ?_
      refine keeps_bind keeps_take? fun u => ?_
      split
      · exact keeps_failHere _
      · exact keeps_failBack _ _
  · exact keeps_bind keeps_mode fun _ => keeps_openFrame _ _ _
  · exact keeps_get_bind fun _ _ => keeps_skipComment _ _
  · exact keeps_openLook _ _ _
  · exact keeps_openLook _ _ _
  · refine keeps_bind keeps_take? fun u => ?_
    split
    · exact keeps_failHere _
    · exact keeps_openLook _ _ _
    · exact keeps_openLook _ _ _
    · exact keeps_failBack _ _
  · exact keeps_readCondition _
  · exact keeps_bind keeps_mode fun _ => keeps_openFrame _ _ _
  · split
    · exact keeps_ite (keeps_readFlags _ _) (keeps_failBack _ _)
    · exact keeps_failBack _ _

theorem keeps_nextAlternative : Keeps nextAlternative := by
  refine keeps_get_bind fun r _ => ?_
  split
  · exact keeps_bind keeps_take? fun _ => keeps_modify fun _ => rfl
  · exact keeps_failHere _
  · exact keeps_bind keeps_take? fun _ => keeps_modify fun _ => rfl

theorem close_names (r : Reader) (around : Frame) (outer : List Frame) : (r.close around outer).names = r.names := by
  unfold Reader.close
  split
  all_goals rfl

theorem keeps_closeGroup : Keeps closeGroup := by
  refine keeps_get_bind fun r _ => ?_
  split
  · exact keeps_ite (keeps_throw _) (keeps_failHere _)
  · exact keeps_bind keeps_take? fun _ => keeps_modify fun r => close_names r _ _

/-! ## Steps -/

theorem keeps_skipLine (limit : Nat) : Keeps (skipLine limit) := by
  induction limit with
  | zero => exact keeps_pure _
  | succ limit ih =>
    refine keeps_bind keeps_take? fun t => ?_
    split
    · exact keeps_pure _
    · exact keeps_ite (keeps_pure _) ih

theorem keeps_readItem (start : Nat) (c : Char) : Keeps (readItem start c) := by
  unfold readItem
  split
  · exact keeps_readSet _
  · exact keeps_quantify _ _ _
  · exact keeps_quantify _ _ _
  · exact keeps_quantify _ _ _
  · exact keeps_readBraces _
  · exact keeps_pushTest _
  · exact keeps_openGroup _
  · exact keeps_pushAnchor _
  · exact keeps_pushAnchor _
  · exact keeps_pushTest _

theorem keeps_step : Keeps step := by
  refine keeps_bind keeps_next? fun t => ?_
  split
  · exact keeps_pure _
  · exact keeps_nextAlternative
  · exact keeps_closeGroup
  · refine keeps_get_bind fun r _ => keeps_bind keeps_take? fun _ => ?_
    split
    · refine keeps_bind keeps_mode fun m => keeps_ite (keeps_pure _) (keeps_ite ?_ (keeps_readItem _ _))
      exact keeps_get_bind fun _ _ => keeps_skipLine _
    · exact keeps_readEscape _
    · exact keeps_failAt _ _

theorem keeps_steps (n : Nat) : Keeps (steps n) := by
  induction n with
  | zero => exact keeps_pure _
  | succ n ih => exact keeps_get_bind fun r _ => keeps_ite (keeps_pure _) (keeps_bind keeps_step fun _ => ih)

theorem ofReader_names {r : Reader} {regex : Regex} (h : ofReader r = .ok regex) : regex.names = r.names := by
  unfold ofReader at h
  dsimp only at h
  split at h
  · split at h
    · cases h
    · split at h
      · cases h
      · split at h
        · cases h
        · cases h
          rfl
  · cases h

/-- **Named groups have distinct names.** An expression that compiles names no two groups alike. -/
theorem compile_names_nodup {text : String} {regex : Regex} (h : compile text = .ok regex) :
    (regex.names.map (·.1)).Nodup := by
  obtain ⟨r, hfinish, hregex⟩ := bind_eq_ok.1 h
  obtain ⟨start, hstart, hsteps⟩ := bind_eq_ok.1 hfinish
  obtain ⟨⟨u, last⟩, hsteps, hlast⟩ := bind_eq_ok.1 hsteps
  cases hlast
  have hdistinct : start.NamesDistinct := by
    rw [checkNext_eq_ok hstart]
    exact List.nodup_nil
  rw [ofReader_names hregex]
  exact keeps_steps _ start hdistinct u r hsteps

end UrlRouter.Regex
