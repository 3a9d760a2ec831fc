/-
What reading takes without leaving its place.

Tokens are taken in a row, and a cursor goes along with them. The characters of escapes, quantifiers and numbers go
unnoticed by it, and the operations that take them leave the open groups as they are.

Results:
- `after_ofChars`: a cursor goes through the tokens of a text as through its characters.
- `TakesQuiet`: operations that take nothing but characters which go unnoticed, and leave the open groups alone.
- `quiet_readEscape`, `quiet_setEscape`, `quiet_quantify`, `quiet_readBraces`: one for each operation.
-/
import Mathlib.Tactic
import UrlRouter.Proofs.Regex.Cursor
import UrlRouter.Proofs.Regex.EmbeddedGroups
import UrlRouter.Proofs.Regex.Steps

namespace UrlRouter.Regex

variable {α β : Type}

/-! ## Cursors over tokens -/

namespace Cursor

/-- behind a token -/
def take (s : Cursor) : Token → Cursor
  | .plain c => s.plain c
  | .escaped _ => { s with spot := s.spot.escaping }
  | .loneBackslash => { s with spot := s.spot.escaping, escaped := true }

def past (s : Cursor) (tokens : List Token) : Cursor := tokens.foldl take s

/-- the name that is complete with the token -/
def nameOf? (s : Cursor) : Token → Option String
  | .plain c => s.name? c
  | _ => none

def met (s : Cursor) : List Token → List String
  | [] => []
  | t :: rest => (s.nameOf? t).toList ++ (s.take t).met rest

/-- A name is complete only where one is read. -/
theorem nameOf?_eq_none {s : Cursor} (h : ∀ soFar, s.spot ≠ .name soFar) (t : Token) : s.nameOf? t = none := by
  cases t with
  | plain c =>
    rw [nameOf?, name?.eq_def]
    split
    · rename_i soFar hname
      exact absurd hname (h soFar)
    · rfl
  | _ => rfl

theorem past_append (s : Cursor) (a b : List Token) : s.past (a ++ b) = (s.past a).past b := List.foldl_append ..

theorem met_append (s : Cursor) (a b : List Token) : s.met (a ++ b) = s.met a ++ (s.past a).met b := by
  induction a generalizing s with
  | nil => rfl
  | cons t a ih =>
    rw [List.cons_append, met, met, ih, List.append_assoc]
    rfl

theorem escaped_leave (s : Cursor) : s.leave.escaped = s.escaped := by
  unfold leave
  split
  · rfl
  · rfl

theorem escaped_adjust (s : Cursor) (on off : Bool) : (s.adjust on off).escaped = s.escaped := by
  unfold adjust
  split
  · rfl
  · rfl

theorem escaped_plain (s : Cursor) (c : Char) : (s.plain c).escaped = s.escaped := by
  have hitem : (s.item c).escaped = s.escaped := by
    unfold item
    split_ifs
    · rfl
    · exact escaped_leave s
    · rfl
    · rfl
    · rfl
  unfold plain
  split
  all_goals try split_ifs
  all_goals first
    | rfl
    | exact hitem
    | exact escaped_leave s
    | exact (escaped_adjust _ _ _).trans (escaped_leave s)
    | exact escaped_adjust _ _ _

/-- Cut into tokens, a text leads to the same place. -/
theorem after_ofChars {s : Cursor} (h : s.escaped = false) (text : List Char) :
    s.after text = s.past (Token.ofChars text) ∧ s.names text = s.met (Token.ofChars text) := by
  have hname : ∀ t : Cursor, t.escaped = true → ∀ c, t.name? c = none := by
    intro t ht c
    unfold name?
    split
    · simp [ht]
    · rfl
  induction text using Token.ofChars.induct generalizing s with
  | case1 => exact ⟨rfl, rfl⟩
  | case2 =>
    have hback : s.name? '\\' = none := by unfold name?; split <;> simp
    rw [Token.ofChars, after_cons, names, hback, next, h]
    exact ⟨rfl, rfl⟩
  | case3 c rest ih =>
    have hback : s.name? '\\' = none := by unfold name?; split <;> simp
    obtain ⟨hafter, hnames⟩ := @ih { s with spot := s.spot.escaping.escaping } h
    have hnext : (s.next '\\').next c = { s with spot := s.spot.escaping.escaping } := by simp [next, h]
    have htwice : s.spot.escaping.escaping = s.spot.escaping := by cases s.spot <;> rfl
    rw [Token.ofChars, after_cons, after_cons, names, names, hback, hname _ (by simp [next, h]), hnext, hafter, hnames,
      htwice]
    exact ⟨rfl, rfl⟩
  | case4 c rest hnot hnot' ih =>
    have hc : c ≠ '\\' := by
      rintro rfl
      cases rest with
      | nil => exact hnot rfl rfl
      | cons d rest => exact hnot' d rest rfl rfl
    have hnext : s.next c = s.plain c := by simp [next, h, hc]
    obtain ⟨hafter, hnames⟩ := ih ((escaped_plain s c).trans h)
    rw [ofChars_cons hc, after_cons, names, hnext, hafter, hnames]
    exact ⟨rfl, rfl⟩

/-- Quiet characters go unnoticed as tokens, too. -/
theorem Settled.past {s : Cursor} (h : s.Settled) {text : List Char} (ht : ∀ c ∈ text, Quiet c) :
    s.past (text.map .plain) = s ∧ s.met (text.map .plain) = [] := by
  have hback : '\\' ∉ text := fun hmem => ht _ hmem (by decide)
  rw [← ofChars_eq_plain text hback, ← (after_ofChars h.escaped text).1, ← (after_ofChars h.escaped text).2]
  exact h.after ht

end Cursor

/-! ## Operations that take quiet characters -/

/-- The same groups are open, and the same have a name. -/
structure Reader.Level (r s : Reader) : Prop where
  mode : s.frame.mode = r.frame.mode
  outer : s.outer = r.outer
  names : s.names = r.names

theorem Reader.Level.refl (r : Reader) : r.Level r := ⟨rfl, rfl, rfl⟩

theorem Reader.Level.trans {r s t : Reader} (h : r.Level s) (h' : s.Level t) : r.Level t :=
  ⟨h'.mode.trans h.mode, h'.outer.trans h.outer, h'.names.trans h.names⟩

/-- `s` is reached from `r` by taking quiet characters, with the same groups open. -/
structure Reader.Quietly (r s : Reader) : Prop where
  level : r.Level s
  taken : ∃ taken : List Char, r.rest = taken.map .plain ++ s.rest ∧ ∀ c ∈ taken, Cursor.Quiet c

theorem Reader.Level.quietly {r s : Reader} (h : r.Level s) (hrest : s.rest = r.rest) : r.Quietly s :=
  ⟨h, [], by rw [hrest]; rfl, fun c hc => absurd hc List.not_mem_nil⟩

theorem Reader.Quietly.refl (r : Reader) : r.Quietly r := (Level.refl r).quietly rfl

theorem Reader.Quietly.trans {r s t : Reader} (h : r.Quietly s) (h' : s.Quietly t) : r.Quietly t := by
  obtain ⟨hlevel, taken, hrest, hquiet⟩ := h
  obtain ⟨hlevel', taken', hrest', hquiet'⟩ := h'
  refine ⟨hlevel.trans hlevel', taken ++ taken', ?_, fun c hc => ?_⟩
  · rw [hrest, hrest', List.map_append, List.append_assoc]
  · rcases List.mem_append.1 hc with hc | hc
    · exact hquiet c hc
    · exact hquiet' c hc

/-- Where the operation succeeds, it takes quiet characters only and leaves the open groups alone. -/
def TakesQuiet (x : Read α) : Prop := ∀ r a s, x.run r = .ok (a, s) → r.Quietly s

theorem quiet_never {x : Read α} (h : Never x) : TakesQuiet x := fun r a s hrun => absurd hrun (h r a s)

theorem quiet_pure (a : α) : TakesQuiet (pure a) := by
  intro r b s h
  cases h
  exact .refl r

theorem quiet_bind {x : Read α} {f : α → Read β} (hx : TakesQuiet x) (hf : ∀ a, TakesQuiet (f a)) :
    TakesQuiet (x >>= f) := by
  intro r b s h
  obtain ⟨⟨a, t⟩, hxa, hfa⟩ := bind_eq_ok.1 h
  exact (hx r a t hxa).trans (hf a t b s hfa)

theorem quiet_ite {p : Prop} [Decidable p] {f g : Read α} (hf : TakesQuiet f) (hg : TakesQuiet g) :
    TakesQuiet (if p then f else g) := by
  split_ifs
  · exact hf
  · exact hg

theorem quiet_get_bind {f : Reader → Read β} (hf : ∀ r, TakesQuiet (f r)) : TakesQuiet (get >>= f) :=
  fun r b s h => hf r r b s h

/-- Something that is checked first. -/
theorem quiet_guard {p : Prop} [Decidable p] {x : Read Unit} {next : Unit → Read β} (hx : Never x)
    (hnext : TakesQuiet (next ())) : TakesQuiet (if p then x >>= next else next ()) :=
  quiet_ite (quiet_never (never_first hx)) hnext

theorem quiet_push (node : Node) (quantifiable : Quantifiable) : TakesQuiet (push node quantifiable) := by
  intro r a s h
  cases h
  exact Reader.Level.quietly ⟨rfl, rfl, rfl⟩ rfl

theorem quiet_mode_bind {f : Mode → Read β} (hf : ∀ mode, TakesQuiet (f mode)) : TakesQuiet (mode >>= f) :=
  fun r b s h => hf r.frame.mode r b s h

theorem quiet_pushTest (test : CharTest) : TakesQuiet (pushTest test) := quiet_mode_bind fun _ => quiet_push _ _

theorem quiet_pushAnchor (anchor : Anchor) : TakesQuiet (pushAnchor anchor) := quiet_mode_bind fun _ => quiet_push _ _

theorem acceptIf_eq_ok {p : Char → Bool} {r s : Reader} {found : Option Char}
    (h : (acceptIf p).run r = .ok (found, s)) :
    (found = none ∧ s = r ∧ r.facing? p = none) ∨
      ∃ c, found = some c ∧ p c = true ∧ r.rest = .plain c :: s.rest ∧ r.Level s := by
  rw [run_acceptIf_eq] at h
  cases hfacing : r.facing? p with
  | none =>
    rw [hfacing] at h
    cases h
    exact .inl ⟨rfl, rfl, rfl⟩
  | some c =>
    rw [hfacing] at h
    obtain ⟨⟨token, t⟩, htake, hpure⟩ := bind_eq_ok.1 h
    cases hpure
    obtain ⟨rest, hrest⟩ := exists_of_facing? hfacing
    have hp : p c = true := by
      rw [Reader.facing?, hrest] at hfacing
      by_contra hp
      simp [hp] at hfacing
    rcases take_eq_ok htake with ⟨hnil, -⟩ | ⟨t, more, hmore, -, -, rfl⟩
    · rw [hrest] at hnil
      cases hnil
    · rw [hrest] at hmore
      cases hmore
      exact .inr ⟨c, rfl, hp, hrest, ⟨rfl, rfl, rfl⟩⟩

theorem quiet_acceptIf {p : Char → Bool} (hp : ∀ c, p c = true → Cursor.Quiet c) : TakesQuiet (acceptIf p) := by
  intro r found s h
  rcases acceptIf_eq_ok h with ⟨-, rfl, -⟩ | ⟨c, -, hc, hrest, hlevel⟩
  · exact .refl s
  · refine ⟨hlevel, [c], hrest, fun d hd => ?_⟩
    rw [List.mem_singleton.1 hd]
    exact hp c hc

theorem quiet_accept {c : Char} (hc : Cursor.Quiet c) : TakesQuiet (accept c) := by
  rw [accept_eq]
  refine quiet_bind (quiet_acceptIf fun d hd => ?_) fun _ => quiet_pure _
  rwa [of_decide_eq_true hd]

theorem quiet_takeWhile {p : Char → Bool} (hp : ∀ c, p c = true → Cursor.Quiet c) (limit : Nat) :
    TakesQuiet (takeWhile p limit) := by
  induction limit with
  | zero => exact quiet_pure _
  | succ limit ih =>
    refine quiet_bind (quiet_acceptIf hp) fun found => ?_
    split
    · exact quiet_bind ih fun _ => quiet_pure _
    · exact quiet_pure _

/-! ## Escapes -/

theorem quiet_of_isAsciiDigit {c : Char} (h : Text.isAsciiDigit c = true) : Cursor.Quiet c := by
  intro hc
  simp only [List.mem_cons, List.not_mem_nil, or_false] at hc
  rcases hc with rfl | rfl | rfl | rfl | rfl | rfl | rfl
  all_goals exact absurd h (by decide)

theorem quiet_of_isOctalDigit {c : Char} (h : isOctalDigit c = true) : Cursor.Quiet c := by
  intro hc
  simp only [List.mem_cons, List.not_mem_nil, or_false] at hc
  rcases hc with rfl | rfl | rfl | rfl | rfl | rfl | rfl
  all_goals exact absurd h (by decide)

theorem quiet_of_isHexDigit {c : Char} (h : isHexDigit c = true) : Cursor.Quiet c := by
  intro hc
  simp only [List.mem_cons, List.not_mem_nil, or_false] at hc
  rcases hc with rfl | rfl | rfl | rfl | rfl | rfl | rfl
  all_goals exact absurd h (by decide)

theorem quiet_checkLookBehind (n : Nat) : TakesQuiet (checkLookBehind n) := by
  intro r a s h
  rw [checkLookBehind_eq_ok h]
  exact .refl r

theorem quiet_pushBackref (n : Nat) : TakesQuiet (pushBackref n) := quiet_mode_bind fun _ => quiet_push _ _

theorem quiet_hexEscape (letter : Char) (count : Nat) : TakesQuiet (hexEscape letter count) :=
  quiet_bind (quiet_takeWhile (fun _ => quiet_of_isHexDigit) _) fun _ =>
    quiet_ite (quiet_never (never_failBack _ _)) (quiet_pure _)

theorem quiet_codeEscape? (letter : Char) : TakesQuiet (codeEscape? letter) := by
  unfold codeEscape?
  split
  · exact quiet_bind (quiet_hexEscape _ _) fun _ => quiet_pure _
  · exact quiet_bind (quiet_hexEscape _ _) fun _ => quiet_pure _
  · refine quiet_bind (quiet_takeWhile (fun _ => quiet_of_isHexDigit) _) fun digits => ?_
    exact quiet_ite (quiet_never (never_failBack _ _)) (quiet_ite (quiet_never (never_failBack _ _)) (quiet_pure _))
  · exact quiet_bind (quiet_never never_namedEscape) fun _ => quiet_pure _
  · exact quiet_pure _

theorem quiet_plainEscape (c : Char) : TakesQuiet (plainEscape c) :=
  quiet_ite (quiet_never (never_failBack _ _)) (quiet_pure _)

theorem quiet_octalEscape (digits : List Char) : TakesQuiet (octalEscape digits) :=
  quiet_ite (quiet_never (never_failBack _ _)) (quiet_pure _)

theorem quiet_setEscape (c : Char) : TakesQuiet (setEscape c) := by
  unfold setEscape
  split
  · exact quiet_pure _
  split
  · exact quiet_pure _
  refine quiet_bind (quiet_codeEscape? c) fun n => ?_
  split
  · exact quiet_pure _
  refine quiet_ite ?_ (quiet_bind (quiet_plainEscape c) fun _ => quiet_pure _)
  exact quiet_bind (quiet_takeWhile (fun _ => quiet_of_isOctalDigit) _) fun _ =>
    quiet_bind (quiet_octalEscape _) fun _ => quiet_pure _

theorem quiet_digitEscape (c : Char) : TakesQuiet (digitEscape c) := by
  unfold digitEscape
  extract_lets reference
  have hreference : ∀ digits, TakesQuiet (reference digits) := fun digits =>
    quiet_get_bind fun r => quiet_ite
      (quiet_ite (quiet_never (never_failBack _ _))
        (quiet_bind (quiet_checkLookBehind _) fun _ => quiet_pushBackref _))
      (quiet_never (never_failBack _ _))
  refine quiet_bind (quiet_acceptIf fun _ => quiet_of_isAsciiDigit) fun d => ?_
  split
  · exact hreference _
  refine quiet_ite (quiet_bind (quiet_acceptIf fun _ => quiet_of_isOctalDigit) fun e => ?_) (hreference _)
  split
  · exact quiet_bind (quiet_octalEscape _) fun _ => quiet_pushTest _
  · exact hreference _

theorem quiet_readEscape (c : Char) : TakesQuiet (readEscape c) := by
  unfold readEscape
  split
  · exact quiet_pushAnchor _
  split
  · exact quiet_pushTest _
  split
  · exact quiet_pushTest _
  refine quiet_bind (quiet_codeEscape? c) fun n => ?_
  split
  · exact quiet_pushTest _
  refine quiet_ite ?_ (quiet_ite (quiet_digitEscape c) (quiet_bind (quiet_plainEscape _) fun _ => quiet_pushTest _))
  exact quiet_bind (quiet_takeWhile (fun _ => quiet_of_isOctalDigit) _) fun _ => quiet_pushTest _

/-! ## Quantifiers -/

theorem quiet_repetitions (digits : List Char) : TakesQuiet (repetitions digits) := by
  unfold repetitions
  exact quiet_guard (never_throw _) (quiet_ite (quiet_never (never_throw _)) (quiet_pure _))

theorem quiet_readGreed : TakesQuiet readGreed :=
  quiet_bind (quiet_accept (by decide)) fun _ => quiet_ite (quiet_pure _)
    (quiet_bind (quiet_accept (by decide)) fun _ => quiet_ite (quiet_pure _) (quiet_pure _))

theorem quiet_quantify (start least : Nat) (most : Option Nat) : TakesQuiet (quantify start least most) := by
  intro r a s h
  rw [run_quantify_eq] at h
  split at h
  · cases h
  split at h
  · cases h
  · cases h
  obtain ⟨⟨greed, t⟩, hgreed, h⟩ := bind_eq_ok.1 h
  cases h
  exact (quiet_readGreed r greed t hgreed).trans (Reader.Level.quietly ⟨rfl, rfl, rfl⟩ rfl)

theorem quiet_quantifyBounds (start : Nat) (high : List Char) (least : Nat) :
    TakesQuiet (quantifyBounds start high least) :=
  quiet_ite (quiet_quantify _ _ _) (quiet_bind (quiet_repetitions _) fun _ =>
    quiet_ite (quiet_never (never_failAt _ _)) (quiet_quantify _ _ _))

/-- The same from any state that is reached from `here`, to which reading may go back. -/
def TakesQuietFrom (here : Reader) (x : Read α) : Prop :=
  ∀ r a s, here.Quietly r → x.run r = .ok (a, s) → here.Quietly s

theorem TakesQuiet.from {x : Read α} (h : TakesQuiet x) (here : Reader) : TakesQuietFrom here x :=
  fun r a s hr hrun => hr.trans (h r a s hrun)

theorem quietFrom_bind {here : Reader} {x : Read α} {f : α → Read β} (hx : TakesQuiet x)
    (hf : ∀ a, TakesQuietFrom here (f a)) : TakesQuietFrom here (x >>= f) := by
  intro r b s hr h
  obtain ⟨⟨a, t⟩, hxa, hfa⟩ := bind_eq_ok.1 h
  exact hf a t b s (hr.trans (hx r a t hxa)) hfa

theorem quietFrom_ite {here : Reader} {p : Prop} [Decidable p] {f g : Read α} (hf : TakesQuietFrom here f)
    (hg : TakesQuietFrom here g) : TakesQuietFrom here (if p then f else g) := by
  split_ifs
  · exact hf
  · exact hg

theorem quietFrom_closeBraces (start : Nat) (low high : List Char) (here : Reader) :
    TakesQuietFrom here (closeBraces start low high here) := by
  refine quietFrom_bind (quiet_accept (by decide)) fun close => quietFrom_ite (TakesQuiet.from ?_ here) ?_
  · exact quiet_ite (quiet_bind (quiet_pure _) fun _ => quiet_quantifyBounds _ _ _)
      (quiet_bind (quiet_repetitions _) fun _ => quiet_quantifyBounds _ _ _)
  · -- reading goes back to where it was
    intro r a s _ h
    exact quiet_pushTest _ here a s h

/-- what follows a brace that is not closed at once -/
def readBounds (start : Nat) (here : Reader) : Read Unit := do
  let low ← takeWhile Text.isAsciiDigit here.rest.length
  let high ← if ← accept ',' then takeWhile Text.isAsciiDigit here.rest.length else pure low
  closeBraces start low high here

theorem run_readBraces (start : Nat) (r : Reader) :
    (readBraces start).run r = if r.rest.head? = some (.plain '\x7d') then
      (pushTest (.code '\x7b'.toNat)).run r else (readBounds start r).run r := by
  show StateT.run (if r.rest.head? = some (.plain '\x7d') then _ else _ : Read Unit) r = _
  split_ifs
  · rfl
  · rfl

theorem quiet_readBraces (start : Nat) : TakesQuiet (readBraces start) := by
  have hdigits : ∀ limit, TakesQuiet (takeWhile Text.isAsciiDigit limit) :=
    quiet_takeWhile fun _ => quiet_of_isAsciiDigit
  have hbounds : ∀ here, TakesQuietFrom here (readBounds start here) := fun here =>
    quietFrom_bind (hdigits _) fun low => quietFrom_bind (quiet_accept (by decide)) fun comma =>
      quietFrom_ite (quietFrom_bind (hdigits _) fun high => quietFrom_closeBraces _ _ _ _)
        (quietFrom_bind (quiet_pure _) fun high => quietFrom_closeBraces _ _ _ _)
  intro r a s h
  rw [run_readBraces] at h
  split_ifs at h
  · exact quiet_pushTest _ r a s h
  · exact hbounds r r a s (.refl r) h

end UrlRouter.Regex
