/-
Reading the same text in another place.

An expression stands alone, or between parentheses within a longer one. Most reading operations only take tokens; such
an operation takes the same tokens in both places, as none of them looks for the closing parenthesis. It may be given
more fuel, and places for its error messages, in the second one.

Results:
- `Scans`: where the first operation succeeds, the second one does the same in front of a closing parenthesis.
- `scans_takeUntil`, `scans_codeEscape?`, `scans_readMembers`, `scans_flagsOn` and so on: one for each operation.
- `skipLine_scans`: a comment of verbose mode, which may run to the end of the text.
-/
import Mathlib.Tactic
import UrlRouter.Proofs.Regex.GroupNames

namespace UrlRouter.Regex

/-! ## Operations that only take tokens -/

/-- The text of `s` comes behind that of `r`, and a backslash that ends the text is still to come. -/
structure Reader.Before (r s : Reader) : Prop where
  shorter : s.rest.length ≤ r.rest.length
  back : r.rest.head? ≠ some .loneBackslash → .loneBackslash ∈ r.rest →
    s.rest.head? ≠ some .loneBackslash ∧ .loneBackslash ∈ s.rest

/-- `s` is the state `r` with some tokens taken. -/
structure Reader.Scanned (r s : Reader) : Prop where
  same : s = { r with rest := s.rest, position := s.position }
  before : r.Before s

variable {α β : Type} {tail : List Token}

/-- Where `f` succeeds, it only takes tokens, and `f'` takes the same ones where a parenthesis and `tail` stand behind
them. -/
def Scans (tail : List Token) (f f' : Read α) : Prop :=
  ∀ r a s, f.run r = .ok (a, s) → r.Scanned s ∧
    ∀ r' : Reader, r'.rest = r.rest ++ .plain ')' :: tail →
      ∃ position, f'.run r' = .ok (a, { r' with rest := s.rest ++ .plain ')' :: tail, position })

/-- an operation that always fails -/
def Never (f : Read α) : Prop := ∀ r a s, f.run r ≠ .ok (a, s)

theorem never_throw (e : CompileError) : Never (throw e : Read α) := fun _ _ _ h => by cases h

theorem never_failBack (problem : Problem) (back : Nat) : Never (failBack problem back : Read α) :=
  fun _ _ _ h => by cases h

theorem never_failHere (problem : Problem) : Never (failHere problem : Read α) := never_failBack problem 0

theorem never_failAt (problem : Problem) (position : Nat) : Never (failAt problem position : Read α) := never_throw _

theorem never_ite {c : Prop} [Decidable c] {f g : Read α} (hf : Never f) (hg : Never g) :
    Never (if c then f else g) := by
  split_ifs
  · exact hf
  · exact hg

theorem never_bind {x : Read α} {f : α → Read β} (hf : ∀ a, Never (f a)) : Never (x >>= f) := by
  intro r b s h
  obtain ⟨⟨a, t⟩, -, h⟩ := bind_eq_ok.1 h
  exact hf a t b s h

theorem never_first {x : Read α} {f : α → Read β} (hx : Never x) : Never (x >>= f) := by
  intro r b s h
  obtain ⟨⟨a, t⟩, hxa, -⟩ := bind_eq_ok.1 h
  exact hx r a t hxa

theorem guard_eq_ok {p : Prop} [Decidable p] {x : Read Unit} {next : Unit → Read β} (hx : Never x) {r s : Reader} {b : β}
    (h : (if p then x >>= next else next ()).run r = .ok (b, s)) : (next ()).run r = .ok (b, s) := by
  split_ifs at h
  · exact absurd h (never_first hx r b s)
  · exact h

theorem scans_never {f f' : Read α} (h : Never f) : Scans tail f f' := fun r a s hrun => absurd hrun (h r a s)

theorem Reader.Before.of_eq {r s : Reader} (h : s.rest = r.rest) : r.Before s := by
  refine ⟨h ▸ le_rfl, fun hhead hmem => ?_⟩
  rw [h]
  exact ⟨hhead, hmem⟩

theorem Reader.Before.trans {r s t : Reader} (h : r.Before s) (h' : s.Before t) : r.Before t :=
  ⟨h'.shorter.trans h.shorter, fun hhead hmem => h'.back (h.back hhead hmem).1 (h.back hhead hmem).2⟩

theorem Reader.Scanned.refl (r : Reader) : r.Scanned r := ⟨rfl, .of_eq rfl⟩

theorem Reader.Scanned.shorter {r s : Reader} (h : r.Scanned s) : s.rest.length ≤ r.rest.length := h.before.shorter

theorem Reader.Scanned.trans {r s t : Reader} (h : r.Scanned s) (h' : s.Scanned t) : r.Scanned t := by
  refine ⟨?_, h.before.trans h'.before⟩
  rw [h'.same, h.same]

theorem scans_pure (a : α) : Scans tail (pure a) (pure a) := by
  intro r b s h
  cases h
  exact ⟨.refl r, fun r' hr' => ⟨r'.position, by rw [← hr']; rfl⟩⟩

theorem scans_bind {x x' : Read α} {f f' : α → Read β} (hx : Scans tail x x') (hf : ∀ a, Scans tail (f a) (f' a)) :
    Scans tail (x >>= f) (x' >>= f') := by
  intro r b s h
  obtain ⟨⟨a, t⟩, hxa, hfa⟩ := bind_eq_ok.1 h
  obtain ⟨ht, hx'⟩ := hx r a t hxa
  obtain ⟨hs, hf'⟩ := hf a t b s hfa
  refine ⟨ht.trans hs, fun r' hr' => ?_⟩
  obtain ⟨p, hp⟩ := hx' r' hr'
  obtain ⟨q, hq⟩ := hf' { r' with rest := t.rest ++ .plain ')' :: tail, position := p } rfl
  exact ⟨q, bind_eq_ok.2 ⟨_, hp, hq⟩⟩

theorem scans_ite {c : Prop} [Decidable c] {f f' g g' : Read α} (hf : Scans tail f f') (hg : Scans tail g g') :
    Scans tail (if c then f else g) (if c then f' else g') := by
  split_ifs
  · exact hf
  · exact hg

/-- Something that is checked first. -/
theorem scans_guard {c : Prop} [Decidable c] {x x' : Read Unit} {next next' : Unit → Read β} (hx : Never x)
    (hnext : Scans tail (next ()) (next' ())) :
    Scans tail (if c then x >>= next else next ()) (if c then x' >>= next' else next' ()) :=
  scans_ite (scans_bind (scans_never hx) fun _ => hnext) hnext

/-- What is done with the state may only rely on how many tokens are left. -/
theorem scans_get_bind {f f' : Reader → Read β}
    (hf : ∀ r r' : Reader, r.rest.length ≤ r'.rest.length → Scans tail (f r) (f' r')) :
    Scans tail (get >>= f) (get >>= f') := by
  intro r b s h
  refine ⟨(hf r r le_rfl r b s h).1, fun r' hr' => ?_⟩
  exact (hf r r' (by rw [hr', List.length_append]; omega) r b s h).2 r' hr'

/-! ## Tokens -/

theorem take_eq_ok {r s : Reader} {a : Option Token} (h : take?.run r = .ok (a, s)) :
    (r.rest = [] ∧ a = none ∧ s = r) ∨ ∃ t rest, r.rest = t :: rest ∧ rest.head? ≠ some .loneBackslash ∧ a = some t ∧
      s = { r with rest, position := r.position + t.length } := by
  unfold take? at h
  rw [StateT.run_bind] at h
  simp only [StateT.run_get, pure_bind] at h
  cases hrest : r.rest with
  | nil =>
    rw [hrest] at h
    cases h
    exact .inl ⟨rfl, rfl, rfl⟩
  | cons t rest =>
    refine .inr ⟨t, rest, rfl, ?_⟩
    rw [hrest] at h
    obtain ⟨⟨next, r₁⟩, hcheck, h⟩ := bind_eq_ok.1 h
    obtain ⟨found, hfound, hpair⟩ := bind_eq_ok.1 hcheck
    cases hpair
    cases h
    refine ⟨fun hback => ?_, rfl, checkNext_eq_ok hfound⟩
    obtain ⟨more, rfl⟩ := List.head?_eq_some_iff.1 hback
    cases hfound

theorem run_take_cons {r : Reader} {t : Token} {rest : List Token} (hrest : r.rest = t :: rest)
    (hback : rest.head? ≠ some .loneBackslash) :
    take?.run r = .ok (some t, { r with rest, position := r.position + t.length }) := by
  have hcheck : checkNext { r with rest, position := r.position + t.length } =
      .ok { r with rest, position := r.position + t.length } := by
    unfold checkNext
    split
    · rename_i heq
      rw [show rest = _ from heq] at hback
      exact absurd rfl hback
    · rfl
  unfold take?
  simp only [StateT.run_bind, StateT.run_get, pure_bind, hrest, StateT.run_set]
  show ((liftM (checkNext _) : Read Reader).run r >>= _) = _
  rw [hcheck]
  rfl

/-- A token that is taken is taken in the other place, too. -/
theorem take_scanned {r s : Reader} {t : Token} (h : take?.run r = .ok (some t, s)) :
    r.Scanned s ∧ s.rest.length < r.rest.length ∧
      ∀ r' : Reader, r'.rest = r.rest ++ .plain ')' :: tail →
        ∃ position, take?.run r' = .ok (some t, { r' with rest := s.rest ++ .plain ')' :: tail, position }) := by
  rcases take_eq_ok h with ⟨-, hnone, -⟩ | ⟨t', rest, hrest, hback, ht, rfl⟩
  · cases hnone
  · cases ht
    have hlt : rest.length < r.rest.length := by rw [hrest]; exact Nat.lt_succ_self _
    have hbefore : r.Before { r with rest, position := r.position + t.length } := by
      refine ⟨hlt.le, fun hhead hmem => ⟨hback, ?_⟩⟩
      rw [hrest] at hhead hmem
      rcases List.mem_cons.1 hmem with rfl | hmem
      · exact absurd rfl hhead
      · exact hmem
    refine ⟨⟨rfl, hbefore⟩, hlt, fun r' hr' => ⟨r'.position + t.length, run_take_cons ?_ ?_⟩⟩
    · rw [hr', hrest]
      rfl
    · cases rest with
      | nil => simp
      | cons u rest => exact hback

/-- Something that is done with the next token and fails where there is none. -/
theorem scans_take_bind {f f' : Option Token → Read β} (hnone : Never (f none))
    (hsome : ∀ t, Scans tail (f (some t)) (f' (some t))) : Scans tail (take? >>= f) (take? >>= f') := by
  intro r b s h
  obtain ⟨⟨a, t⟩, htake, hf⟩ := bind_eq_ok.1 h
  cases a with
  | none => exact absurd hf (hnone t b s)
  | some token =>
    obtain ⟨ht, -, htake'⟩ := @take_scanned tail _ _ _ htake
    obtain ⟨hs, hf'⟩ := hsome token t b s hf
    refine ⟨ht.trans hs, fun r' hr' => ?_⟩
    obtain ⟨p, hp⟩ := htake' r' hr'
    obtain ⟨q, hq⟩ := hf' { r' with rest := t.rest ++ .plain ')' :: tail, position := p } rfl
    exact ⟨q, bind_eq_ok.2 ⟨_, hp, hq⟩⟩

/-- the plain character that comes next, if it is of the class -/
def Reader.facing? (r : Reader) (p : Char → Bool) : Option Char :=
  match r.rest.head? with
  | some (.plain c) => if p c then some c else none
  | _ => none

theorem run_acceptIf_eq (p : Char → Bool) (r : Reader) :
    (acceptIf p).run r =
      match r.facing? p with
      | some c => (do let _ ← take?; return some c : Read (Option Char)).run r
      | none => .ok (none, r) := by
  unfold Reader.facing?
  show StateT.run (match r.rest.head? with | some (.plain c) => _ | _ => _ : Read (Option Char)) r = _
  split
  · rename_i c hc
    split_ifs <;> rfl
  · rfl

/-- The closing parenthesis is no character of the class, so that the text ends where it did. -/
theorem facing?_append {p : Char → Bool} (hp : p ')' = false) {r r' : Reader}
    (hr' : r'.rest = r.rest ++ .plain ')' :: tail) : r'.facing? p = r.facing? p := by
  unfold Reader.facing?
  rw [hr']
  cases r.rest with
  | nil => simp [hp]
  | cons t rest => rfl

theorem exists_of_facing? {p : Char → Bool} {r : Reader} {c : Char} (h : r.facing? p = some c) :
    ∃ rest, r.rest = .plain c :: rest := by
  unfold Reader.facing? at h
  split at h
  · rename_i d hd
    split_ifs at h
    cases h
    exact List.head?_eq_some_iff.1 hd
  · cases h

theorem acceptIf_takes {p : Char → Bool} {r t : Reader} {c : Char} (h : (acceptIf p).run r = .ok (some c, t)) :
    t.rest.length < r.rest.length := by
  rw [run_acceptIf_eq] at h
  cases hfacing : r.facing? p with
  | none =>
    rw [hfacing] at h
    cases h
  | some d =>
    rw [hfacing] at h
    obtain ⟨⟨token, u⟩, htake, hpure⟩ := bind_eq_ok.1 h
    cases hpure
    obtain ⟨rest, hrest⟩ := exists_of_facing? hfacing
    rcases take_eq_ok htake with ⟨hnil, -⟩ | ⟨_, more, hmore, -, -, rfl⟩
    · rw [hrest] at hnil
      cases hnil
    · rw [hmore]
      exact Nat.lt_succ_self _

theorem scans_acceptIf {p : Char → Bool} (hp : p ')' = false) : Scans tail (acceptIf p) (acceptIf p) := by
  intro r b s h
  rw [run_acceptIf_eq] at h
  cases hfacing : r.facing? p with
  | none =>
    rw [hfacing] at h
    cases h
    refine ⟨.refl r, fun r' hr' => ⟨r'.position, ?_⟩⟩
    rw [run_acceptIf_eq, facing?_append hp hr', hfacing, ← hr']
  | some c =>
    rw [hfacing] at h
    obtain ⟨⟨token, t⟩, htake, hpure⟩ := bind_eq_ok.1 h
    cases hpure
    obtain ⟨rest, hrest⟩ := exists_of_facing? hfacing
    rcases take_eq_ok htake with ⟨hnil, -⟩ | ⟨_, _, -, -, rfl, -⟩
    · rw [hrest] at hnil
      cases hnil
    obtain ⟨ht, -, htake'⟩ := @take_scanned tail _ _ _ htake
    refine ⟨ht, fun r' hr' => ?_⟩
    obtain ⟨position, hp'⟩ := htake' r' hr'
    refine ⟨position, ?_⟩
    rw [run_acceptIf_eq, facing?_append hp hr', hfacing]
    exact bind_eq_ok.2 ⟨_, hp', rfl⟩

theorem accept_eq (c : Char) : accept c = do return (← acceptIf (· = c)).isSome := by
  funext r
  show (accept c).run r = (acceptIf (· = c)).run r >>= _
  rw [run_acceptIf_eq]
  show StateT.run (if r.rest.head? = some (.plain c) then _ else _ : Read Bool) r = _
  by_cases hhead : r.rest.head? = some (.plain c)
  · have hfacing : r.facing? (· = c) = some c := by simp [Reader.facing?, hhead]
    rw [if_pos hhead, hfacing]
    simp only [StateT.run_bind, bind_assoc]
    rfl
  · have hfacing : r.facing? (· = c) = none := by
      unfold Reader.facing?
      split
      · rename_i d hd
        rw [if_neg]
        intro hdc
        rw [hd, of_decide_eq_true hdc] at hhead
        exact hhead rfl
      · rfl
    rw [if_neg hhead, hfacing]
    rfl

theorem scans_accept {c : Char} (hc : c ≠ ')') : Scans tail (accept c) (accept c) := by
  rw [accept_eq]
  exact scans_bind (scans_acceptIf (decide_eq_false (Ne.symm hc))) fun _ => scans_pure _

/-- Characters of a class are taken with so much fuel that the end of the text is met first. -/
theorem takeWhile_scanned {p : Char → Bool} (hp : p ')' = false) (limit limit' : Nat) (hle : limit ≤ limit') :
    ∀ (r : Reader) (a : List Char) (s : Reader), limit = limit' ∨ r.rest.length ≤ limit →
      (takeWhile p limit).run r = .ok (a, s) → r.Scanned s ∧
        ∀ r' : Reader, r'.rest = r.rest ++ .plain ')' :: tail →
          ∃ position, (takeWhile p limit').run r' = .ok (a, { r' with rest := s.rest ++ .plain ')' :: tail, position }) := by
  induction limit generalizing limit' with
  | zero =>
    intro r a s hfuel h
    cases h
    refine ⟨.refl r, fun r' hr' => ⟨r'.position, ?_⟩⟩
    rw [← hr']
    cases limit' with
    | zero => rfl
    | succ limit' =>
      have hnil : r.rest = [] := by
        rcases hfuel with hfuel | hfuel
        · cases hfuel
        · exact List.length_eq_zero_iff.1 (Nat.le_zero.1 hfuel)
      have hfacing : r'.facing? p = none := by
        rw [facing?_append hp hr']
        simp [Reader.facing?, hnil]
      show ((acceptIf p).run r' >>= _) = _
      rw [run_acceptIf_eq, hfacing]
      rfl
  | succ limit ih =>
    intro r a s hfuel h
    obtain ⟨limit', rfl⟩ : ∃ l, limit' = l + 1 := ⟨limit' - 1, by omega⟩
    obtain ⟨⟨found, t⟩, haccept, h⟩ := bind_eq_ok.1 h
    obtain ⟨ht, haccept'⟩ := @scans_acceptIf tail _ hp r found t haccept
    cases found with
    | none =>
      cases h
      refine ⟨ht, fun r' hr' => ?_⟩
      obtain ⟨position, hp'⟩ := haccept' r' hr'
      exact ⟨position, bind_eq_ok.2 ⟨_, hp', rfl⟩⟩
    | some c =>
      have hlt := acceptIf_takes haccept
      obtain ⟨⟨rest, u⟩, hrest, hpure⟩ := bind_eq_ok.1 h
      cases hpure
      obtain ⟨hu, hrest'⟩ := ih limit' (by omega) t rest s (by omega) hrest
      refine ⟨ht.trans hu, fun r' hr' => ?_⟩
      obtain ⟨position, hp'⟩ := haccept' r' hr'
      obtain ⟨position', hp''⟩ := hrest' { r' with rest := t.rest ++ .plain ')' :: tail, position } rfl
      exact ⟨position', bind_eq_ok.2 ⟨_, hp', bind_eq_ok.2 ⟨_, hp'', rfl⟩⟩⟩

theorem scans_takeWhile {p : Char → Bool} (hp : p ')' = false) (limit : Nat) :
    Scans tail (takeWhile p limit) (takeWhile p limit) := fun r a s =>
  takeWhile_scanned hp limit limit le_rfl r a s (.inl rfl)

theorem scans_takeUntil (terminator : Char) (what : String) (taken : List Char) {limit limit' : Nat}
    (hle : limit ≤ limit') :
    Scans tail (takeUntil terminator what taken limit) (takeUntil terminator what taken limit') := by
  induction limit generalizing taken limit' with
  | zero => exact scans_never (never_failHere _)
  | succ limit ih =>
    obtain ⟨limit', rfl⟩ : ∃ l, limit' = l + 1 := ⟨limit' - 1, by omega⟩
    refine scans_take_bind (never_ite (never_failHere _) (never_failBack _ _)) fun t => ?_
    refine scans_ite (scans_ite (scans_never (never_failBack _ _)) (scans_pure _)) (ih _ (by omega))

theorem scans_nameUntil (terminator : Char) (what : String) :
    Scans tail (nameUntil terminator what) (nameUntil terminator what) :=
  scans_get_bind fun _ _ hle => scans_takeUntil _ _ _ (by omega)

/-! ## Escapes -/

theorem scans_hexEscape (letter : Char) (count : Nat) : Scans tail (hexEscape letter count) (hexEscape letter count) :=
  scans_bind (scans_takeWhile (by decide) _) fun _ => scans_ite (scans_never (never_failBack _ _)) (scans_pure _)

theorem never_namedEscape : Never namedEscape :=
  never_bind fun _ => never_ite (never_bind fun _ => never_failBack _ _) (never_failHere _)

theorem scans_codeEscape? (letter : Char) : Scans tail (codeEscape? letter) (codeEscape? letter) := by
  unfold codeEscape?
  split
  · exact scans_bind (scans_hexEscape _ _) fun _ => scans_pure _
  · exact scans_bind (scans_hexEscape _ _) fun _ => scans_pure _
  · refine scans_bind (scans_takeWhile (by decide) _) fun digits => ?_
    exact scans_ite (scans_never (never_failBack _ _)) (scans_ite (scans_never (never_failBack _ _)) (scans_pure _))
  · exact scans_bind (scans_never never_namedEscape) fun _ => scans_pure _
  · exact scans_pure _

theorem scans_plainEscape (c : Char) : Scans tail (plainEscape c) (plainEscape c) :=
  scans_ite (scans_never (never_failBack _ _)) (scans_pure _)

theorem scans_octalEscape (digits : List Char) : Scans tail (octalEscape digits) (octalEscape digits) :=
  scans_ite (scans_never (never_failBack _ _)) (scans_pure _)

theorem scans_setEscape (c : Char) : Scans tail (setEscape c) (setEscape c) := by
  unfold setEscape
  split
  · exact scans_pure _
  split
  · exact scans_pure _
  refine scans_bind (scans_codeEscape? c) fun n => ?_
  split
  · exact scans_pure _
  refine scans_ite ?_ (scans_bind (scans_plainEscape c) fun _ => scans_pure _)
  exact scans_bind (scans_takeWhile (by decide) _) fun _ => scans_bind (scans_octalEscape _) fun _ => scans_pure _

/-! ## Sets -/

theorem scans_setMember (t : Token) : Scans tail (setMember t) (setMember t) := by
  cases t with
  | plain c => exact scans_pure _
  | escaped c => exact scans_setEscape c
  | loneBackslash => exact scans_never (never_failHere _)

theorem scans_readMembers (start start' : Nat) (members : List Member) {limit limit' : Nat} (hle : limit ≤ limit') :
    Scans tail (readMembers start members limit) (readMembers start' members limit') := by
  induction limit generalizing members limit' with
  | zero => exact scans_never (never_failAt _ _)
  | succ limit ih =>
    obtain ⟨limit', rfl⟩ : ∃ l, limit' = l + 1 := ⟨limit' - 1, by omega⟩
    have hnext : ∀ members, Scans tail (readMembers start members limit) (readMembers start' members limit') :=
      fun members => ih members (by omega)
    refine scans_take_bind (never_failAt _ _) fun first => scans_ite (scans_pure _) ?_
    refine scans_bind (scans_setMember first) fun low => scans_bind (scans_accept (by decide)) fun dash => ?_
    refine scans_ite (scans_take_bind (never_failAt _ _) fun last => scans_ite (scans_pure _) ?_) (hnext _)
    refine scans_bind (scans_setMember last) fun high => ?_
    split
    · exact scans_ite (scans_never (never_failBack _ _)) (hnext _)
    · exact scans_never (never_failBack _ _)

/-! ## Options and comments -/

theorem never_badFlag (t : Token) (expected : String) : Never (badFlag t expected : Read α) := by
  cases t <;> exact never_failBack _ _

theorem scans_flagsOn (on : List Char) (c : Char) {limit limit' : Nat} (hle : limit ≤ limit') :
    Scans tail (flagsOn on c limit) (flagsOn on c limit') := by
  induction limit generalizing on c limit' with
  | zero => exact scans_never (never_failHere _)
  | succ limit ih =>
    obtain ⟨limit', rfl⟩ : ∃ l, limit' = l + 1 := ⟨limit' - 1, by omega⟩
    unfold flagsOn
    refine scans_guard (never_failHere _) ?_
    refine scans_guard (never_failHere _) ?_
    refine scans_take_bind (never_failHere _) fun t => ?_
    cases t with
    | plain d =>
      exact scans_ite (scans_pure _) (scans_ite (ih _ _ (by omega)) (scans_never (never_badFlag _ _)))
    | escaped d => exact scans_never (never_badFlag _ _)
    | loneBackslash => exact scans_never (never_badFlag _ _)

theorem scans_flagsOff (off : List Char) (c : Char) {limit limit' : Nat} (hle : limit ≤ limit') :
    Scans tail (flagsOff off c limit) (flagsOff off c limit') := by
  induction limit generalizing off c limit' with
  | zero => exact scans_never (never_failHere _)
  | succ limit ih =>
    obtain ⟨limit', rfl⟩ : ∃ l, limit' = l + 1 := ⟨limit' - 1, by omega⟩
    unfold flagsOff
    refine scans_guard (never_failHere _) ?_
    refine scans_take_bind (never_failHere _) fun t => ?_
    cases t with
    | plain d =>
      exact scans_ite (scans_pure _) (scans_ite (ih _ _ (by omega)) (scans_never (never_badFlag _ _)))
    | escaped d => exact scans_never (never_badFlag _ _)
    | loneBackslash => exact scans_never (never_badFlag _ _)

theorem scans_skipComment (start start' : Nat) {limit limit' : Nat} (hle : limit ≤ limit') :
    Scans tail (skipComment start limit) (skipComment start' limit') := by
  induction limit generalizing limit' with
  | zero => exact scans_never (never_failAt _ _)
  | succ limit ih =>
    obtain ⟨limit', rfl⟩ : ∃ l, limit' = l + 1 := ⟨limit' - 1, by omega⟩
    exact scans_take_bind (never_failAt _ _) fun t => scans_ite (scans_pure _) (ih (by omega))

theorem skipLine_scanned (limit : Nat) :
    ∀ (r : Reader) (a : Unit) (s : Reader), (skipLine limit).run r = .ok (a, s) → r.Scanned s := by
  induction limit with
  | zero =>
    intro r a s h
    cases h
    exact .refl r
  | succ limit ih =>
    intro r a s h
    obtain ⟨⟨found, t⟩, htake, h⟩ := bind_eq_ok.1 h
    cases found with
    | none =>
      cases h
      rcases take_eq_ok htake with ⟨-, -, rfl⟩ | ⟨_, _, _, _, hnone, _⟩
      · exact .refl s
      · cases hnone
    | some token =>
      obtain ⟨ht, -, -⟩ := @take_scanned [] _ _ _ htake
      simp only at h
      split_ifs at h
      · cases h
        exact ht
      · exact ht.trans (ih t a s h)

/-- A comment of verbose mode takes the same tokens unless the text ends with it. -/
theorem skipLine_scans {limit limit' : Nat} (hle : limit ≤ limit') :
    ∀ (r : Reader) (a : Unit) (s : Reader), r.rest.length < limit → s.rest ≠ [] → (skipLine limit).run r = .ok (a, s) →
      r.Scanned s ∧ ∀ r' : Reader, r'.rest = r.rest ++ .plain ')' :: tail →
        ∃ position, (skipLine limit').run r' = .ok (a, { r' with rest := s.rest ++ .plain ')' :: tail, position }) := by
  induction limit generalizing limit' with
  | zero => exact fun r a s hfuel => absurd hfuel (Nat.not_lt_zero _)
  | succ limit ih =>
    intro r a s hfuel hs h
    obtain ⟨limit', rfl⟩ : ∃ l, limit' = l + 1 := ⟨limit' - 1, by omega⟩
    obtain ⟨⟨found, t⟩, htake, h⟩ := bind_eq_ok.1 h
    cases found with
    | none =>
      cases h
      rcases take_eq_ok htake with ⟨hnil, -, rfl⟩ | ⟨_, _, _, _, hnone, _⟩
      · exact absurd hnil hs
      · cases hnone
    | some token =>
      obtain ⟨ht, hlt, htake'⟩ := @take_scanned tail _ _ _ htake
      by_cases hnewline : token = .plain '\n'
      · simp only [hnewline, if_true] at h
        cases h
        refine ⟨ht, fun r' hr' => ?_⟩
        obtain ⟨position, hp⟩ := htake' r' hr'
        refine ⟨position, bind_eq_ok.2 ⟨_, hp, ?_⟩⟩
        simp only [hnewline, if_true]
        rfl
      · simp only [hnewline, if_false] at h
        obtain ⟨hs', hskip⟩ := ih (Nat.le_of_succ_le_succ hle) t a s (by omega) hs h
        refine ⟨ht.trans hs', fun r' hr' => ?_⟩
        obtain ⟨position, hp⟩ := htake' r' hr'
        obtain ⟨position', hp'⟩ := hskip { r' with rest := t.rest ++ .plain ')' :: tail, position } rfl
        refine ⟨position', bind_eq_ok.2 ⟨_, hp, ?_⟩⟩
        simp only [hnewline, if_false]
        exact hp'

theorem scans_repetitions (digits : List Char) : Scans tail (repetitions digits) (repetitions digits) := by
  unfold repetitions
  refine scans_guard (never_throw _) ?_
  exact scans_ite (scans_never (never_throw _)) (scans_pure _)

end UrlRouter.Regex
