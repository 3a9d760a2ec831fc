/-
Braces that match, and the depth at which the scanners of a pattern read it.

A pattern is scanned three times: the chain is split off, the chain is cut at its semicolons, and each part is cut into
pieces. Each scanner counts braces by itself. `depthStep` is the one count they share: a scanner that is inside braces
reads on, and outside braces it stops at the characters that are not plain for it. The chain is cut with a depth that
may fall below zero, and then no bracket and no semicolon counts any more; parts whose braces match never get there.

Results:
- `balanced_iff`: braces match when the depth comes back to zero and never falls below.
- `splitChain_eq_ok`, `splitChain_append`: the chain starts at the first bracket outside braces.
- `join_of_cutChain`, `plain_of_cutChain`, `cutChain_intercalate`: a chain is cut at its semicolons outside braces.
- `readChain_eq_ok`, `readChain_intercalate`: what a chain is that can be read, and the chains that can.
-/
import Mathlib.Tactic
import UrlRouter.Pattern.Layout
import UrlRouter.Proofs.Except
import UrlRouter.Proofs.Text.Blanks

namespace UrlRouter.Pattern

/-! ## Depth -/

def isBrace (c : Char) : Bool := isTokenOpen c || isTokenClose c

/-- a text in which every brace has its partner -/
inductive Balanced : List Char → Prop
  | nil : Balanced []
  | other {c : Char} {rest : List Char} (hc : isBrace c = false) (hrest : Balanced rest) : Balanced (c :: rest)
  | braces {inner rest : List Char} (hinner : Balanced inner) (hrest : Balanced rest) :
      Balanced ('\x7b' :: (inner ++ '\x7d' :: rest))

/-- The depth after one more character. Outside braces nothing can be closed and only the `plain` characters are read
on. -/
def depthStep (plain : Char → Bool) (depth : Nat) (c : Char) : Option Nat :=
  if isTokenOpen c then some (depth + 1)
  else if isTokenClose c then (if depth = 0 then none else some (depth - 1))
  else if depth = 0 && !plain c then none
  else some depth

def depthAfter (plain : Char → Bool) (depth : Nat) (text : List Char) : Option Nat := text.foldlM (depthStep plain) depth

/-- No character but a brace means anything. -/
def anywhere (_ : Char) : Bool := true

/-- A bracket outside braces ends the base. -/
def inBase (c : Char) : Bool := c ≠ '['

/-- Brackets and semicolons outside braces do not belong to a segment. -/
def inSegment (c : Char) : Bool := c ≠ '[' && c ≠ ']' && c ≠ ';'

theorem brace_cases (c : Char) : c = '\x7b' ∨ c = '\x7d' ∨ isBrace c = false := by
  simp only [isBrace, isTokenOpen, isTokenClose, Bool.or_eq_false_iff, decide_eq_false_iff_not]
  tauto

theorem not_brace {c : Char} (h : isBrace c = false) : isTokenOpen c = false ∧ isTokenClose c = false :=
  Bool.or_eq_false_iff.1 h

theorem depthStep_eq_some {plain : Char → Bool} {d e : Nat} {c : Char} :
    depthStep plain d c = some e ↔
      (isTokenOpen c = true ∧ e = d + 1) ∨
      (isTokenOpen c = false ∧ isTokenClose c = true ∧ d = e + 1) ∨
      (isBrace c = false ∧ (d = 0 → plain c = true) ∧ e = d) := by
  unfold depthStep isBrace
  cases isTokenOpen c <;> cases isTokenClose c <;> simp <;> grind

theorem depthStep_other {plain : Char → Bool} {d : Nat} {c : Char} (hc : isBrace c = false)
    (hplain : d = 0 → plain c = true) : depthStep plain d c = some d :=
  depthStep_eq_some.2 (.inr (.inr ⟨hc, hplain, rfl⟩))

@[simp] theorem depthStep_open {plain : Char → Bool} (d : Nat) : depthStep plain d '\x7b' = some (d + 1) := rfl

@[simp] theorem depthStep_close {plain : Char → Bool} (d : Nat) : depthStep plain (d + 1) '\x7d' = some d := rfl

section

variable {plain : Char → Bool} {d e : Nat} {text : List Char}

theorem depthAfter_cons {c : Char} {rest : List Char} :
    depthAfter plain d (c :: rest) = some e ↔ ∃ m, depthStep plain d c = some m ∧ depthAfter plain m rest = some e := by
  rw [depthAfter, List.foldlM_cons]
  exact Option.bind_eq_some_iff

theorem depthAfter_append {before after : List Char} :
    depthAfter plain d (before ++ after) = some e ↔
      ∃ m, depthAfter plain d before = some m ∧ depthAfter plain m after = some e := by
  rw [depthAfter, List.foldlM_append]
  exact Option.bind_eq_some_iff

/-- What is read on somewhere is read on where only braces count. -/
theorem depthAfter_anywhere (h : depthAfter plain d text = some e) : depthAfter anywhere d text = some e := by
  induction text generalizing d with
  | nil => exact h
  | cons c rest ih =>
    obtain ⟨m, hstep, hrest⟩ := depthAfter_cons.1 h
    have hany : depthStep anywhere d c = some m := by
      rcases depthStep_eq_some.1 hstep with hcase | hcase | ⟨hbrace, -, rfl⟩
      · exact depthStep_eq_some.2 (.inl hcase)
      · exact depthStep_eq_some.2 (.inr (.inl hcase))
      · exact depthStep_other hbrace fun _ => rfl
    exact depthAfter_cons.2 ⟨m, hany, ih hrest⟩

/-- Outside braces a text without any is read on just when all of it is plain. -/
theorem depthAfter_of_no_brace (hbrace : ∀ c ∈ text, isBrace c = false) :
    depthAfter plain 0 text = some e ↔ e = 0 ∧ ∀ c ∈ text, plain c = true := by
  induction text with
  | nil => exact ⟨fun h => ⟨(Option.some.inj h).symm, by simp⟩, fun h => h.1 ▸ rfl⟩
  | cons c rest ih =>
    have hstep : ∀ m, depthStep plain 0 c = some m ↔ plain c = true ∧ m = 0 := by
      intro m
      have hc := hbrace c List.mem_cons_self
      rw [depthStep_eq_some]
      simp [not_brace hc, hc]
    rw [depthAfter_cons, List.forall_mem_cons]
    simp only [hstep]
    constructor
    · rintro ⟨m, ⟨hplain, rfl⟩, hrest⟩
      obtain ⟨rfl, hall⟩ := (ih fun d hd => hbrace d (List.mem_cons_of_mem c hd)).1 hrest
      exact ⟨rfl, hplain, hall⟩
    · rintro ⟨rfl, hplain, hall⟩
      exact ⟨0, ⟨hplain, rfl⟩, (ih fun d hd => hbrace d (List.mem_cons_of_mem c hd)).2 ⟨rfl, hall⟩⟩

end

/-! ## Balanced texts -/

section

variable {plain : Char → Bool} {text : List Char}

/-- A balanced text comes back to the depth it started from. -/
theorem Balanced.depthAfter_eq {d : Nat} (h : Balanced text) (hplain : d = 0 → ∀ c ∈ text, plain c = true) :
    depthAfter plain d text = some d := by
  induction h generalizing d with
  | nil => rfl
  | @other c rest hc _ ih =>
    exact depthAfter_cons.2 ⟨d, depthStep_other hc fun h0 => hplain h0 c List.mem_cons_self,
      ih fun h0 x hx => hplain h0 x (List.mem_cons_of_mem c hx)⟩
  | @braces inner rest _ _ ihinner ihrest =>
    have hclosed : depthAfter plain (d + 1) ('\x7d' :: rest) = some d :=
      depthAfter_cons.2 ⟨d, depthStep_close d, ihrest fun h0 x hx => hplain h0 x (by simp [hx])⟩
    exact depthAfter_cons.2 ⟨d + 1, depthStep_open d,
      depthAfter_append.2 ⟨d + 1, ihinner fun h0 => absurd h0 (Nat.succ_ne_zero d), hclosed⟩⟩

/-- Braces around a balanced text are read on everywhere. -/
theorem Balanced.depthAfter_braces {d : Nat} (h : Balanced text) :
    depthAfter plain d ('\x7b' :: (text ++ ['\x7d'])) = some d :=
  depthAfter_cons.2 ⟨d + 1, depthStep_open d,
    depthAfter_append.2 ⟨d + 1, h.depthAfter_eq fun h0 => absurd h0 (Nat.succ_ne_zero d),
      depthAfter_cons.2 ⟨d, depthStep_close d, rfl⟩⟩⟩

theorem balanced_of_no_brace (h : ∀ c ∈ text, isBrace c = false) : Balanced text := by
  induction text with
  | nil => exact .nil
  | cons c rest ih => exact .other (h c List.mem_cons_self) (ih fun d hd => h d (List.mem_cons_of_mem c hd))

theorem eq_of_isTokenOpen {c : Char} (h : isTokenOpen c = true) : c = '\x7b' := by simpa [isTokenOpen] using h

theorem eq_of_isTokenClose {c : Char} (h : isTokenClose c = true) : c = '\x7d' := by simpa [isTokenClose] using h

/-- The brace that closes the innermost open one ends a balanced text. -/
theorem exists_close {d : Nat} (h : depthAfter anywhere (d + 1) text = some 0) :
    ∃ inner after, text = inner ++ '\x7d' :: after ∧ Balanced inner ∧ depthAfter anywhere d after = some 0 := by
  induction hlength : text.length using Nat.strong_induction_on generalizing text d with
  | _ n ih =>
    cases text with
    | nil => cases h
    | cons c rest =>
      have hshort : rest.length < n := by simp [← hlength]
      obtain ⟨m, hstep, hrest⟩ := depthAfter_cons.1 h
      rcases depthStep_eq_some.1 hstep with ⟨hopen, rfl⟩ | ⟨-, hclose, hm⟩ | ⟨hbrace, -, rfl⟩
      · -- an inner pair opens: it is closed first, and then the pair that was open before
        obtain ⟨inner, after, rfl, hinner, hafter⟩ := ih _ hshort hrest rfl
        have hshorter : after.length < n := by
          rw [List.length_append, List.length_cons] at hshort
          omega
        obtain ⟨inner', after', rfl, hinner', hafter'⟩ := ih _ hshorter hafter rfl
        obtain rfl := eq_of_isTokenOpen hopen
        exact ⟨'\x7b' :: (inner ++ '\x7d' :: inner'), after', by simp, .braces hinner hinner', hafter'⟩
      · obtain rfl := eq_of_isTokenClose hclose
        obtain rfl := Nat.succ.inj hm
        exact ⟨[], rest, rfl, .nil, hrest⟩
      · obtain ⟨inner, after, rfl, hinner, hafter⟩ := ih _ hshort hrest rfl
        exact ⟨c :: inner, after, rfl, .other hbrace hinner, hafter⟩

theorem balanced_of_depthAfter (h : depthAfter anywhere 0 text = some 0) : Balanced text := by
  induction hlength : text.length using Nat.strong_induction_on generalizing text with
  | _ n ih =>
    cases text with
    | nil => exact .nil
    | cons c rest =>
      have hshort : rest.length < n := by simp [← hlength]
      obtain ⟨m, hstep, hrest⟩ := depthAfter_cons.1 h
      rcases depthStep_eq_some.1 hstep with ⟨hopen, rfl⟩ | ⟨-, -, hm⟩ | ⟨hbrace, -, rfl⟩
      · obtain ⟨inner, after, rfl, hinner, hafter⟩ := exists_close hrest
        obtain rfl := eq_of_isTokenOpen hopen
        refine .braces hinner (ih _ ?_ hafter rfl)
        rw [List.length_append, List.length_cons] at hshort
        omega
      · cases hm
      · exact .other hbrace (ih _ hshort hrest rfl)

/-- Braces match when the depth comes back to zero and never falls below. -/
theorem balanced_iff : Balanced text ↔ depthAfter anywhere 0 text = some 0 :=
  ⟨fun h => h.depthAfter_eq fun _ _ _ => rfl, balanced_of_depthAfter⟩

end

/-! ## Blanks around a text -/

theorem isBrace_of_blank {c : Char} (h : Text.isBlank c = true) : isBrace c = false := by
  rcases brace_cases c with rfl | rfl | hc
  · exact absurd h (by decide)
  · exact absurd h (by decide)
  · exact hc

theorem inBase_of_blank {c : Char} (h : Text.isBlank c = true) : inBase c = true := by
  have hc : c ≠ '[' := by
    rintro rfl
    exact absurd h (by decide)
  simp [inBase, hc]

theorem inSegment_of_blank {c : Char} (h : Text.isBlank c = true) : inSegment c = true := by
  have hc : c ≠ '[' ∧ c ≠ ']' ∧ c ≠ ';' := by
    refine ⟨?_, ?_, ?_⟩ <;> rintro rfl <;> exact absurd h (by decide)
  simp [inSegment, hc]

/-- Trimming does not change the depth. -/
theorem depthAfter_trim {plain : Char → Bool} (hplain : ∀ {c}, Text.isBlank c = true → plain c = true) {e : Nat}
    {text : List Char} : depthAfter plain 0 (Text.trim text) = some e ↔ depthAfter plain 0 text = some e := by
  have hblank : ∀ {blanks : List Char} {d m : Nat}, (∀ c ∈ blanks, Text.isBlank c = true) →
      (depthAfter plain d blanks = some m ↔ d = m) := by
    intro blanks d m h
    rw [(balanced_of_no_brace fun c hc => isBrace_of_blank (h c hc)).depthAfter_eq fun _ c hc => hplain (h c hc)]
    exact Option.some_inj
  obtain ⟨before, after, htext, hbefore, hafter⟩ := Text.exists_trim text
  conv_rhs => rw [htext]
  simp [depthAfter_append, hblank hbefore, hblank hafter]

/-! ## Splitting the chain off -/

section

variable {d e : Nat} {text base rest : List Char} {chain : Option (List Char)}

/-- Splitting goes on as far as the characters belong to a base. -/
theorem splitChain_cons (d : Nat) (c : Char) (rest : List Char) :
    splitChain d (c :: rest) =
      match depthStep inBase d c with
      | some e => (splitChain e rest).map fun split => (c :: split.1, split.2)
      | none => if c = '[' then .ok ([], some (c :: rest)) else .error .unbalancedBraces := by
  rw [splitChain]
  rcases brace_cases c with rfl | rfl | hc
  · rfl
  · cases d <;> rfl
  · obtain ⟨hopen, hclose⟩ := not_brace hc
    by_cases hd : d = 0
    · by_cases hbracket : c = '[' <;> simp_all [depthStep, inBase]
    · simp [depthStep, hopen, hclose, hd]

/-- What comes before a text that can be split belongs to the base. -/
theorem splitChain_append (h : depthAfter inBase d text = some e) :
    splitChain d (text ++ rest) = (splitChain e rest).map fun split => (text ++ split.1, split.2) := by
  induction text generalizing d with
  | nil =>
    obtain rfl := Option.some.inj h
    rw [List.nil_append]
    cases splitChain d rest <;> rfl
  | cons c text ih =>
    obtain ⟨m, hstep, htext⟩ := depthAfter_cons.1 h
    rw [List.cons_append, splitChain_cons, hstep]
    dsimp only
    rw [ih htext]
    cases splitChain e rest <;> rfl

/-- A text is split into base and chain; the chain starts at a bracket outside braces. -/
theorem splitChain_eq_ok (h : splitChain d text = .ok (base, chain)) :
    text = base ++ chain.getD [] ∧
      ∃ e, depthAfter inBase d base = some e ∧ ∀ found ∈ chain, e = 0 ∧ found.head? = some '[' := by
  induction text generalizing d base with
  | nil =>
    cases h
    exact ⟨rfl, d, rfl, by simp⟩
  | cons c rest ih =>
    rw [splitChain_cons] at h
    cases hstep : depthStep inBase d c with
    | some m =>
      rw [hstep] at h
      dsimp only at h
      cases hsplit : splitChain m rest with
      | error fault => rw [hsplit] at h; cases h
      | ok split =>
        obtain ⟨base', chain'⟩ := split
        rw [hsplit] at h
        cases h
        obtain ⟨hjoin, e, hbase, hchain⟩ := ih hsplit
        exact ⟨by rw [hjoin]; rfl, e, depthAfter_cons.2 ⟨m, hstep, hbase⟩, hchain⟩
    | none =>
      rw [hstep] at h
      dsimp only at h
      split_ifs at h with hbracket
      cases h
      have hzero : d = 0 := by
        subst hbracket
        by_contra hd
        rw [depthStep_other rfl fun h0 => absurd h0 hd] at hstep
        cases hstep
      refine ⟨rfl, d, rfl, fun found hfound => ?_⟩
      obtain rfl := Option.mem_some.1 hfound
      exact ⟨hzero, congrArg some hbracket⟩

end

/-! ## Cutting a chain -/

section

variable {buffer text part : List Char} {parts : List (List Char)}

/-- Cutting goes on as far as the characters belong to a segment. -/
theorem cutChain_cons (d : Nat) (buffer : List Char) (c : Char) (rest : List Char) :
    cutChain d buffer (c :: rest) =
      match depthStep inSegment d c with
      | some e => cutChain e (buffer ++ [c]) rest
      | none =>
        if isTokenClose c then cutChain (-1) (buffer ++ [c]) rest
        else if c = ';' then (cutChain 0 [] rest).map (buffer :: ·)
        else .error .nestedChain := by
  rw [cutChain]
  rcases brace_cases c with rfl | rfl | hc
  · rfl
  · cases d with
    | zero => rfl
    | succ d => simp [isTokenOpen, isTokenClose]
  · obtain ⟨hopen, hclose⟩ := not_brace hc
    by_cases hd : d = 0
    · by_cases hbracket : c = '[' ∨ c = ']' <;> by_cases hsemicolon : c = ';' <;>
        simp_all [depthStep, inSegment]
    · simp [depthStep, hopen, hclose, hd]

/-- The first part goes on from the buffer, and the parts make up the text. -/
theorem exists_of_cutChain {d : Int} (h : cutChain d buffer text = .ok parts) :
    ∃ first others, parts = (buffer ++ first) :: others ∧ [';'].intercalate (first :: others) = text := by
  induction text generalizing d buffer parts with
  | nil =>
    cases h
    exact ⟨[], [], by simp, rfl⟩
  | cons c rest ih =>
    have hread : ∀ {d : Int}, cutChain d (buffer ++ [c]) rest = .ok parts →
        ∃ first others, parts = (buffer ++ first) :: others ∧
          [';'].intercalate (first :: others) = c :: rest := by
      intro d h
      obtain ⟨first, others, rfl, hjoin⟩ := ih h
      refine ⟨c :: first, others, by simp, ?_⟩
      rw [← hjoin]
      cases others <;> simp [List.intercalate]
    rw [cutChain] at h
    split_ifs at h with _ _ _ hsemicolon
    · exact hread h
    · exact hread h
    · cases hrest : cutChain d [] rest with
      | error fault => rw [hrest] at h; cases h
      | ok found =>
        rw [hrest] at h
        cases h
        obtain ⟨first, others, rfl, hjoin⟩ := ih hrest
        refine ⟨[], first :: others, by simp, ?_⟩
        rw [List.intercalate_cons_cons, hjoin]
        have hc : c = ';' := by simp_all
        simp [hc]
    · exact hread h

/-- The parts of a chain, joined again, are the chain. -/
theorem join_of_cutChain {d : Int} (h : cutChain d [] text = .ok parts) : [';'].intercalate parts = text := by
  obtain ⟨first, others, rfl, hjoin⟩ := exists_of_cutChain h
  exact hjoin

/-- Parts whose braces match hold no bracket and no semicolon outside them. The invariant is that the part so far was
read at the depth of the scanner; a brace that closed nothing would show in the part. -/
theorem plain_of_cutChain {d : Nat} (h : cutChain d buffer text = .ok parts)
    (hbuffer : depthAfter inSegment 0 buffer = some d)
    (hparts : ∀ part ∈ parts, depthAfter anywhere 0 part = some 0) :
    ∀ part ∈ parts, depthAfter inSegment 0 part = some 0 := by
  have hdone : ∀ {buffer : List Char} {d : Nat}, depthAfter inSegment 0 buffer = some d →
      depthAfter anywhere 0 buffer = some 0 → depthAfter inSegment 0 buffer = some 0 := by
    intro buffer d hbuffer hzero
    rw [depthAfter_anywhere hbuffer] at hzero
    rwa [← hzero]
  induction text generalizing d buffer parts with
  | nil =>
    cases h
    simpa using hdone hbuffer (hparts _ List.mem_cons_self)
  | cons c rest ih =>
    rw [cutChain_cons] at h
    cases hstep : depthStep inSegment d c with
    | some e =>
      rw [hstep] at h
      exact ih h (depthAfter_append.2 ⟨d, hbuffer, depthAfter_cons.2 ⟨e, hstep, rfl⟩⟩) hparts
    | none =>
      rw [hstep] at h
      dsimp only at h
      split_ifs at h with hclose hsemicolon
      · exfalso
        obtain ⟨first, others, rfl, -⟩ := exists_of_cutChain h
        obtain ⟨m, hread, -⟩ := depthAfter_append.1 (hparts _ List.mem_cons_self)
        obtain ⟨m', hbuffer', hread⟩ := depthAfter_append.1 hread
        rw [depthAfter_anywhere hbuffer] at hbuffer'
        obtain rfl := Option.some.inj hbuffer'
        obtain ⟨m'', hstep', -⟩ := depthAfter_cons.1 hread
        obtain rfl := eq_of_isTokenClose hclose
        cases d with
        | zero => cases hstep'
        | succ d => cases hstep
      · cases hrest : cutChain 0 [] rest with
        | error fault => rw [hrest] at h; cases h
        | ok found =>
          rw [hrest] at h
          cases h
          have hothers := ih (d := 0) hrest rfl fun part hpart => hparts part (List.mem_cons_of_mem _ hpart)
          exact List.forall_mem_cons.2 ⟨hdone hbuffer (hparts _ List.mem_cons_self), hothers⟩

/-- A text that belongs to a segment is added to the part so far. -/
theorem cutChain_append {d e : Nat} (buffer rest : List Char) (h : depthAfter inSegment d text = some e) :
    cutChain d buffer (text ++ rest) = cutChain e (buffer ++ text) rest := by
  induction text generalizing d buffer with
  | nil =>
    cases h
    simp
  | cons c text ih =>
    obtain ⟨m, hstep, htext⟩ := depthAfter_cons.1 h
    rw [List.cons_append, cutChain_cons, hstep]
    dsimp only
    rw [ih _ htext, List.append_assoc]
    rfl

/-- Parts joined by semicolons are cut apart again. -/
theorem cutChain_intercalate (hne : parts ≠ [])
    (hparts : ∀ part ∈ parts, depthAfter inSegment 0 part = some 0) :
    cutChain 0 [] ([';'].intercalate parts) = .ok parts := by
  induction parts with
  | nil => exact absurd rfl hne
  | cons part others ih =>
    have hpart := hparts part List.mem_cons_self
    cases others with
    | nil =>
      have hread := cutChain_append [] [] hpart
      simpa [List.intercalate, cutChain] using hread
    | cons next others =>
      have hrest := ih (List.cons_ne_nil _ _) fun p hp => hparts p (List.mem_cons_of_mem part hp)
      have hread := cutChain_append [] ([';'] ++ [';'].intercalate (next :: others)) hpart
      rw [List.intercalate_cons_cons, List.append_assoc]
      refine hread.trans ?_
      rw [List.singleton_append, cutChain_cons]
      show (cutChain 0 [] _).map _ = _
      rw [hrest]
      rfl

/-- A chain that can be read is closed, is not marked with an exclamation mark, and has no blank part. -/
theorem readChain_eq_ok {chain : List Char} {segments : List (List Char)} :
    readChain chain = .ok segments ↔
      ['[', '!'].isPrefixOf (Text.trimEnd chain) = false ∧ (Text.trimEnd chain).getLast? = some ']' ∧
        ∃ parts, cutChain 0 [] ((Text.trimEnd chain).drop 1).dropLast = .ok parts ∧
          segments = parts.map Text.trim ∧ ∀ segment ∈ segments, segment ≠ [] := by
  unfold readChain
  extract_lets trimmed cut check
  have hcut : cut () = .ok segments ↔
      ∃ parts, cutChain 0 [] (trimmed.drop 1).dropLast = .ok parts ∧
          segments = parts.map Text.trim ∧ ∀ segment ∈ segments, segment ≠ [] := by
    dsimp only [cut]
    rw [bind_eq_ok]
    refine exists_congr fun parts => and_congr_right fun _ => ?_
    split_ifs with hempty
    · refine ⟨fun h => (by cases h), ?_⟩
      rintro ⟨rfl, hne⟩
      simp only [List.any_eq_true, List.isEmpty_iff] at hempty
      obtain ⟨segment, hsegment, rfl⟩ := hempty
      exact absurd rfl (hne [] hsegment)
    · simp only [List.any_eq_true, List.isEmpty_iff, not_exists, not_and] at hempty
      show Except.ok _ = Except.ok _ ↔ _
      rw [Except.ok.injEq]
      exact ⟨fun h => ⟨h.symm, fun segment hsegment => hempty segment (h ▸ hsegment)⟩, fun h => h.1.symm⟩
  have hcheck : check () = .ok segments ↔ trimmed.getLast? = some ']' ∧ cut () = .ok segments := by
    dsimp only [check]
    split_ifs with hclosed
    · exact ⟨fun h => (by cases h), fun h => absurd h.1 hclosed⟩
    · exact (and_iff_right (not_not.1 hclosed)).symm
  rw [← hcut, ← hcheck]
  split_ifs with hmark
  · exact ⟨fun h => (by cases h), fun h => absurd (hmark.symm.trans h.1) (by decide)⟩
  · exact (and_iff_right (Bool.eq_false_iff.2 hmark)).symm

/-- What is read from a bracket on is in brackets. -/
theorem exists_inner_of_readChain {chain : List Char} {segments : List (List Char)}
    (h : readChain chain = .ok segments) (hbracket : chain.head? = some '[') :
    ∃ inner parts, Text.trimEnd chain = '[' :: (inner ++ [']']) ∧ cutChain 0 [] inner = .ok parts ∧
      segments = parts.map Text.trim ∧ ∀ segment ∈ segments, segment ≠ [] := by
  obtain ⟨-, hlast, parts, hparts, hsegments⟩ := readChain_eq_ok.1 h
  obtain ⟨rest, rfl⟩ : ∃ rest, chain = '[' :: rest := ⟨chain.tail, (List.cons_head?_tail hbracket).symm⟩
  obtain ⟨rest', htrim⟩ := @Text.trimEnd_cons '[' rest (by decide)
  rw [htrim] at hlast hparts
  have hlast' : ']' ∈ rest'.getLast? := by
    cases rest' with
    | nil => exact absurd hlast (by decide)
    | cons c rest'' => rwa [List.getLast?_cons_cons] at hlast
  exact ⟨rest'.dropLast, parts, by rw [htrim, List.dropLast_append_getLast? _ hlast'], hparts, hsegments⟩

/-- Tight parts in brackets are read as they are, unless the first one begins with an exclamation mark. -/
theorem readChain_intercalate {parts : List (List Char)} (hne : parts ≠ [])
    (hmark : ∀ part ∈ parts.head?, part.head? ≠ some '!')
    (hparts : ∀ part ∈ parts, part ≠ [] ∧ Text.Tight part ∧ depthAfter inSegment 0 part = some 0) :
    readChain ('[' :: ([';'].intercalate parts ++ [']'])) = .ok parts := by
  have hlast : ('[' :: ([';'].intercalate parts ++ [']'])).getLast? = some ']' := by
    rw [← List.cons_append, List.getLast?_concat]
  have htrim : Text.trimEnd ('[' :: ([';'].intercalate parts ++ [']'])) = '[' :: ([';'].intercalate parts ++ [']']) :=
    Text.trimEnd_eq_self fun c hc => by
      obtain rfl := Option.some.inj (hlast.symm.trans hc)
      decide
  rw [readChain_eq_ok, htrim]
  refine ⟨?_, hlast, parts, ?_, ?_, fun part hpart => (hparts part hpart).1⟩
  · obtain ⟨first, others, rfl⟩ := List.exists_cons_of_ne_nil hne
    obtain ⟨c, rest, rfl⟩ := List.exists_cons_of_ne_nil (hparts first List.mem_cons_self).1
    have hc : c ≠ '!' := fun h => hmark _ rfl (congrArg some h)
    cases others <;> simp [List.intercalate, List.isPrefixOf, hc.symm]
  · rw [List.drop_one, List.tail_cons, List.dropLast_concat]
    exact cutChain_intercalate hne fun part hpart => (hparts part hpart).2.2
  · exact ((List.map_congr_left fun part hpart => (hparts part hpart).2.1.trim_eq).trans (List.map_id' parts)).symm

end

end UrlRouter.Pattern
