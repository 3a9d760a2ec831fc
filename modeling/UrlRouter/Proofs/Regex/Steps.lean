/-
Single steps of reading.

What a step does with the tokens that open an item, whatever has been read before: tokens that stand for one item by
themselves, the signs of repetition, and the parentheses that open a group.

Results:
- `ofChars_append`: a text and what follows it are cut into tokens one after the other.
- `reaches_single`: a token that stands for an item puts it into the current alternative.
- `reaches_sign`: a sign of repetition behind an item repeats it.
- `reaches_open`, `reaches_open_plain`: the parentheses of captures and of parts without one.
-/
import Mathlib.Tactic
import UrlRouter.Proofs.Regex.Body

namespace UrlRouter.Regex

/-! ## Tokens -/

theorem ofChars_cons {c : Char} (hc : c ≠ '\\') (rest : List Char) :
    Token.ofChars (c :: rest) = .plain c :: Token.ofChars rest := by
  unfold Token.ofChars
  split
  · contradiction
  · rename_i heq
    exact absurd (List.cons.inj heq).1 hc
  · rename_i heq
    exact absurd (List.cons.inj heq).1 hc
  · rename_i heq
    obtain ⟨rfl, rfl⟩ := List.cons.inj heq
    rw [← Token.ofChars.eq_def]

/-- What stands behind a text is cut into tokens by itself, unless the text ends with half an escape. -/
theorem ofChars_append {text : List Char} (h : .loneBackslash ∉ Token.ofChars text) (rest : List Char) :
    Token.ofChars (text ++ rest) = Token.ofChars text ++ Token.ofChars rest := by
  induction text using Token.ofChars.induct with
  | case1 => rfl
  | case2 => exact absurd List.mem_cons_self h
  | case3 c text ih =>
    have htail := ih fun hmem => h (List.mem_cons_of_mem _ hmem)
    exact congrArg (Token.escaped c :: ·) htail
  | case4 c text hnot hnot' ih =>
    have hc : c ≠ '\\' := by
      rintro rfl
      cases text with
      | nil => exact hnot rfl rfl
      | cons d text => exact hnot' d text rfl rfl
    rw [ofChars_cons hc] at h ⊢
    rw [List.cons_append, ofChars_cons hc, ih fun hmem => h (List.mem_cons_of_mem _ hmem)]
    rfl

theorem ofChars_map_plain {text : List Char} (h : '\\' ∉ text) (rest : List Char) :
    Token.ofChars (text ++ rest) = text.map .plain ++ Token.ofChars rest := by
  rw [← ofChars_eq_plain text h]
  refine ofChars_append ?_ rest
  rw [ofChars_eq_plain text h]
  simp

/-! ## Single steps -/

variable {r : Reader} {tail : List Token}

/-- A step on a character that opens an item. -/
theorem run_step_item {c : Char} (hrest : r.rest = .plain c :: tail) (hback : tail.head? ≠ some .loneBackslash)
    (hbar : c ≠ '|') (hclose : c ≠ ')') (hmode : r.frame.mode = {}) :
    step.run r = (readItem r.position c).run { r with rest := tail, position := r.position + 1 } := by
  rw [run_step_cons hrest, if_neg (by simpa using hbar), if_neg (by simpa using hclose), run_take_cons hrest hback,
    ok_bind, readToken, run_readPlain]
  simp only [hmode, Bool.false_and, Bool.false_eq_true, if_false]
  rfl

theorem run_accept_ne {c : Char} (h : r.rest.head? ≠ some (.plain c)) : (accept c).run r = .ok (false, r) := by
  show StateT.run (if r.rest.head? = some (.plain c) then _ else _ : Read Bool) r = _
  rw [if_neg h]
  rfl

theorem run_accept_cons {c : Char} (hrest : r.rest = .plain c :: tail) (hback : tail.head? ≠ some .loneBackslash) :
    (accept c).run r = .ok (true, { r with rest := tail, position := r.position + 1 }) := by
  show StateT.run (if r.rest.head? = some (.plain c) then _ else _ : Read Bool) r = _
  rw [if_pos (by rw [hrest]; rfl), StateT.run_bind, run_take_cons hrest hback]
  rfl

/-! ## Tokens that stand for an item -/

/-- the item that a plain character stands for by itself -/
def plainItem? (c : Char) : Option Item :=
  match c with
  | '.' => some ⟨.char {} .any, .yes⟩
  | '^' => some ⟨.anchor {} .lineStart, .no⟩
  | '$' => some ⟨.anchor {} .lineEnd, .no⟩
  | c => if c ∈ metacharacters then none else some ⟨.char {} (.code c.toNat), .yes⟩

/-- the item that an escape stands for when it takes no more than its character -/
def escapedItem? (c : Char) : Option Item :=
  match anchorEscape? c, classEscape? c, controlEscape? c with
  | some anchor, _, _ => some ⟨.anchor {} anchor, .no⟩
  | none, some member, _ => some ⟨.char {} (.set false [member]), .yes⟩
  | none, none, some n => some ⟨.char {} (.code n), .yes⟩
  | none, none, none =>
    if Text.isAsciiLetter c || Text.isAsciiDigit c then none else some ⟨.char {} (.code c.toNat), .yes⟩

/-- the item that a token stands for by itself -/
def singleItem? : Token → Option Item
  | .plain c => plainItem? c
  | .escaped c => escapedItem? c
  | .loneBackslash => none

theorem singleItem?_ne {t : Token} {item : Item} (h : singleItem? t = some item) :
    t ≠ .loneBackslash ∧ ∀ c ∈ ['\\', '?', '+', '*', '(', ')', '|'], t ≠ .plain c := by
  constructor
  · rintro rfl
    cases h
  · rintro c hc rfl
    have hnone : plainItem? c = none := by
      simp only [List.mem_cons, List.not_mem_nil, or_false] at hc
      rcases hc with rfl | rfl | rfl | rfl | rfl | rfl | rfl <;> rfl
    rw [singleItem?, hnone] at h
    cases h

theorem plainItem?_cases {c : Char} {item : Item} (h : plainItem? c = some item) :
    c = '.' ∧ item = ⟨.char {} .any, .yes⟩ ∨ c = '^' ∧ item = ⟨.anchor {} .lineStart, .no⟩ ∨
      c = '$' ∧ item = ⟨.anchor {} .lineEnd, .no⟩ ∨ c ∉ metacharacters ∧ item = ⟨.char {} (.code c.toNat), .yes⟩ := by
  unfold plainItem? at h
  split at h
  · cases h
    exact .inl ⟨rfl, rfl⟩
  · cases h
    exact .inr (.inl ⟨rfl, rfl⟩)
  · cases h
    exact .inr (.inr (.inl ⟨rfl, rfl⟩))
  · split_ifs at h with hc
    cases h
    exact .inr (.inr (.inr ⟨hc, rfl⟩))

theorem plainItem?_of_not_mem {c : Char} (hc : c ∉ metacharacters) :
    plainItem? c = some ⟨.char {} (.code c.toNat), .yes⟩ := by
  have hne : ∀ d ∈ metacharacters, c ≠ d := fun d hd heq => hc (heq ▸ hd)
  unfold plainItem?
  split
  · exact absurd rfl (hne '.' (by decide))
  · exact absurd rfl (hne '^' (by decide))
  · exact absurd rfl (hne '$' (by decide))
  · rw [if_neg hc]

/-- An item of its own is a character or an anchor. -/
theorem singleItem?_node {t : Token} {item : Item} (h : singleItem? t = some item) :
    (∃ test, item.node = .char {} test) ∨ ∃ anchor, item.node = .anchor {} anchor := by
  cases t with
  | plain c =>
    rcases plainItem?_cases h with ⟨-, rfl⟩ | ⟨-, rfl⟩ | ⟨-, rfl⟩ | ⟨-, rfl⟩
    · exact .inl ⟨_, rfl⟩
    · exact .inr ⟨_, rfl⟩
    · exact .inr ⟨_, rfl⟩
    · exact .inl ⟨_, rfl⟩
  | escaped c =>
    rw [singleItem?, escapedItem?] at h
    split at h
    · cases h
      exact .inr ⟨_, rfl⟩
    · cases h
      exact .inl ⟨_, rfl⟩
    · cases h
      exact .inl ⟨_, rfl⟩
    · split_ifs at h
      cases h
      exact .inl ⟨_, rfl⟩
  | loneBackslash => cases h

theorem singleItem?_chars {t : Token} {item : Item} (h : singleItem? t = some item) (rest : List Char) :
    Token.ofChars (t.chars ++ rest) = t :: Token.ofChars rest := by
  cases t with
  | plain c => exact ofChars_cons (fun hc => (singleItem?_ne h).2 c (by simp [hc]) rfl) rest
  | escaped c => rfl
  | loneBackslash => cases h

/-- the state with one more item and fewer tokens -/
def Reader.pushed (r : Reader) (item : Item) : Reader :=
  { r with frame := { r.frame with items := item :: r.frame.items } }

theorem run_pushTest_eq (test : CharTest) (r : Reader) :
    (pushTest test).run r = .ok ((), r.pushed ⟨.char r.frame.mode test, .yes⟩) := rfl

theorem run_pushAnchor_eq (anchor : Anchor) (r : Reader) :
    (pushAnchor anchor).run r = .ok ((), r.pushed ⟨.anchor r.frame.mode anchor, .no⟩) := rfl

theorem run_readItem_single {c : Char} {item : Item} (h : plainItem? c = some item) (start : Nat)
    (hmode : r.frame.mode = {}) : (readItem start c).run r = .ok ((), r.pushed item) := by
  rcases plainItem?_cases h with ⟨rfl, rfl⟩ | ⟨rfl, rfl⟩ | ⟨rfl, rfl⟩ | ⟨hc, rfl⟩
  · exact (run_pushTest_eq .any r).trans (by rw [hmode])
  · exact (run_pushAnchor_eq .lineStart r).trans (by rw [hmode])
  · exact (run_pushAnchor_eq .lineEnd r).trans (by rw [hmode])
  · rw [readItem_ordinary _ c hc, run_pushTest_eq, hmode]

/-- Only the letters x, u, U and N open an escape of several characters. -/
theorem codeEscape?_of_not_letter {c : Char} (h : Text.isAsciiLetter c = false) : codeEscape? c = pure none := by
  unfold codeEscape?
  split <;> first | (exact absurd h (by decide)) | rfl

theorem run_readEscape_single {c : Char} {item : Item} (h : escapedItem? c = some item) (hmode : r.frame.mode = {}) :
    (readEscape c).run r = .ok ((), r.pushed item) := by
  unfold escapedItem? at h
  unfold readEscape
  cases hanchor : anchorEscape? c with
  | some anchor =>
    rw [hanchor] at h
    cases h
    exact (run_pushAnchor_eq anchor r).trans (by rw [hmode])
  | none =>
    cases hclass : classEscape? c with
    | some member =>
      simp only [hanchor, hclass] at h
      cases h
      exact (run_pushTest_eq _ r).trans (by rw [hmode])
    | none =>
      cases hcontrol : controlEscape? c with
      | some n =>
        simp only [hanchor, hclass, hcontrol] at h
        cases h
        exact (run_pushTest_eq _ r).trans (by rw [hmode])
      | none =>
        simp only [hanchor, hclass, hcontrol] at h
        split_ifs at h with hword
        cases h
        obtain ⟨hletter, hdigit⟩ := Bool.or_eq_false_iff.1 (Bool.eq_false_iff.2 hword)
        have hzero : c ≠ '0' := by rintro rfl; exact absurd hdigit (by decide)
        have hplain : plainEscape c = pure c.toNat := if_neg (by simpa using hword)
        simp only [codeEscape?_of_not_letter hletter, pure_bind, if_neg hzero, hdigit, Bool.false_eq_true, if_false,
          hplain]
        exact (run_pushTest_eq _ r).trans (by rw [hmode])

/-- **A token that stands for an item** puts it into the current alternative. -/
theorem reaches_single {t : Token} {item : Item} (h : singleItem? t = some item) (hrest : r.rest = t :: tail)
    (hback : tail.head? ≠ some .loneBackslash) (hmode : r.frame.mode = {}) :
    ∃ s, r.Reaches s ∧ r.Gains s tail [item] 0 [] := by
  obtain ⟨-, hplain⟩ := singleItem?_ne h
  have hstep : step.run r = .ok ((), ({ r with rest := tail, position := r.position + t.length } : Reader).pushed item) := by
    rw [run_step_cons hrest, if_neg (hplain '|' (by decide)), if_neg (hplain ')' (by decide)), run_take_cons hrest hback,
      ok_bind]
    cases t with
    | plain c =>
      rw [readToken, run_readPlain]
      simp only [hmode, Bool.false_and, Bool.false_eq_true, if_false]
      exact run_readItem_single h _ hmode
    | escaped c => exact run_readEscape_single h hmode
    | loneBackslash => cases h
  exact ⟨_, .of_step hstep (by rw [hrest]; exact Nat.lt_succ_self _), rfl, rfl, rfl, rfl, (List.append_nil _).symm, rfl,
    rfl⟩

/-! ## Parentheses -/

/-- A name is read up to the character that ends it. -/
theorem run_takeUntil_plain (terminator : Char) (what : String) (name : List Char) (hname : terminator ∉ name)
    (hback : tail.head? ≠ some .loneBackslash) (taken : List Char) (hne : taken ++ name ≠ []) (limit : Nat)
    (hlimit : name.length < limit) :
    ∀ r : Reader, r.rest = name.map .plain ++ .plain terminator :: tail → ∃ position,
      (takeUntil terminator what taken limit).run r =
        .ok (String.ofList (taken ++ name), { r with rest := tail, position }) := by
  induction name generalizing taken limit with
  | nil =>
    intro r hrest
    obtain ⟨limit, rfl⟩ : ∃ l, limit = l + 1 := ⟨limit - 1, by simp at hlimit; omega⟩
    have hempty : taken.isEmpty = false := by simpa using hne
    refine ⟨r.position + (Token.plain terminator).length, ?_⟩
    simp only [takeUntil, StateT.run_bind, run_take_cons hrest hback, ok_bind, if_true, hempty, List.append_nil]
    rfl
  | cons c name ih =>
    intro r hrest
    obtain ⟨limit, rfl⟩ : ∃ l, limit = l + 1 := ⟨limit - 1, by simp at hlimit; omega⟩
    have hc : Token.plain c ≠ Token.plain terminator := by
      intro h
      cases h
      exact hname List.mem_cons_self
    have hnext : (name.map Token.plain ++ .plain terminator :: tail).head? ≠ some .loneBackslash := by
      cases name <;> simp
    obtain ⟨position, hposition⟩ := ih (fun h => hname (List.mem_cons_of_mem c h)) (taken ++ [c]) (by simp) limit
      (by simp at hlimit; omega)
      { r with rest := name.map .plain ++ .plain terminator :: tail
               position := r.position + (Token.plain c).length } rfl
    refine ⟨position, ?_⟩
    simp only [takeUntil, StateT.run_bind, run_take_cons (r := r) hrest hnext, ok_bind, if_neg hc]
    rw [List.append_assoc] at hposition
    exact hposition

/-- The parenthesis of a capture, with or without a name. -/
theorem reaches_open {name : Option String} {more : List Token} (hname : ∀ n ∈ name, Text.isIdentifier n = true)
    (hnew : ∀ n ∈ name, r.names.lookup n = none) (hback : tail.head? ≠ some .loneBackslash)
    (hquestion : tail.head? ≠ some (.plain '?')) (hmode : r.frame.mode = {})
    (hmore : more = name.elim [] fun name =>
      .plain '?' :: .plain 'P' :: .plain '<' :: (name.toList.map .plain ++ [.plain '>']))
    (hrest : r.rest = .plain '(' :: (more ++ tail)) :
    ∃ s, r.Reaches s ∧ s.rest = tail ∧ s.frame = ⟨.capture r.groupBound, r.position, {}, [], []⟩ ∧
      s.outer = r.frame :: r.outer ∧ s.widths.length = r.widths.length + 1 ∧
      s.names = r.names ++ captureNames name r.groupBound ∧ s.references = r.references ∧
      s.globalFlags = r.globalFlags := by
  cases name with
  | none =>
    subst hmore
    have hstep := run_step_item hrest hback (by decide) (by decide) hmode
    have hopen : (openGroup r.position).run { r with rest := tail, position := r.position + 1 } =
        .ok ((), ({ r with rest := tail, position := r.position + 1 } : Reader).captured r.position []) := by
      unfold openGroup
      rw [StateT.run_bind, run_accept_ne (by exact hquestion), ok_bind]
      exact run_openCapture_none _ _
    refine ⟨_, .of_step (hstep.trans hopen) (by rw [hrest]; exact Nat.lt_succ_self _), rfl, ?_, rfl, ?_, rfl, rfl, rfl⟩
    · simp only [Reader.captured, hmode]
      rfl
    · simp [Reader.captured]
  | some name =>
    subst hmore
    obtain ⟨hne, hchars⟩ := not_mem_of_isIdentifier (hname name rfl)
    simp only [Option.elim_some, List.cons_append, List.append_assoc, List.nil_append] at hrest
    have hname' : (name.toList.map Token.plain ++ .plain '>' :: tail).head? ≠ some .loneBackslash := by
      cases name.toList <;> simp
    have hstep := run_step_item hrest (by simp) (by decide) (by decide) hmode
    obtain ⟨position, hposition⟩ := @run_takeUntil_plain tail '>' "group name" name.toList
      (fun h => (hchars _ h).1 rfl) hback [] (by simpa using hne)
      ((name.toList.map Token.plain ++ .plain '>' :: tail).length + 1) (by simp)
      { r with rest := name.toList.map .plain ++ .plain '>' :: tail, position := r.position + 1 + 1 + 1 + 1 } rfl
    have hgroup : (groupName '>').run
        { r with rest := name.toList.map .plain ++ .plain '>' :: tail, position := r.position + 1 + 1 + 1 + 1 } =
          .ok (name, { r with rest := tail, position }) := by
      simp only [groupName, nameUntil, StateT.run_bind, StateT.run_get, pure_bind]
      rw [hposition, List.nil_append, String.ofList_toList, ok_bind, if_pos (hname name rfl)]
      rfl
    have hopen : (openGroup r.position).run { r with
        rest := .plain '?' :: .plain 'P' :: .plain '<' :: (name.toList.map .plain ++ .plain '>' :: tail)
        position := r.position + 1 } =
          .ok ((), ({ r with rest := tail, position } : Reader).captured r.position [(name, r.groupBound)]) := by
      unfold openGroup
      rw [StateT.run_bind, run_accept_cons rfl (by simp), ok_bind]
      simp only [Bool.not_true, Bool.false_eq_true, if_false]
      rw [StateT.run_bind, run_take_cons rfl (by simp), ok_bind]
      simp only
      rw [StateT.run_bind, run_accept_cons rfl hname', ok_bind]
      simp only [if_true]
      rw [StateT.run_bind]
      show ((groupName '>').run { r with
        rest := name.toList.map .plain ++ .plain '>' :: tail, position := r.position + 1 + 1 + 1 + 1 } >>= _) = _
      rw [hgroup, ok_bind, run_openCapture_some]
      simp only [hnew name rfl]
      rfl
    refine ⟨_, .of_step (hstep.trans hopen) ?_, rfl, ?_, rfl, ?_, rfl, rfl, rfl⟩
    · rw [hrest]
      simp [Reader.captured]
      omega
    · simp only [Reader.captured, hmode]
      rfl
    · simp [Reader.captured]

/-- The parenthesis of a part without a capture. -/
theorem reaches_open_plain (hback : tail.head? ≠ some .loneBackslash) (hmode : r.frame.mode = {})
    (hrest : r.rest = .plain '(' :: .plain '?' :: .plain ':' :: tail) :
    ∃ s, r.Reaches s ∧ s.rest = tail ∧ s.frame = ⟨.plain, r.position, {}, [], []⟩ ∧
      s.outer = r.frame :: r.outer ∧ s.widths.length = r.widths.length ∧ s.names = r.names ∧
      s.references = r.references ∧ s.globalFlags = r.globalFlags := by
  have hstep := run_step_item hrest (by simp) (by decide) (by decide) hmode
  have hopen : (openGroup r.position).run { r with rest := .plain '?' :: .plain ':' :: tail, position := r.position + 1 } =
      .ok ((), { r with rest := tail, position := r.position + 1 + 1 + 1
                        frame := ⟨.plain, r.position, r.frame.mode, [], []⟩, outer := r.frame :: r.outer }) := by
    unfold openGroup
    rw [StateT.run_bind, run_accept_cons rfl (by simp), ok_bind]
    simp only [Bool.not_true, Bool.false_eq_true, if_false]
    rw [StateT.run_bind, run_take_cons rfl hback, ok_bind]
    rfl
  refine ⟨_, .of_step (hstep.trans hopen) ?_, rfl, ?_, rfl, rfl, rfl, rfl, rfl⟩
  · rw [hrest]
    show tail.length < tail.length + 1 + 1 + 1
    omega
  · rw [hmode]

/-- What may follow an expression: it makes no quantifier lazy or possessive and is no half escape. -/
structure Follow (tail : List Token) : Prop where
  back : tail.head? ≠ some .loneBackslash
  question : tail.head? ≠ some (.plain '?')
  plus : tail.head? ≠ some (.plain '+')

/-- the bounds of a sign of repetition -/
def signBounds? : Char → Option (Nat × Option Nat)
  | '*' => some (0, none)
  | '+' => some (1, none)
  | '?' => some (0, some 1)
  | _ => none

/-- **A sign of repetition** repeats the item before it. -/
theorem reaches_sign {sign : Char} {least : Nat} {most : Option Nat} {node : Node} {earlier : List Item}
    (hsign : signBounds? sign = some (least, most)) (htail : Follow tail) (hmode : r.frame.mode = {})
    (hrest : r.rest = .plain sign :: tail) (hitems : r.frame.items = ⟨node, .yes⟩ :: earlier) :
    ∃ s, r.Reaches s ∧ s.rest = tail ∧
      s.frame = { r.frame with items := ⟨.loop .greedy least most node, .already⟩ :: earlier } ∧ s.outer = r.outer ∧
      s.widths = r.widths ∧ s.names = r.names ∧ s.references = r.references ∧ s.globalFlags = r.globalFlags := by
  have hcases : sign ≠ '|' ∧ sign ≠ ')' ∧ ∀ start, readItem start sign = quantify start least most := by
    unfold signBounds? at hsign
    split at hsign <;> cases hsign <;> exact ⟨by decide, by decide, fun _ => rfl⟩
  obtain ⟨hbar, hclose, hitem⟩ := hcases
  have hstep := run_step_item hrest htail.back hbar hclose hmode
  have hgreed : readGreed.run { r with rest := tail, position := r.position + 1 } =
      .ok (.greedy, { r with rest := tail, position := r.position + 1 }) := by
    unfold readGreed
    rw [StateT.run_bind, run_accept_ne htail.question, ok_bind]
    simp only [Bool.false_eq_true, if_false]
    rw [StateT.run_bind, run_accept_ne htail.plus, ok_bind]
    rfl
  have hquantify : (readItem r.position sign).run { r with rest := tail, position := r.position + 1 } =
      .ok ((), ({ r with rest := tail, position := r.position + 1 } : Reader).repeated node earlier .greedy least most) := by
    rw [hitem, run_quantify_eq]
    simp only [hitems, hgreed, ok_bind]
  refine ⟨_, .of_step (hstep.trans hquantify) ?_, rfl, rfl, rfl, rfl, rfl, rfl, rfl⟩
  rw [hrest]
  exact Nat.lt_succ_self _

theorem follow_cons {c : Char} (hquestion : c ≠ '?') (hplus : c ≠ '+') : Follow (.plain c :: tail) :=
  ⟨by simp, by simpa using hquestion, by simpa using hplus⟩

theorem follow_single {t : Token} {item : Item} (h : singleItem? t = some item) : Follow (t :: tail) := by
  obtain ⟨hback, hplain⟩ := singleItem?_ne h
  exact ⟨by simpa using hback, by simpa using hplain '?' (by decide), by simpa using hplain '+' (by decide)⟩

end UrlRouter.Regex
