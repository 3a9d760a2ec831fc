/-
Reading that leads a cursor from one place to another.

Sets, comments, names and options are read up to where they end, and a cursor that stands at their start comes to the
place behind them. The same groups are open there, and none of them gets a name.

Results:
- `Reader.Moves`: where a cursor gets to between two states, and the names it meets.
- `Leads`: operations that lead a cursor from one place to another.
- `moves_readSet`, `leads_skipComment`, `moves_skipLine`, `flagsOn_eq_ok`, `flagsOff_eq_ok`: one for each kind of reading.
- `groupName_eq_ok`, `nameUntil_eq_ok`: what stands before the end of a name.
-/
import Mathlib.Tactic
import UrlRouter.Proofs.Regex.QuietReading

namespace UrlRouter.Regex

variable {α β : Type}

/-! ## Operations that lead a cursor -/

/-- From `r` to `s` a cursor goes from `c` to `d`, and meets these names. -/
def Reader.Moves (r s : Reader) (c d : Cursor) (met : List String) : Prop :=
  ∃ taken, r.rest = taken ++ s.rest ∧ c.past taken = d ∧ c.met taken = met

/-- Every backslash has its character. -/
def Reader.Paired (r : Reader) : Prop := .loneBackslash ∉ r.rest

namespace Reader.Moves

variable {r s t : Reader} {c d e : Cursor} {met met' : List String}

theorem refl (c : Cursor) (h : s.rest = r.rest) : r.Moves s c c [] := ⟨[], by rw [h]; rfl, rfl, rfl⟩

theorem trans (h : r.Moves s c d met) (h' : s.Moves t d e met') : r.Moves t c e (met ++ met') := by
  obtain ⟨taken, hrest, rfl, rfl⟩ := h
  obtain ⟨taken', hrest', rfl, rfl⟩ := h'
  exact ⟨taken ++ taken', by rw [hrest, hrest', List.append_assoc], Cursor.past_append .., Cursor.met_append ..⟩

theorem token {u : Token} {tail : List Token} (hrest : r.rest = u :: tail) (hs : s.rest = tail)
    (hname : c.nameOf? u = none) : r.Moves s c (c.take u) [] :=
  ⟨[u], by rw [hrest, hs]; rfl, rfl, by rw [Cursor.met, hname]; rfl⟩

theorem paired (h : r.Moves s c d met) (hr : r.Paired) : s.Paired := by
  obtain ⟨taken, hrest, -⟩ := h
  intro hmem
  exact hr (by rw [hrest]; exact List.mem_append_right _ hmem)

end Reader.Moves

theorem Reader.Quietly.moves {r s : Reader} (h : r.Quietly s) {c : Cursor} (hc : c.Settled) : r.Moves s c c [] := by
  obtain ⟨-, taken, hrest, hquiet⟩ := h
  exact ⟨taken.map .plain, hrest, (hc.past hquiet).1, (hc.past hquiet).2⟩

/-- Where the operation succeeds, it leads a cursor from `c` to `d`. The same groups are open there. -/
def Leads (c d : Cursor) (x : Read α) : Prop :=
  ∀ r a s, r.Paired → x.run r = .ok (a, s) → r.Level s ∧ r.Moves s c d []

variable {c d e : Cursor}

theorem leads_never {x : Read α} (h : Never x) : Leads c d x := fun r a s _ hrun => absurd hrun (h r a s)

theorem leads_quiet {x : Read α} (hc : c.Settled) (hx : TakesQuiet x) : Leads c c x :=
  fun r a s _ hrun => ⟨(hx r a s hrun).level, (hx r a s hrun).moves hc⟩

theorem leads_pure (c : Cursor) (a : α) : Leads c c (pure a) := by
  intro r b s _ hrun
  cases hrun
  exact ⟨.refl r, .refl c rfl⟩

theorem leads_bind {x : Read α} {f : α → Read β} (hx : Leads c d x) (hf : ∀ a, Leads d e (f a)) :
    Leads c e (x >>= f) := by
  intro r b s hr hrun
  obtain ⟨⟨a, t⟩, hxa, hfa⟩ := bind_eq_ok.1 hrun
  obtain ⟨hlevel, hmoves⟩ := hx r a t hr hxa
  obtain ⟨hlevel', hmoves'⟩ := hf a t b s (hmoves.paired hr) hfa
  exact ⟨hlevel.trans hlevel', hmoves.trans hmoves'⟩

theorem leads_ite {p : Prop} [Decidable p] {x y : Read α} (hx : p → Leads c d x) (hy : ¬p → Leads c d y) :
    Leads c d (if p then x else y) := by
  split_ifs with hp
  · exact hx hp
  · exact hy hp

theorem leads_get_bind {f : Reader → Read β} (hf : ∀ r, Leads c d (f r)) : Leads c d (get >>= f) :=
  fun r b s hr hrun => hf r r b s hr hrun

/-- The next token is taken, and there is one. -/
theorem take_moves {r s : Reader} {t : Token} (hr : r.Paired) (h : take?.run r = .ok (some t, s)) {c : Cursor}
    (hname : c.nameOf? t = none) : t ≠ .loneBackslash ∧ r.Level s ∧ r.Moves s c (c.take t) [] := by
  rcases take_eq_ok h with ⟨-, hnone, -⟩ | ⟨u, rest, hrest, -, hu, rfl⟩
  · cases hnone
  · cases hu
    refine ⟨fun ht => hr ?_, ⟨rfl, rfl, rfl⟩, .token hrest rfl hname⟩
    rw [hrest, ht]
    exact List.mem_cons_self

theorem head?_of_take {r s : Reader} {t : Token} (h : take?.run r = .ok (some t, s)) : t ∈ r.rest.head? := by
  rcases take_eq_ok h with ⟨-, hnone, -⟩ | ⟨u, rest, hrest, -, hu, -⟩
  · cases hnone
  · cases hu
    rw [hrest]
    rfl

theorem leads_take_bind {f : Option Token → Read β} (hname : ∀ t, c.nameOf? t = none) (hnone : Never (f none))
    (hsome : ∀ t, t ≠ .loneBackslash → Leads (c.take t) d (f (some t))) : Leads c d (take? >>= f) := by
  intro r b s hr hrun
  obtain ⟨⟨found, t⟩, htake, hf⟩ := bind_eq_ok.1 hrun
  cases found with
  | none => exact absurd hf (hnone t b s)
  | some token =>
    obtain ⟨hpaired, hlevel, hmoves⟩ := take_moves hr htake (hname token)
    obtain ⟨hlevel', hmoves'⟩ := hsome token hpaired t b s (hmoves.paired hr) hf
    exact ⟨hlevel.trans hlevel', hmoves.trans hmoves'⟩

/-- A character that is taken where it comes next. -/
theorem accept_moves {letter : Char} {r s : Reader} {found : Bool} (h : (accept letter).run r = .ok (found, s)) :
    (found = false ∧ s = r ∧ r.rest.head? ≠ some (.plain letter)) ∨
      (found = true ∧ r.Level s ∧ r.rest = .plain letter :: s.rest) := by
  rw [accept_eq] at h
  obtain ⟨⟨taken, t⟩, haccept, hpure⟩ := bind_eq_ok.1 h
  cases hpure
  rcases acceptIf_eq_ok haccept with ⟨rfl, rfl, hfacing⟩ | ⟨c, rfl, hc, hrest, hlevel⟩
  · refine .inl ⟨rfl, rfl, fun hhead => ?_⟩
    rw [Reader.facing?, hhead] at hfacing
    simp at hfacing
  · obtain rfl : c = letter := of_decide_eq_true hc
    exact .inr ⟨rfl, hlevel, hrest⟩

/-! ## Sets -/

theorem settled_set (verbose : List Bool) : (⟨.set, false, verbose⟩ : Cursor).Settled := ⟨rfl, by simp⟩

theorem quiet_setMember (t : Token) : TakesQuiet (setMember t) := by
  cases t with
  | plain c => exact quiet_pure _
  | escaped c => exact quiet_setEscape c
  | loneBackslash => exact quiet_never (never_failHere _)

theorem take_set {t : Token} (ht : t ≠ .loneBackslash) (verbose : List Bool) :
    (⟨.set, false, verbose⟩ : Cursor).take t = ⟨if t = .plain ']' then .items else .set, false, verbose⟩ := by
  cases t with
  | plain c => by_cases hc : c = ']' <;> simp [Cursor.take, Cursor.plain, hc]
  | escaped c => simp [Cursor.take, Spot.escaping]
  | loneBackslash => exact absurd rfl ht

/-- what follows the first token of a member -/
def readSpan (start : Nat) (members : List Member) (limit : Nat) (first : Token) : Read (List Member) := do
  let low ← setMember first
  if ← accept '-' then
    match ← take? with
    | none => failAt .unterminatedSet start
    | some last =>
      if last = .plain ']' then return members ++ [low, .code '-'.toNat]
      let high ← setMember last
      let back := first.length + 1 + last.length
      match low, high with
      | .code a, .code b =>
        if b < a then failBack (.badRange first.text last.text) back
        else readMembers start (members ++ [.span a b]) limit
      | _, _ => failBack (.badRange first.text last.text) back
  else readMembers start (members ++ [low]) limit

theorem leads_readSpan {d : Cursor} {verbose : List Bool} (hd : d = ⟨.items, false, verbose⟩) (start : Nat)
    (members : List Member) (limit : Nat)
    (hnext : ∀ member, Leads ⟨.set, false, verbose⟩ d (readMembers start (members ++ [member]) limit)) (first : Token) :
    Leads ⟨.set, false, verbose⟩ d (readSpan start members limit first) := by
  have hmember : ∀ t, Leads ⟨.set, false, verbose⟩ ⟨.set, false, verbose⟩ (setMember t) := fun t =>
    leads_quiet (settled_set verbose) (quiet_setMember t)
  refine leads_bind (hmember first) fun low =>
    leads_bind (leads_quiet (settled_set verbose) (quiet_accept (by decide))) fun dash =>
      leads_ite (fun _ => leads_take_bind (Cursor.nameOf?_eq_none (by simp)) (never_failAt _ _) fun last hlast => ?_)
        fun _ => hnext low
  rw [take_set hlast]
  refine leads_ite (fun hend => by rw [if_pos hend, hd]; exact leads_pure _ _) fun hend => ?_
  rw [if_neg hend]
  refine leads_bind (hmember last) fun high => ?_
  split
  · exact leads_ite (fun _ => leads_never (never_failBack _ _)) fun _ => hnext _
  · exact leads_never (never_failBack _ _)

/-- A bracket behind a member closes the set. At the start it is a member, as any token is. -/
theorem moves_readMembers {verbose : List Bool} (start limit : Nat) :
    ∀ (c : Cursor) (members : List Member) (r : Reader) (a : List Member) (s : Reader), r.Paired →
      (∀ t ∈ r.rest.head?, c.nameOf? t = none ∧
        c.take t = ⟨if t = .plain ']' && !members.isEmpty then .items else .set, false, verbose⟩) →
      (readMembers start members limit).run r = .ok (a, s) →
        r.Level s ∧ r.Moves s c ⟨.items, false, verbose⟩ [] := by
  induction limit with
  | zero => exact fun c members r a s _ _ h => absurd h (never_failAt _ _ r a s)
  | succ limit ih =>
    intro c members r a s hr htake h
    -- behind a member the cursor stands within the set
    have hnext : ∀ member, Leads ⟨.set, false, verbose⟩ ⟨.items, false, verbose⟩
        (readMembers start (members ++ [member]) limit) := by
      intro member r' a' s' hr' hrun
      refine ih _ _ r' a' s' hr' (fun t ht => ⟨Cursor.nameOf?_eq_none (by simp) t, ?_⟩) hrun
      rw [take_set fun hback => hr' (hback ▸ List.mem_of_mem_head? ht)]
      simp
    obtain ⟨⟨found, t⟩, htaken, h⟩ := bind_eq_ok.1 h
    cases found with
    | none => exact absurd h (never_failAt _ _ t a s)
    | some first =>
      obtain ⟨hname, hfirst⟩ := htake first (head?_of_take htaken)
      obtain ⟨-, hlevel, hmoves⟩ := take_moves hr htaken hname
      rw [hfirst] at hmoves
      simp only at h
      split_ifs at h with hclose
      · cases h
        rw [if_pos hclose] at hmoves
        exact ⟨hlevel, hmoves⟩
      · rw [if_neg hclose] at hmoves
        obtain ⟨hlevel', hmoves'⟩ := leads_readSpan rfl start members limit hnext first t a s (hmoves.paired hr) h
        exact ⟨hlevel.trans hlevel', hmoves.trans hmoves'⟩

theorem moves_readSet (verbose : List Bool) {r s : Reader} {a : Unit} (start : Nat) (hr : r.Paired)
    (h : (readSet start).run r = .ok (a, s)) :
    r.Level s ∧ r.Moves s ⟨.setOpen, false, verbose⟩ ⟨.items, false, verbose⟩ [] := by
  obtain ⟨⟨negated, t⟩, hnegated, h⟩ := bind_eq_ok.1 h
  have hmembers : ∀ c : Cursor, t.Paired → (∀ token ∈ t.rest.head?, c.nameOf? token = none ∧
      c.take token = ⟨.set, false, verbose⟩) → t.Level s ∧ t.Moves s c ⟨.items, false, verbose⟩ [] := by
    intro c ht htake
    obtain ⟨⟨members, u⟩, hmembers, hpush⟩ := bind_eq_ok.1
      (show ((readMembers start [] (t.rest.length + 1)).run t >>= fun pair =>
        (pushTest (setTest negated pair.1)).run pair.2) = _ from h)
    obtain ⟨hlevel, hmoves⟩ := moves_readMembers start _ c [] t members u ht (by simpa using htake) hmembers
    have hpushed := quiet_pushTest _ u a s hpush
    exact ⟨hlevel.trans hpushed.level, hmoves.trans (hpushed.moves ⟨rfl, by simp⟩)⟩
  rcases accept_moves hnegated with ⟨-, rfl, hhead⟩ | ⟨-, hlevel, hrest⟩
  · refine hmembers _ hr fun token htoken => ⟨Cursor.nameOf?_eq_none (by simp) token, ?_⟩
    cases token with
    | plain c =>
      have hc : c ≠ '^' := fun hc => hhead (by rw [htoken, hc])
      simp [Cursor.take, Cursor.plain, hc]
    | escaped c => simp [Cursor.take, Spot.escaping]
    | loneBackslash => exact absurd (List.mem_of_mem_head? htoken) hr
  · have hopen : r.Moves t ⟨.setOpen, false, verbose⟩ ⟨.setStart, false, verbose⟩ [] := .token hrest rfl rfl
    have ht := hopen.paired hr
    obtain ⟨hlevel', hmoves⟩ := hmembers ⟨.setStart, false, verbose⟩ ht fun token htoken => by
      refine ⟨Cursor.nameOf?_eq_none (by simp) token, ?_⟩
      cases token with
      | plain c => simp [Cursor.take, Cursor.plain]
      | escaped c => simp [Cursor.take, Spot.escaping]
      | loneBackslash => exact absurd (List.mem_of_mem_head? htoken) ht
    exact ⟨hlevel.trans hlevel', hopen.trans hmoves⟩

/-! ## Comments -/

theorem leads_skipComment (verbose : List Bool) (start limit : Nat) :
    Leads ⟨.comment, false, verbose⟩ (Cursor.leave ⟨.comment, false, verbose⟩) (skipComment start limit) := by
  induction limit with
  | zero => exact leads_never (never_failAt _ _)
  | succ limit ih =>
    refine leads_take_bind (Cursor.nameOf?_eq_none (by simp)) (never_failAt _ _) fun t ht => ?_
    refine leads_ite (fun hclose => ?_) fun hclose => ?_
    · rw [hclose]
      exact leads_pure _ _
    · have hstay : (⟨.comment, false, verbose⟩ : Cursor).take t = ⟨.comment, false, verbose⟩ := by
        cases t with
        | plain c =>
          have hc : c ≠ ')' := fun hc => hclose (by rw [hc])
          simp [Cursor.take, Cursor.plain, hc]
        | escaped c => rfl
        | loneBackslash => exact absurd rfl ht
      rw [hstay]
      exact ih

/-- A comment of verbose mode ends with its line or with the text. -/
theorem moves_skipLine (verbose : List Bool) (limit : Nat) :
    ∀ (r : Reader) (a : Unit) (s : Reader), r.Paired → r.rest.length < limit → (skipLine limit).run r = .ok (a, s) →
      r.Level s ∧ (r.Moves s ⟨.line, false, verbose⟩ ⟨.items, false, verbose⟩ [] ∨
        s.rest = [] ∧ r.Moves s ⟨.line, false, verbose⟩ ⟨.line, false, verbose⟩ []) := by
  induction limit with
  | zero => exact fun r a s _ hfuel => absurd hfuel (Nat.not_lt_zero _)
  | succ limit ih =>
    intro r a s hr hfuel h
    obtain ⟨⟨found, t⟩, htake, h⟩ := bind_eq_ok.1 h
    cases found with
    | none =>
      cases h
      rcases take_eq_ok htake with ⟨hnil, -, rfl⟩ | ⟨_, _, _, _, hnone, _⟩
      · exact ⟨.refl s, .inr ⟨hnil, .refl _ rfl⟩⟩
      · cases hnone
    | some token =>
      obtain ⟨hpaired, hlevel, hmoves⟩ := take_moves (c := ⟨.line, false, verbose⟩) hr htake
        (Cursor.nameOf?_eq_none (by simp) token)
      simp only at h
      split_ifs at h with hend
      · cases h
        rw [hend] at hmoves
        exact ⟨hlevel, .inl hmoves⟩
      · have hstay : (⟨.line, false, verbose⟩ : Cursor).take token = ⟨.line, false, verbose⟩ := by
          cases token with
          | plain c =>
            have hc : c ≠ '\n' := fun hc => hend (by rw [hc])
            simp [Cursor.take, Cursor.plain, hc]
          | escaped c => rfl
          | loneBackslash => exact absurd rfl hpaired
        have hshorter := (@take_scanned [] _ _ _ htake).2.1
        obtain ⟨hlevel', hmoves'⟩ := ih t a s (hmoves.paired hr) (by omega) h
        rw [hstay] at hmoves
        exact ⟨hlevel.trans hlevel', hmoves'.imp hmoves.trans fun hline => ⟨hline.1, hmoves.trans hline.2⟩⟩

/-! ## Names and conditions -/

/-- Tokens that a cursor does not notice. -/
theorem past_of_stays {tokens : List Token} (h : ∀ t ∈ tokens, c.take t = c ∧ c.nameOf? t = none) :
    c.past tokens = c ∧ c.met tokens = [] := by
  induction tokens with
  | nil => exact ⟨rfl, rfl⟩
  | cons t tokens ih =>
    obtain ⟨htake, hname⟩ := h t List.mem_cons_self
    obtain ⟨hpast, hmet⟩ := ih fun u hu => h u (List.mem_cons_of_mem t hu)
    refine ⟨?_, ?_⟩
    · show (c.take t).past tokens = c
      rw [htake, hpast]
    · rw [Cursor.met, hname, htake, hmet]
      rfl

/-- What stands before a terminator, and the text that is read from it. -/
theorem takeUntil_eq_ok {terminator : Char} {what : String} {limit : Nat} :
    ∀ (taken : List Char) {r s : Reader} {name : String}, (takeUntil terminator what taken limit).run r = .ok (name, s) →
      r.Level s ∧ ∃ tokens, r.rest = tokens ++ .plain terminator :: s.rest ∧ .plain terminator ∉ tokens ∧
        name = String.ofList (taken ++ tokens.flatMap Token.chars) := by
  induction limit with
  | zero => exact fun _ _ _ _ h => absurd h (never_failHere _ _ _ _)
  | succ limit ih =>
    intro taken r s name h
    obtain ⟨⟨found, t⟩, htake, h⟩ := bind_eq_ok.1 h
    rcases take_eq_ok htake with ⟨-, rfl, -⟩ | ⟨token, rest, hrest, -, rfl, rfl⟩
    · exact absurd h (never_ite (never_failHere _) (never_failBack _ _) t name s)
    · simp only at h
      split_ifs at h with hend hempty
      · exact absurd h (never_failBack _ _ _ name s)
      · cases h
        exact ⟨⟨rfl, rfl, rfl⟩, [], by rw [hrest, hend]; rfl, List.not_mem_nil, by rw [List.flatMap_nil, List.append_nil]⟩
      · obtain ⟨hlevel, tokens, htokens, hnone, rfl⟩ := ih _ h
        refine ⟨⟨hlevel.mode, hlevel.outer, hlevel.names⟩, token :: tokens, ?_, ?_, ?_⟩
        · rw [hrest, show rest = _ from htokens]
          rfl
        · rintro (_ | ⟨_, hmem⟩)
          · exact hend rfl
          · exact hnone hmem
        · rw [List.flatMap_cons, List.append_assoc]

theorem nameUntil_eq_ok {terminator : Char} {what name : String} {r s : Reader}
    (h : (nameUntil terminator what).run r = .ok (name, s)) :
    r.Level s ∧ ∃ tokens, r.rest = tokens ++ .plain terminator :: s.rest ∧ .plain terminator ∉ tokens ∧
      name = String.ofList (tokens.flatMap Token.chars) :=
  takeUntil_eq_ok [] h

/-- The name of a group is written in plain characters. -/
theorem groupName_eq_ok {terminator : Char} {name : String} {r s : Reader}
    (h : (groupName terminator).run r = .ok (name, s)) :
    Text.isIdentifier name = true ∧ r.Level s ∧ r.rest = name.toList.map .plain ++ .plain terminator :: s.rest := by
  obtain ⟨⟨found, t⟩, hfound, h⟩ := bind_eq_ok.1 h
  simp only at h
  split_ifs at h with hidentifier
  · cases h
    obtain ⟨hlevel, tokens, hrest, -, rfl⟩ := nameUntil_eq_ok hfound
    refine ⟨hidentifier, hlevel, ?_⟩
    have hplain : ∀ u ∈ tokens, u.chars.map Token.plain = [u] := by
      intro u hu
      have hback : ∀ c ∈ u.chars, c ≠ '\\' := by
        rintro c hc rfl
        refine absurd (Cursor.isNameChar_of_mem hidentifier ?_) (show ¬isNameChar '\\' = true by decide)
        rw [String.toList_ofList]
        exact List.mem_flatMap.2 ⟨u, hu, hc⟩
      cases u with
      | plain c => rfl
      | escaped c => exact absurd rfl (hback '\\' List.mem_cons_self)
      | loneBackslash => exact absurd rfl (hback '\\' List.mem_cons_self)
    rw [hrest, String.toList_ofList, List.map_flatMap, List.flatMap_congr hplain]
    simp
  · exact absurd h (never_failBack _ _ t name s)

/-! ## Options -/

theorem contains_append_singleton (flags : List Char) (d : Char) :
    (flags ++ [d]).contains 'x' = (flags.contains 'x' || decide (d = 'x')) := by
  simp [eq_comm]

theorem ne_of_isFlag {d : Char} (h : isFlag d = true) : d ≠ ')' ∧ d ≠ ':' ∧ d ≠ '-' := by
  refine ⟨?_, ?_, ?_⟩
  all_goals
    rintro rfl
    exact absurd h (by decide)

theorem take_flag {d : Char} {verbose : List Bool} (h : isFlag d = true) :
    (⟨.extended, false, verbose⟩ : Cursor).take (.plain d) = ⟨.flagsOn (d = 'x'), false, verbose⟩ := by
  have hmem : d ∈ ['i', 'L', 'm', 's', 'x', 'a', 't', 'u'] := by simpa [isFlag] using h
  simp only [List.mem_cons, List.not_mem_nil, or_false] at hmem
  rcases hmem with rfl | rfl | rfl | rfl | rfl | rfl | rfl | rfl
  all_goals rfl

/-- Letters of options that are turned on, up to the character behind them. -/
theorem flagsOn_eq_ok (verbose : List Bool) {limit : Nat} :
    ∀ {on on' : List Char} {d close : Char} {r s : Reader}, r.Paired →
      (flagsOn on d limit).run r = .ok ((on', close), s) →
      r.Level s ∧ (close = ')' ∨ close = '-' ∨ close = ':') ∧
        r.Moves s ⟨.flagsOn ((on ++ [d]).contains 'x'), false, verbose⟩
          ((⟨.flagsOn (on'.contains 'x'), false, verbose⟩ : Cursor).plain close) [] := by
  induction limit with
  | zero => exact fun _ h => absurd h (never_failHere _ _ _ _)
  | succ limit ih =>
    intro on on' d close r s hr h
    unfold flagsOn at h
    have h := guard_eq_ok (never_failHere _) h
    have h := guard_eq_ok (never_failHere _) h
    obtain ⟨⟨found, t⟩, htake, h⟩ := bind_eq_ok.1 h
    cases found with
    | none => exact absurd h (never_failHere _ t _ s)
    | some token =>
      obtain ⟨-, hlevel, hmoves⟩ := take_moves (c := ⟨.flagsOn ((on ++ [d]).contains 'x'), false, verbose⟩) hr htake
        (Cursor.nameOf?_eq_none (by simp) token)
      cases token with
      | plain next =>
        simp only at h
        split_ifs at h with hclose hflag
        · cases h
          simp only [Bool.or_eq_true, decide_eq_true_eq, or_assoc] at hclose
          exact ⟨hlevel, hclose, hmoves⟩
        · obtain ⟨hparen, hcolon, hdash⟩ := ne_of_isFlag hflag
          obtain ⟨hlevel', hclose', hmoves'⟩ := ih (hmoves.paired hr) h
          refine ⟨hlevel.trans hlevel', hclose', Reader.Moves.trans hmoves ?_⟩
          have hnext : (⟨.flagsOn ((on ++ [d]).contains 'x'), false, verbose⟩ : Cursor).plain next =
              ⟨.flagsOn ((on ++ [d] ++ [next]).contains 'x'), false, verbose⟩ := by
            rw [contains_append_singleton (on ++ [d]) next]
            simp [Cursor.plain, hparen, hcolon, hdash, hflag]
          rw [Cursor.take, hnext]
          exact hmoves'
        · exact absurd h (never_badFlag _ _ t _ s)
      | escaped next => exact absurd h (never_badFlag _ _ t _ s)
      | loneBackslash => exact absurd h (never_badFlag _ _ t _ s)

/-- Letters of options that are turned off, up to the colon. -/
theorem flagsOff_eq_ok (verbose : List Bool) (on : Bool) {limit : Nat} :
    ∀ {off off' : List Char} {d : Char} {r s : Reader}, r.Paired → (flagsOff off d limit).run r = .ok (off', s) →
      r.Level s ∧ r.Moves s ⟨.flagsOff on ((off ++ [d]).contains 'x'), false, verbose⟩
        ((⟨.items, false, verbose⟩ : Cursor).adjust on (off'.contains 'x')) [] := by
  induction limit with
  | zero => exact fun _ h => absurd h (never_failHere _ _ _ _)
  | succ limit ih =>
    intro off off' d r s hr h
    unfold flagsOff at h
    have h := guard_eq_ok (never_failHere _) h
    obtain ⟨⟨found, t⟩, htake, h⟩ := bind_eq_ok.1 h
    cases found with
    | none => exact absurd h (never_failHere _ t _ s)
    | some token =>
      obtain ⟨-, hlevel, hmoves⟩ := take_moves (c := ⟨.flagsOff on ((off ++ [d]).contains 'x'), false, verbose⟩) hr htake
        (Cursor.nameOf?_eq_none (by simp) token)
      cases token with
      | plain next =>
        simp only at h
        split_ifs at h with hclose hflag
        · cases h
          rw [hclose] at hmoves
          exact ⟨hlevel, hmoves⟩
        · obtain ⟨-, hcolon, -⟩ := ne_of_isFlag hflag
          obtain ⟨hlevel', hmoves'⟩ := ih (hmoves.paired hr) h
          refine ⟨hlevel.trans hlevel', Reader.Moves.trans hmoves ?_⟩
          have hnext : (⟨.flagsOff on ((off ++ [d]).contains 'x'), false, verbose⟩ : Cursor).plain next =
              ⟨.flagsOff on ((off ++ [d] ++ [next]).contains 'x'), false, verbose⟩ := by
            rw [contains_append_singleton (off ++ [d]) next]
            simp [Cursor.plain, hcolon, hflag]
          rw [Cursor.take, hnext]
          exact hmoves'
        · exact absurd h (never_badFlag _ _ t _ s)
      | escaped next => exact absurd h (never_badFlag _ _ t _ s)
      | loneBackslash => exact absurd h (never_badFlag _ _ t _ s)

end UrlRouter.Regex
