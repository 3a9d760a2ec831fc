/-
The named groups of a compiled expression are those that a cursor meets.

Whatever a step reads, a cursor that goes along comes to the right place: to items between two steps, with verbose mode as
it is in the open groups. Only the opening of a named group adds a name, and there the cursor meets it.

Results:
- `Reader.Follows`: a cursor comes to where a state stands, and meets the names that were added.
- `Guides`, `guides_openGroup`: operations behind a parenthesis, which open a group or what looks like one.
- `follows_step`, `follows_steps`: a step of reading takes a cursor along, and so do many.
- `cursor_of_compile`: where an expression compiles, a cursor may end behind it, and has met the names of its groups.
-/
import Mathlib.Tactic
import UrlRouter.Proofs.Regex.Body
import UrlRouter.Proofs.Regex.Leading

namespace UrlRouter.Regex

/-! ## Places between two items -/

/-- for every open group whether verbose mode holds there -/
def Reader.verboseModes (r : Reader) : List Bool := (r.frame :: r.outer).map (·.mode.verbose)

/-- A cursor stands where the state does, between two items. -/
structure Reader.At (r : Reader) (c : Cursor) : Prop where
  /-- a group may just have been opened, and a comment may end with the text -/
  spot : c.spot = .items ∨ (c.spot = .opened ∧ r.outer ≠ [] ∧ r.rest.head? ≠ some (.plain '?')) ∨
    (c.spot = .line ∧ r.rest = [])
  escaped : c.escaped = false
  verbose : c.verbose = r.verboseModes

/-- A cursor that stands at `c` before `s` is read comes to where `s` stands, and meets the names that `s` adds. -/
def Reader.Follows (r s : Reader) (c : Cursor) : Prop :=
  ∃ d met, s.At d ∧ r.Moves s c d met ∧ s.names.map (·.1) = r.names.map (·.1) ++ met

namespace Reader.Follows

variable {r s t : Reader} {c d : Cursor}

theorem behind (hmoves : r.Moves t c d []) (hnames : t.names = r.names) (h : t.Follows s d) : r.Follows s c := by
  obtain ⟨e, met, hat, hrest, hmet⟩ := h
  exact ⟨e, met, hat, hmoves.trans hrest, by rw [hmet, hnames]⟩

theorem of_moves (hmoves : r.Moves s c ⟨.items, false, s.verboseModes⟩ []) (hnames : s.names = r.names) :
    r.Follows s c :=
  ⟨_, [], ⟨.inl rfl, rfl, rfl⟩, hmoves, by rw [hnames, List.append_nil]⟩

theorem of_level (hlevel : r.Level s) (hmoves : r.Moves s c ⟨.items, false, r.verboseModes⟩ []) : r.Follows s c := by
  refine of_moves ?_ hlevel.names
  rwa [verboseModes, hlevel.outer, List.map_cons, hlevel.mode]

end Reader.Follows

/-- the groups around a cursor that went through a parenthesis, while the group is not open yet -/
def Reader.openModes (r : Reader) : List Bool := r.frame.mode.verbose :: r.verboseModes

theorem Reader.Level.openModes {r s : Reader} (h : r.Level s) : s.openModes = r.openModes := by
  rw [Reader.openModes, Reader.openModes, verboseModes, verboseModes, List.map_cons, List.map_cons, h.mode, h.outer]

/-- Where the operation succeeds behind a parenthesis, a cursor that stands at this spot comes along. -/
def Guides (spot : Spot) (x : Read Unit) : Prop :=
  ∀ r s, r.Paired → x.run r = .ok ((), s) → r.Follows s ⟨spot, false, r.openModes⟩

theorem guides_take_bind {spot : Spot} {f : Option Token → Read Unit} (hspot : ∀ soFar, spot ≠ .name soFar)
    (hnone : Never (f none)) (hsome : ∀ t, t ≠ .loneBackslash → Never (f (some t)) ∨
      ∃ next, (∀ verbose, (⟨spot, false, verbose⟩ : Cursor).take t = ⟨next, false, verbose⟩) ∧ Guides next (f (some t))) :
    Guides spot (take? >>= f) := by
  intro r s hr hrun
  obtain ⟨⟨found, t⟩, htake, hf⟩ := bind_eq_ok.1 hrun
  cases found with
  | none => exact absurd hf (hnone t () s)
  | some token =>
    obtain ⟨hpaired, hlevel, hmoves⟩ := take_moves (c := ⟨spot, false, r.openModes⟩) hr htake
      (Cursor.nameOf?_eq_none hspot token)
    rcases hsome token hpaired with hnever | ⟨next, hnext, hguides⟩
    · exact absurd hf (hnever t () s)
    · rw [hnext] at hmoves
      refine .behind hmoves hlevel.names ?_
      rw [← hlevel.openModes]
      exact hguides t s (hmoves.paired hr) hf

theorem guides_accept_bind {spot : Spot} (next : Spot) {letter : Char} {f : Bool → Read Unit}
    (hspot : ∀ soFar, spot ≠ .name soFar)
    (hnext : ∀ verbose, (⟨spot, false, verbose⟩ : Cursor).plain letter = ⟨next, false, verbose⟩)
    (htrue : Guides next (f true)) (hfalse : Guides spot (f false)) : Guides spot (accept letter >>= f) := by
  intro r s hr hrun
  obtain ⟨⟨found, t⟩, haccept, hf⟩ := bind_eq_ok.1 hrun
  rcases accept_moves haccept with ⟨rfl, rfl, -⟩ | ⟨rfl, hlevel, hrest⟩
  · exact hfalse t s hr hf
  · have hmoves : r.Moves t ⟨spot, false, r.openModes⟩ ⟨next, false, r.openModes⟩ [] := by
      rw [← hnext]
      exact .token hrest rfl (Cursor.nameOf?_eq_none hspot _)
    refine .behind hmoves hlevel.names ?_
    rw [← hlevel.openModes]
    exact htrue t s (hmoves.paired hr) hf

/-- An operation that opens a group without a name. -/
theorem guides_opens {x : Read Unit} (hx : ∀ r s, x.run r = .ok ((), s) →
    s.rest = r.rest ∧ s.outer = r.frame :: r.outer ∧ s.frame.mode = r.frame.mode ∧ s.names = r.names) :
    Guides .items x := by
  intro r s _ hrun
  obtain ⟨hrest, houter, hmode, hnames⟩ := hx r s hrun
  refine .of_moves ?_ hnames
  rw [Reader.verboseModes, houter, List.map_cons, hmode]
  exact .refl _ hrest

theorem guides_openFrame (kind : GroupKind) (start : Nat) :
    Guides .items (do openFrame kind start (← mode)) := by
  refine guides_opens fun r s h => ?_
  cases h
  exact ⟨rfl, rfl, rfl, rfl⟩

theorem guides_openLook (start : Nat) (behind negated : Bool) : Guides .items (openLook start behind negated) := by
  refine guides_opens fun r s h => ?_
  rw [run_openLook] at h
  cases h
  exact ⟨rfl, rfl, rfl, rfl⟩

theorem guides_readCondition (start : Nat) : Guides .condition (readCondition start) := by
  intro r s hr h
  obtain ⟨⟨text, t⟩, htext, h⟩ := bind_eq_ok.1 h
  obtain ⟨hlevel, tokens, hrest, hclose, -⟩ := nameUntil_eq_ok htext
  have hopens : Guides .items (do
      let group ← conditionGroup text
      checkLookBehind group
      openFrame (.conditional group none) start (← mode)) := by
    refine guides_opens fun r s h => ?_
    obtain ⟨⟨group, t⟩, hgroup, h⟩ := bind_eq_ok.1 h
    obtain ⟨references, rfl⟩ := conditionGroup_eq_ok hgroup
    obtain ⟨⟨_, t⟩, hcheck, h⟩ := bind_eq_ok.1 h
    obtain rfl := checkLookBehind_eq_ok hcheck
    cases h
    exact ⟨rfl, rfl, rfl, rfl⟩
  have hstay : ∀ u ∈ tokens, (⟨.condition, false, r.openModes⟩ : Cursor).take u = ⟨.condition, false, r.openModes⟩ ∧
      (⟨.condition, false, r.openModes⟩ : Cursor).nameOf? u = none := by
    intro u hu
    refine ⟨?_, Cursor.nameOf?_eq_none (by simp) u⟩
    cases u with
    | plain c =>
      have hc : c ≠ ')' := fun hc => hclose (hc ▸ hu)
      simp [Cursor.take, Cursor.plain, hc]
    | escaped c => rfl
    | loneBackslash => exact absurd (by rw [hrest]; exact List.mem_append_left _ hu) hr
  have hmoves : r.Moves t ⟨.condition, false, r.openModes⟩ ⟨.items, false, r.openModes⟩ [] := by
    obtain ⟨hpast, hmet⟩ := past_of_stays hstay
    refine ⟨tokens ++ [.plain ')'], by rw [hrest, List.append_assoc]; rfl, ?_, ?_⟩
    · rw [Cursor.past_append, hpast]
      rfl
    · rw [Cursor.met_append, hpast, hmet]
      rfl
  refine .behind hmoves hlevel.names ?_
  rw [← hlevel.openModes]
  exact hopens t s (hmoves.paired hr) h

theorem guides_skipComment (start : Nat) : Guides .comment (do skipComment start ((← get).rest.length + 1)) := by
  intro r s hr h
  obtain ⟨hlevel, hmoves⟩ := leads_get_bind (fun t => leads_skipComment r.openModes start _) r () s hr h
  exact .of_level hlevel hmoves

theorem guides_readNamedReference : Guides .reference readNamedReference := by
  intro r s hr h
  obtain ⟨⟨name, t⟩, hname, h⟩ := bind_eq_ok.1 h
  obtain ⟨hidentifier, hlevel, hrest⟩ := groupName_eq_ok hname
  have hstay : ∀ u ∈ name.toList.map Token.plain,
      (⟨.reference, false, r.openModes⟩ : Cursor).take u = ⟨.reference, false, r.openModes⟩ ∧
        (⟨.reference, false, r.openModes⟩ : Cursor).nameOf? u = none := by
    intro u hu
    obtain ⟨c, hc, rfl⟩ := List.mem_map.1 hu
    have hchar := Cursor.isNameChar_of_mem hidentifier hc
    have hclose : c ≠ ')' := by
      rintro rfl
      exact absurd hchar (by decide)
    exact ⟨by simp [Cursor.take, Cursor.plain, hclose, hchar], rfl⟩
  have hmoves : r.Moves t ⟨.reference, false, r.openModes⟩ ⟨.items, false, r.verboseModes⟩ [] := by
    obtain ⟨hpast, hmet⟩ := past_of_stays hstay
    refine ⟨name.toList.map .plain ++ [.plain ')'], by rw [hrest, List.append_assoc]; rfl, ?_, ?_⟩
    · rw [Cursor.past_append, hpast]
      rfl
    · rw [Cursor.met_append, hpast, hmet]
      rfl
  have hquiet : t.Quietly s := by
    refine quiet_get_bind (fun u => ?_) t () s h
    split
    · exact quiet_never (never_failBack _ _)
    · exact quiet_guard (never_failBack _ _) (quiet_bind (quiet_checkLookBehind _) fun _ => quiet_pushBackref _)
  have hsettled : (⟨.items, false, r.verboseModes⟩ : Cursor).Settled := ⟨rfl, by simp⟩
  exact .of_level (hlevel.trans hquiet.level) (hmoves.trans (hquiet.moves hsettled))

theorem guides_named (start : Nat) : Guides (.name []) (do openCapture start (some (← groupName '>'))) := by
  intro r s hr h
  obtain ⟨⟨name, t⟩, hname, h⟩ := bind_eq_ok.1 h
  obtain ⟨hidentifier, hlevel, hrest⟩ := groupName_eq_ok hname
  have h : (openCapture start (some name)).run t = .ok ((), s) := h
  rw [run_openCapture_some] at h
  split at h
  · exact absurd h (never_failBack _ _ t () s)
  · cases h
    have hchars : ∀ c ∈ name.toList, isNameChar c = true := fun c hc => Cursor.isNameChar_of_mem hidentifier hc
    have hback : '\\' ∉ name.toList ++ ['>'] := by
      intro hmem
      rcases List.mem_append.1 hmem with hmem | hmem
      · exact absurd (hchars _ hmem) (by decide)
      · cases List.mem_singleton.1 hmem
    obtain ⟨hafter, hnames⟩ := Cursor.after_name [] hchars r.openModes
    rw [(Cursor.after_ofChars rfl _).1, ofChars_eq_plain _ hback] at hafter
    rw [(Cursor.after_ofChars rfl _).2, ofChars_eq_plain _ hback, List.nil_append, String.ofList_toList] at hnames
    refine ⟨_, [name], ⟨.inl rfl, rfl, ?_⟩, ⟨_, ?_, hafter, hnames⟩, ?_⟩
    · exact hlevel.openModes.symm
    · rw [hrest, List.map_append, List.append_assoc]
      rfl
    · show (t.names ++ [(name, t.groupBound)]).map (·.1) = _
      rw [hlevel.names, List.map_append]
      rfl

/-! ## Groups with options -/

theorem follows_setGlobalFlags {start : Nat} {on : List Char} {r s : Reader}
    (h : (setGlobalFlags start on).run r = .ok ((), s)) :
    r.Follows s ((⟨.items, false, r.verboseModes⟩ : Cursor).adjust (on.contains 'x') false) := by
  unfold setGlobalFlags at h
  rw [StateT.run_bind, StateT.run_get] at h
  simp only [pure_bind] at h
  have h := guard_eq_ok (never_failAt _ _) h
  cases h
  refine .of_moves ?_ rfl
  rw [Cursor.adjust, Reader.verboseModes, List.map_cons]
  exact .refl _ rfl

theorem follows_openOptions {start : Nat} {on off : List Char} {r s : Reader}
    (h : (openOptions start on off).run r = .ok ((), s)) :
    r.Follows s ((⟨.items, false, r.openModes⟩ : Cursor).adjust (on.contains 'x') (off.contains 'x')) := by
  unfold openOptions at h
  have h := guard_eq_ok (never_failBack _ _) h
  have h := guard_eq_ok (never_failBack _ _) h
  cases h
  refine .of_moves ?_ rfl
  rw [Cursor.adjust, Reader.openModes]
  exact .refl _ rfl

/-- the options that are turned off, if a dash announces them -/
def readOff (start limit : Nat) (on : List Char) (close : Char) : Read Unit := do
  let off ←
    if close = '-' then
      match ← take? with
      | none => failHere (.missing "flag")
      | some (.plain d) => if isFlag d then flagsOff [] d limit else badFlag (.plain d) "flag"
      | some t => badFlag t "flag"
    else pure []
  openOptions start on off

/-- what follows the options that are turned on, and the character behind them -/
def readChosen (start limit : Nat) (flags : List Char × Char) : Read Unit :=
  if flags.2 = ')' then setGlobalFlags start flags.1
  else if flags.1.contains 't' then (failBack .globalFlagOn 1 : Read Unit) >>= fun _ => readOff start limit flags.1 flags.2
  else readOff start limit flags.1 flags.2

theorem run_readFlags (start : Nat) (letter : Char) (r : Reader) :
    (readFlags start letter).run r =
      if letter = '-' then (readChosen start (r.rest.length + 1) ([], '-')).run r
      else (flagsOn [] letter (r.rest.length + 1) >>= readChosen start (r.rest.length + 1)).run r := by
  show StateT.run (if letter = '-' then _ else _ : Read Unit) r = _
  split_ifs <;> rfl

theorem follows_readOff {start limit : Nat} {on : List Char} {r s : Reader} (hr : r.Paired)
    (h : (readOff start limit on '-').run r = .ok ((), s)) :
    r.Follows s ⟨.flagsOff (on.contains 'x') false, false, r.openModes⟩ := by
  obtain ⟨⟨found, t⟩, htake, h⟩ := bind_eq_ok.1 (show (take?.run r >>= _) = _ from h)
  cases found with
  | none => exact absurd h (never_first (never_failHere _) t () s)
  | some token =>
    obtain ⟨-, hlevel, hmoves⟩ := take_moves (c := ⟨.flagsOff (on.contains 'x') false, false, r.openModes⟩) hr htake
      (Cursor.nameOf?_eq_none (by simp) token)
    cases token with
    | plain d =>
      simp only at h
      split_ifs at h with hflag
      · obtain ⟨⟨off, u⟩, hoff, h⟩ := bind_eq_ok.1 h
        obtain ⟨-, hcolon, -⟩ := ne_of_isFlag hflag
        have hd : (⟨.flagsOff (on.contains 'x') false, false, r.openModes⟩ : Cursor).take (.plain d) =
            ⟨.flagsOff (on.contains 'x') (([] ++ [d]).contains 'x'), false, r.openModes⟩ := by
          rw [contains_append_singleton]
          simp [Cursor.take, Cursor.plain, hcolon, hflag]
        obtain ⟨hlevel', hmoves'⟩ := flagsOff_eq_ok r.openModes (on.contains 'x') (hmoves.paired hr) hoff
        rw [hd] at hmoves
        have hopened := follows_openOptions h
        rw [(hlevel.trans hlevel').openModes] at hopened
        exact .behind (hmoves.trans hmoves') (hlevel.trans hlevel').names hopened
      · exact absurd h (never_first (never_badFlag _ _) t () s)
    | escaped d => exact absurd h (never_first (never_badFlag _ _) t () s)
    | loneBackslash => exact absurd h (never_first (never_badFlag _ _) t () s)

theorem follows_readChosen {start limit : Nat} {on : List Char} {close : Char} {r s : Reader} (hr : r.Paired)
    (hclose : close = ')' ∨ close = '-' ∨ close = ':') (h : (readChosen start limit (on, close)).run r = .ok ((), s)) :
    r.Follows s ((⟨.flagsOn (on.contains 'x'), false, r.openModes⟩ : Cursor).plain close) := by
  rcases hclose with rfl | rfl | rfl
  · exact follows_setGlobalFlags h
  · rw [readChosen, if_neg (by decide : '-' ≠ ')')] at h
    exact follows_readOff hr (guard_eq_ok (never_failBack _ _) h)
  · rw [readChosen, if_neg (by decide : ':' ≠ ')')] at h
    have hopen : (openOptions start on []).run r = .ok ((), s) := guard_eq_ok (never_failBack _ _) h
    exact follows_openOptions hopen

theorem guides_readFlags (start : Nat) {letter : Char} (hletter : letter ≠ '-') :
    Guides (.flagsOn (letter = 'x')) (readFlags start letter) := by
  intro r s hr h
  rw [run_readFlags, if_neg hletter] at h
  obtain ⟨⟨⟨on, close⟩, t⟩, hon, h⟩ := bind_eq_ok.1 h
  obtain ⟨hlevel, hclose, hmoves⟩ := flagsOn_eq_ok r.openModes hr hon
  have hrest := follows_readChosen (hmoves.paired hr) hclose h
  rw [hlevel.openModes] at hrest
  rw [contains_append_singleton, List.contains_nil, Bool.false_or] at hmoves
  exact .behind hmoves hlevel.names hrest

theorem guides_readFlags_off (start : Nat) : Guides (.flagsOff false false) (readFlags start '-') := by
  intro r s hr h
  rw [run_readFlags, if_pos rfl] at h
  exact follows_readChosen hr (.inr (.inl rfl)) h

/-! ## Groups -/

/-- **A group that is opened**, or what looks like one. -/
theorem guides_openGroup (start : Nat) : Guides .opened (openGroup start) := by
  intro r s hr h
  obtain ⟨⟨extended, t⟩, haccept, hgroup⟩ := bind_eq_ok.1 h
  rcases accept_moves haccept with ⟨rfl, rfl, hhead⟩ | ⟨rfl, hlevel, hrest⟩
  · -- the next character may belong to an item as well as to the opening of a group
    obtain ⟨-, rfl⟩ := Prod.mk.inj (Except.ok.inj ((run_openCapture_none start t).symm.trans hgroup))
    exact ⟨_, [], ⟨.inr (.inl ⟨rfl, List.cons_ne_nil _ _, hhead⟩), rfl, rfl⟩, .refl _ rfl,
      by rw [Reader.captured, List.append_nil, List.append_nil]⟩
  have hmoves : r.Moves t ⟨.opened, false, r.openModes⟩ ⟨.extended, false, r.openModes⟩ [] := .token hrest rfl rfl
  refine .behind hmoves hlevel.names ?_
  rw [← hlevel.openModes]
  refine guides_take_bind (by simp) (never_failHere _) (fun u hu => ?_) t s (hmoves.paired hr) hgroup
  cases u with
  | loneBackslash => exact absurd rfl hu
  | escaped d => exact .inl (never_failBack _ _)
  | plain d =>
  split
  · rename_i heq
    cases heq
  · rename_i heq
    cases heq
    refine .inr ⟨.lettered, fun _ => rfl, guides_accept_bind (.name []) (by simp) (fun _ => rfl) ?_ ?_⟩
    · exact guides_named start
    · refine guides_accept_bind .reference (by simp) (fun _ => rfl) guides_readNamedReference ?_
      exact guides_take_bind (by simp) (never_failHere _) fun v _ => .inl (never_failBack _ _)
  · rename_i heq
    cases heq
    exact .inr ⟨.items, fun _ => rfl, guides_openFrame .plain start⟩
  · rename_i heq
    cases heq
    exact .inr ⟨.comment, fun _ => rfl, guides_skipComment start⟩
  · rename_i heq
    cases heq
    exact .inr ⟨.items, fun _ => rfl, guides_openLook start false false⟩
  · rename_i heq
    cases heq
    exact .inr ⟨.items, fun _ => rfl, guides_openLook start false true⟩
  · rename_i heq
    cases heq
    refine .inr ⟨.behind, fun _ => rfl, guides_take_bind (by simp) (never_failHere _) fun v _ => ?_⟩
    split
    · rename_i heq
      cases heq
    · rename_i heq
      cases heq
      exact .inr ⟨.items, fun _ => rfl, guides_openLook start true false⟩
    · rename_i heq
      cases heq
      exact .inr ⟨.items, fun _ => rfl, guides_openLook start true true⟩
    · exact .inl (never_failBack _ _)
  · rename_i heq
    cases heq
    exact .inr ⟨.condition, fun _ => rfl, guides_readCondition start⟩
  · rename_i heq
    cases heq
    exact .inr ⟨.items, fun _ => rfl, guides_openFrame .atomic start⟩
  · rename_i heq
    cases heq
    dsimp only
    split_ifs with hletter
    · rcases Bool.or_eq_true_iff.1 hletter with hflag | hdash
      · obtain ⟨-, -, hdash⟩ := ne_of_isFlag hflag
        exact .inr ⟨.flagsOn (d = 'x'), fun _ => take_flag hflag, guides_readFlags start hdash⟩
      · obtain rfl := of_decide_eq_true hdash
        exact .inr ⟨.flagsOff false false, fun _ => rfl, guides_readFlags_off start⟩
    · exact .inl (never_failBack _ _)

/-! ## Steps -/

namespace Reader.At

variable {r s : Reader} {c : Cursor}

/-- A character opens an item, also behind a parenthesis. -/
theorem take_plain (h : r.At c) (hr : r.Paired) {d : Char} {rest : List Token} (hrest : r.rest = .plain d :: rest)
    (htake : take?.run r = .ok (some (.plain d), s)) :
    r.Level s ∧ r.Moves s c ((⟨.items, false, r.verboseModes⟩ : Cursor).item d) [] := by
  obtain ⟨hspot, hescaped, hverbose⟩ := h
  obtain ⟨spot, escaped, verbose⟩ := c
  obtain rfl : escaped = false := hescaped
  obtain rfl : verbose = r.verboseModes := hverbose
  rcases hspot with rfl | ⟨rfl, -, hhead⟩ | ⟨-, hnil⟩
  · exact (take_moves hr htake rfl).2
  · have hd : d ≠ '?' := by
      rintro rfl
      exact hhead (by rw [hrest]; rfl)
    obtain ⟨-, hlevel, hmoves⟩ := take_moves (c := ⟨.opened, false, r.verboseModes⟩) hr htake rfl
    rw [Cursor.take, Cursor.plain, if_neg hd] at hmoves
    exact ⟨hlevel, hmoves⟩
  · rw [hrest] at hnil
    cases hnil

theorem take_escaped (h : r.At c) (hr : r.Paired) {d : Char} {rest : List Token} (hrest : r.rest = .escaped d :: rest)
    (htake : take?.run r = .ok (some (.escaped d), s)) :
    r.Level s ∧ r.Moves s c ⟨.items, false, r.verboseModes⟩ [] := by
  obtain ⟨hspot, hescaped, hverbose⟩ := h
  obtain ⟨spot, escaped, verbose⟩ := c
  obtain rfl : escaped = false := hescaped
  obtain rfl : verbose = r.verboseModes := hverbose
  rcases hspot with rfl | ⟨rfl, -⟩ | ⟨-, hnil⟩
  · exact (take_moves hr htake rfl).2
  · exact (take_moves hr htake rfl).2
  · rw [hrest] at hnil
    cases hnil

end Reader.At

theorem item_eq_items {c : Cursor} {d : Char} (hopen : d ≠ '(') (hclose : d ≠ ')') (hset : d ≠ '[')
    (hcomment : ¬(d = '#' ∧ c.isVerbose = true)) : c.item d = { c with spot := .items } := by
  rw [Cursor.item, if_neg hopen, if_neg hclose, if_neg hset, if_neg (by simpa using hcomment)]

theorem isVerbose_verboseModes (spot : Spot) (r : Reader) :
    (⟨spot, false, r.verboseModes⟩ : Cursor).isVerbose = r.frame.mode.verbose := rfl

theorem Reader.Level.verboseModes {r s : Reader} (h : r.Level s) : s.verboseModes = r.verboseModes := by
  rw [Reader.verboseModes, Reader.verboseModes, List.map_cons, List.map_cons, h.mode, h.outer]

theorem follows_readItem {start : Nat} {d : Char} {r s : Reader} (hr : r.Paired) (hclose : d ≠ ')')
    (hcomment : ¬(d = '#' ∧ r.frame.mode.verbose = true)) (h : (readItem start d).run r = .ok ((), s)) :
    r.Follows s ((⟨.items, false, r.verboseModes⟩ : Cursor).item d) := by
  have hquiet : ∀ x : Read Unit, TakesQuiet x → d ≠ '(' → d ≠ '[' → x.run r = .ok ((), s) →
      r.Follows s ((⟨.items, false, r.verboseModes⟩ : Cursor).item d) := by
    intro x hx hopen hset hrun
    rw [item_eq_items (c := ⟨.items, false, r.verboseModes⟩) hopen hclose hset hcomment]
    exact .of_level (hx r () s hrun).level ((hx r () s hrun).moves ⟨rfl, by simp⟩)
  unfold readItem at h
  split at h
  · obtain ⟨hlevel, hmoves⟩ := moves_readSet r.verboseModes start hr h
    exact .of_level hlevel hmoves
  · exact hquiet _ (quiet_quantify _ _ _) (by decide) (by decide) h
  · exact hquiet _ (quiet_quantify _ _ _) (by decide) (by decide) h
  · exact hquiet _ (quiet_quantify _ _ _) (by decide) (by decide) h
  · exact hquiet _ (quiet_readBraces _) (by decide) (by decide) h
  · exact hquiet _ (quiet_pushTest _) (by decide) (by decide) h
  · exact guides_openGroup start r s hr h
  · exact hquiet _ (quiet_pushAnchor _) (by decide) (by decide) h
  · exact hquiet _ (quiet_pushAnchor _) (by decide) (by decide) h
  · rename_i hset _ _ _ _ _ hopen _ _
    exact hquiet _ (quiet_pushTest _) (fun heq => hopen heq) (fun heq => hset heq) h

theorem follows_readPlain {start : Nat} {d : Char} {r s : Reader} (hr : r.Paired) (hclose : d ≠ ')')
    (h : (readPlain start d).run r = .ok ((), s)) :
    r.Follows s ((⟨.items, false, r.verboseModes⟩ : Cursor).item d) := by
  rw [run_readPlain] at h
  split_ifs at h with hblank hcomment
  · cases h
    have hd : isPatternBlank d = true := (Bool.and_eq_true_iff.1 hblank).2
    have hne : ∀ e, isPatternBlank e = false → d ≠ e := fun e he heq => by rw [heq, he] at hd; cases hd
    rw [item_eq_items (hne _ (by decide)) hclose (hne _ (by decide)) fun hhash => hne '#' (by decide) hhash.1]
    exact .of_level (.refl _) (.refl _ rfl)
  · obtain ⟨hverbose, hhash⟩ := Bool.and_eq_true_iff.1 hcomment
    obtain rfl := of_decide_eq_true hhash
    have hline : (⟨.items, false, r.verboseModes⟩ : Cursor).item '#' = ⟨.line, false, r.verboseModes⟩ := by
      rw [Cursor.item, if_neg (by decide), if_neg (by decide), if_neg (by decide), if_pos]
      rw [isVerbose_verboseModes, hverbose]
      rfl
    rw [hline]
    obtain ⟨hlevel, hmoves | ⟨hnil, hmoves⟩⟩ := moves_skipLine r.verboseModes _ r () s hr (Nat.lt_succ_self _) h
    · exact .of_level hlevel hmoves
    · exact ⟨_, [], ⟨.inr (.inr ⟨rfl, hnil⟩), rfl, hlevel.verboseModes.symm⟩, hmoves,
        by rw [hlevel.names, List.append_nil]⟩
  · refine follows_readItem hr hclose (fun hhash => hcomment ?_) h
    rw [hhash.2, hhash.1]
    rfl

/-- A bar parts the innermost group, or the branches of a conditional. -/
theorem follows_nextAlternative {r s : Reader} {c : Cursor} {rest : List Token} (hr : r.Paired) (hc : r.At c)
    (hrest : r.rest = .plain '|' :: rest) (h : nextAlternative.run r = .ok ((), s)) : r.Follows s c := by
  have htaken : ∀ found u, take?.run r = .ok (found, u) →
      r.Level u ∧ r.Moves u c ⟨.items, false, r.verboseModes⟩ [] := fun found u htake =>
    hc.take_plain hr hrest (take_of_cons hrest htake ▸ htake)
  by_cases hconditional : ∃ group present, r.frame.kind = .conditional group present
  · obtain ⟨group, present, hkind⟩ := hconditional
    cases present with
    | some present => exact absurd h (run_nextAlternative_full hkind)
    | none =>
      rw [run_nextAlternative_otherwise hkind] at h
      obtain ⟨⟨found, u⟩, htake, h⟩ := bind_eq_ok.1 h
      cases h
      obtain ⟨hlevel, hmoves⟩ := htaken found u htake
      exact .of_level ⟨hlevel.mode, hlevel.outer, hlevel.names⟩ hmoves
  · rw [run_nextAlternative_parted fun group present hkind => hconditional ⟨group, present, hkind⟩] at h
    obtain ⟨⟨found, u⟩, htake, h⟩ := bind_eq_ok.1 h
    cases h
    obtain ⟨hlevel, hmoves⟩ := htaken found u htake
    exact .of_level ⟨hlevel.mode, hlevel.outer, hlevel.names⟩ hmoves

/-- A parenthesis closes the innermost group, and the modes around it hold again. -/
theorem follows_closeGroup {r s : Reader} {c : Cursor} {rest : List Token} (hr : r.Paired) (hc : r.At c)
    (hrest : r.rest = .plain ')' :: rest) (h : closeGroup.run r = .ok ((), s)) : r.Follows s c := by
  cases houter : r.outer with
  | nil =>
    unfold closeGroup at h
    rw [StateT.run_bind, StateT.run_get] at h
    simp only [pure_bind, houter] at h
    exact absurd h (never_ite (never_throw _) (never_failHere _) r () s)
  | cons around outer =>
    rw [run_closeGroup houter] at h
    obtain ⟨⟨found, u⟩, htake, h⟩ := bind_eq_ok.1 h
    cases h
    obtain ⟨hlevel, hmoves⟩ := hc.take_plain hr hrest (take_of_cons hrest htake ▸ htake)
    obtain ⟨widths, behindFrom, -, heq⟩ := close_eq u around outer
    rw [heq]
    refine .of_moves ?_ hlevel.names
    rw [Reader.verboseModes, houter] at hmoves
    exact hmoves

/-- **A step of reading takes a cursor along.** -/
theorem follows_step {r s : Reader} {c : Cursor} {t : Token} {rest : List Token} (hr : r.Paired) (hc : r.At c)
    (hrest : r.rest = t :: rest) (h : step.run r = .ok ((), s)) : r.Follows s c := by
  rw [run_step_cons hrest] at h
  split_ifs at h with hbar hclose
  · exact follows_nextAlternative hr hc (hbar ▸ hrest) h
  · exact follows_closeGroup hr hc (hclose ▸ hrest) h
  · obtain ⟨⟨found, u⟩, htake, hread⟩ := bind_eq_ok.1 h
    obtain rfl := take_of_cons hrest htake
    cases t with
    | plain d =>
      obtain ⟨hlevel, hmoves⟩ := hc.take_plain hr hrest htake
      have hitem := follows_readPlain (hmoves.paired hr) (fun hd => hclose (by rw [hd])) hread
      rw [hlevel.verboseModes] at hitem
      exact .behind hmoves hlevel.names hitem
    | escaped d =>
      obtain ⟨hlevel, hmoves⟩ := hc.take_escaped hr hrest htake
      have hquiet := quiet_readEscape d u () s hread
      exact .of_level (hlevel.trans hquiet.level) (hmoves.trans (hquiet.moves ⟨rfl, by simp⟩))
    | loneBackslash => exact absurd hread (never_failAt _ _ u () s)

/-- Many steps take a cursor along, one after the other. -/
theorem follows_steps (n : Nat) : ∀ {r s : Reader} {c : Cursor}, r.Paired → r.At c → (steps n).run r = .ok ((), s) →
    r.Follows s c := by
  induction n with
  | zero =>
    intro r s c _ hc h
    cases h
    exact ⟨c, [], hc, .refl c rfl, (List.append_nil _).symm⟩
  | succ n ih =>
    intro r s c hr hc h
    rcases steps_eq_ok h with ⟨-, rfl⟩ | ⟨t, rest, u, hrest, hstep, hsteps⟩
    · exact ⟨c, [], hc, .refl c rfl, (List.append_nil _).symm⟩
    · obtain ⟨d, met, hd, hmoves, hnames⟩ := follows_step hr hc hrest hstep
      obtain ⟨e, met', he, hmoves', hnames'⟩ := ih (hmoves.paired hr) hd hsteps
      exact ⟨e, met ++ met', he, hmoves.trans hmoves', by rw [hnames', hnames, List.append_assoc]⟩

/-! ## Whole expressions -/

theorem ofReader_outer {r : Reader} {regex : Regex} (h : ofReader r = .ok regex) : r.outer = [] := by
  unfold ofReader at h
  by_contra hne
  rw [if_neg (by simpa using hne)] at h
  cases h

/-- What a compiled expression was read from. -/
theorem finish_of_compile {text : String} {regex : Regex} (h : compile text = .ok regex) :
    ∃ s, Reader.finish {} text = .ok s ∧ s.outer = [] ∧ regex.names = s.names := by
  obtain ⟨s, hfinish, hreader⟩ := bind_eq_ok.1 (show (Reader.finish {} text >>= ofReader) = _ from h)
  exact ⟨s, hfinish, ofReader_outer hreader, ofReader_names hreader⟩

/-- **The named groups of a compiled expression are those that a cursor meets** on its way through the text, and the
cursor ends between two items with no group open. -/
theorem cursor_of_compile {text : String} {regex : Regex} (h : compile text = .ok regex) :
    (({} : Cursor).after text.toList).Ends ∧ ({} : Cursor).names text.toList = regex.names.map (·.1) := by
  obtain ⟨s, hfinish, houter, hnames⟩ := finish_of_compile h
  obtain ⟨hnil, hpaired⟩ := rest_of_finish hfinish houter
  obtain ⟨d, met, ⟨hspot, hescaped, hverbose⟩, ⟨taken, htaken, rfl, rfl⟩, hmet⟩ :=
    follows_steps _ (r := .facingText text) (c := {}) hpaired ⟨.inl rfl, rfl, rfl⟩ (steps_of_finish hfinish).2
  rw [hnil, List.append_nil] at htaken
  obtain rfl : Token.ofChars text.toList = taken := htaken
  rw [(Cursor.after_ofChars rfl _).1, (Cursor.after_ofChars rfl _).2, hnames, hmet]
  refine ⟨⟨?_, hescaped, s.frame.mode.verbose, ?_⟩, rfl⟩
  · rcases hspot with hspot | ⟨-, hopen, -⟩ | ⟨hspot, -⟩
    · exact .inl hspot
    · exact absurd houter hopen
    · exact .inr hspot
  · rw [hverbose, Reader.verboseModes, houter]
    rfl

theorem head?_ne_question_of_compile {text : String} {regex : Regex} (h : compile text = .ok regex) :
    text.toList.head? ≠ some '?' := by
  intro hhead
  obtain ⟨rest, hrest⟩ := List.head?_eq_some_iff.1 hhead
  obtain ⟨s, hfinish, -⟩ := finish_of_compile h
  refine head?_ne_question_of_finish hfinish ?_
  rw [hrest, ofChars_cons (by decide)]
  rfl

end UrlRouter.Regex
