/-
Where the groups of an expression open and close, character by character.

A cursor goes through the text of an expression and only keeps what decides whether a parenthesis opens a group: whether
it stands among items, within a set, a comment, the name of a group or its options, and for every open group whether
verbose mode holds there. It knows nothing of items, references and limits, so that it goes through texts that do not
compile as well. What it meets depends on the text alone, which allows two texts to be gone through side by side.

Results:
- `Settled.after`: quiet characters go unnoticed where no group opens.
- `after_naming`, `after_group`: a group, with or without a name, and with its name where parentheses open groups.
- `after_under`, `names_nested`: groups around everything, and around the rest of a text, make no difference.
- `opens_of_names`: a name that is met is written in the text, between the characters that open such a group.
-/
import Mathlib.Tactic
import UrlRouter.Regex.Reader.Group
import UrlRouter.Proofs.Regex.Reading

namespace UrlRouter.Regex

/-! ## Cursors -/

/-- what the next character is part of -/
inductive Spot where
  | items
  /-- behind a parenthesis that opened a group -/
  | opened
  /-- behind `(?` -/
  | extended
  /-- behind `(?P` -/
  | lettered
  /-- behind `(?<` -/
  | behind
  /-- the name of a group, as far as it was read -/
  | name (soFar : List Char)
  /-- the name that a reference gives -/
  | reference
  /-- the group that a conditional asks for -/
  | condition
  | comment
  /-- a comment of verbose mode -/
  | line
  /-- options that are turned on, and whether verbose mode is among them -/
  | flagsOn (verbose : Bool)
  /-- options that are turned off, behind those turned on -/
  | flagsOff (on off : Bool)
  /-- behind the bracket of a set -/
  | setOpen
  /-- behind the circumflex of a set, where a bracket is a member -/
  | setStart
  | set
  /-- no expression goes on like this -/
  | lost
  deriving DecidableEq, Repr

/-- what an escaped character leads to -/
def Spot.escaping : Spot → Spot
  | .items | .opened => .items
  | .setOpen | .setStart | .set => .set
  | .condition => .condition
  | .comment => .comment
  | .line => .line
  | _ => .lost

/-- the characters read since the parenthesis that may open a group with a name -/
def Spot.trail : Spot → List Char
  | .opened => ['(']
  | .extended => ['(', '?']
  | .lettered => ['(', '?', 'P']
  | .name soFar => '(' :: '?' :: 'P' :: '<' :: soFar
  | _ => []

/-- what a group begins with behind its parenthesis, when it has this name -/
def naming (name : String) : List Char := '?' :: 'P' :: '<' :: (name.toList ++ ['>'])

/-- A group of this name is opened in the text, as it is written. -/
def Opens (name : String) (text : List Char) : Prop := '(' :: naming name <:+: text

def isNameChar (c : Char) : Bool := Text.isIdentifierStart c || Text.isIdentifierPart c

/-- A cursor between two characters: whether a backslash came right before, and whether verbose mode holds in the open
groups, the innermost first. -/
structure Cursor where
  spot : Spot := .items
  escaped : Bool := false
  verbose : List Bool := [false]
  deriving DecidableEq, Repr

namespace Cursor

def lose (s : Cursor) : Cursor := { s with spot := .lost }

def isVerbose (s : Cursor) : Bool := s.verbose.head?.getD false

/-- behind the parenthesis that closes the innermost group -/
def leave (s : Cursor) : Cursor :=
  match s.verbose with
  | _ :: outer :: rest => { s with spot := .items, verbose := outer :: rest }
  | _ => s.lose

/-- with verbose mode turned on or off in the innermost group -/
def adjust (s : Cursor) (on off : Bool) : Cursor :=
  match s.verbose with
  | verbose :: rest => { s with verbose := ((verbose || on) && !off) :: rest }
  | [] => s

/-- behind a character where an item may begin -/
def item (s : Cursor) (c : Char) : Cursor :=
  if c = '(' then { s with spot := .opened, verbose := s.isVerbose :: s.verbose }
  else if c = ')' then s.leave
  else if c = '[' then { s with spot := .setOpen }
  else if c = '#' && s.isVerbose then { s with spot := .line }
  else { s with spot := .items }

/-- behind a character that is neither a backslash nor escaped -/
def plain (s : Cursor) (c : Char) : Cursor :=
  match s.spot with
  | .items => s.item c
  | .opened => if c = '?' then { s with spot := .extended } else s.item c
  | .extended =>
    if c = 'P' then { s with spot := .lettered }
    else if c = ':' || c = '=' || c = '!' || c = '>' then { s with spot := .items }
    else if c = '#' then { s with spot := .comment }
    else if c = '<' then { s with spot := .behind }
    else if c = '(' then { s with spot := .condition }
    else if c = '-' then { s with spot := .flagsOff false false }
    else if isFlag c then { s with spot := .flagsOn (c = 'x') }
    else s.lose
  | .lettered =>
    if c = '<' then { s with spot := .name [] }
    else if c = '=' then { s with spot := .reference }
    else s.lose
  | .behind => if c = '=' || c = '!' then { s with spot := .items } else s.lose
  | .name soFar =>
    if c = '>' then { s with spot := .items }
    else if isNameChar c then { s with spot := .name (soFar ++ [c]) }
    else s.lose
  | .reference => if c = ')' then s.leave else if isNameChar c then s else s.lose
  | .condition => if c = ')' then { s with spot := .items } else s
  | .comment => if c = ')' then s.leave else s
  | .line => if c = '\n' then { s with spot := .items } else s
  | .flagsOn verbose =>
    if c = ')' then s.leave.adjust verbose false
    else if c = ':' then ({ s with spot := .items } : Cursor).adjust verbose false
    else if c = '-' then { s with spot := .flagsOff verbose false }
    else if isFlag c then { s with spot := .flagsOn (verbose || c = 'x') }
    else s.lose
  | .flagsOff on off =>
    if c = ':' then ({ s with spot := .items } : Cursor).adjust on off
    else if isFlag c then { s with spot := .flagsOff on (off || c = 'x') }
    else s.lose
  | .setOpen => { s with spot := if c = '^' then .setStart else .set }
  | .setStart => { s with spot := .set }
  | .set => if c = ']' then { s with spot := .items } else s
  | .lost => s

def next (s : Cursor) (c : Char) : Cursor :=
  if s.escaped then { s with spot := s.spot.escaping, escaped := false }
  else if c = '\\' then { s with spot := s.spot.escaping, escaped := true }
  else s.plain c

/-- the name of a group that is complete with this character -/
def name? (s : Cursor) (c : Char) : Option String :=
  match s.spot with
  | .name soFar => if !s.escaped && c = '>' then some (String.ofList soFar) else none
  | _ => none

def after (s : Cursor) (text : List Char) : Cursor := text.foldl next s

/-- the names of groups that are met in a text -/
def names (s : Cursor) : List Char → List String
  | [] => []
  | c :: rest => (s.name? c).toList ++ (s.next c).names rest

/-- An expression may end here. -/
def Ends (s : Cursor) : Prop := (s.spot = .items ∨ s.spot = .line) ∧ s.escaped = false ∧ ∃ verbose, s.verbose = [verbose]

theorem after_cons (s : Cursor) (c : Char) (text : List Char) : s.after (c :: text) = (s.next c).after text := rfl

theorem after_append (s : Cursor) (a b : List Char) : s.after (a ++ b) = (s.after a).after b := List.foldl_append ..

theorem names_append (s : Cursor) (a b : List Char) : s.names (a ++ b) = s.names a ++ (s.after a).names b := by
  induction a generalizing s with
  | nil => rfl
  | cons c a ih => rw [List.cons_append, names, names, ih, List.append_assoc, after_cons]

/-- What is lost stays lost. -/
theorem next_lost {s : Cursor} (h : s.spot = .lost) (c : Char) : (s.next c).spot = .lost := by
  obtain ⟨spot, escaped, verbose⟩ := s
  obtain rfl : spot = .lost := h
  unfold next
  split_ifs
  · rfl
  · rfl
  · rfl

theorem after_lost {s : Cursor} (h : s.spot = .lost) (text : List Char) : (s.after text).spot = .lost := by
  induction text generalizing s with
  | nil => exact h
  | cons c text ih => exact ih (next_lost h c)

/-! ## Groups that are seen and groups that are not -/

/-- A parenthesis opens a group here. -/
def Sees (s : Cursor) : Prop := s.escaped = false ∧ (s.spot = .items ∨ s.spot = .opened)

instance (s : Cursor) : Decidable s.Sees := inferInstanceAs (Decidable (_ ∧ _))

/-- within a group that was opened here -/
def enter (s : Cursor) : Cursor := { s with spot := .items, verbose := s.isVerbose :: s.verbose }

/-- behind a parenthesis and what it opens, if it opens a group -/
def inside (s : Cursor) : Cursor := if s.Sees then s.enter else s.next '('

/-- a character that goes unnoticed among items and within sets, comments and conditions -/
def Quiet (c : Char) : Prop := c ∉ ['(', ')', '[', ']', '\\', '#', '\n']

instance : DecidablePred Quiet := fun c => inferInstanceAs (Decidable (c ∉ _))

/-- what remains as it is at a quiet character -/
structure Settled (s : Cursor) : Prop where
  escaped : s.escaped = false
  spot : s.spot ∈ [.items, .condition, .comment, .line, .set, .lost]

theorem Settled.next {s : Cursor} (h : s.Settled) {c : Char} (hc : Quiet c) : s.next c = s ∧ s.name? c = none := by
  obtain ⟨spot, escaped, verbose⟩ := s
  obtain ⟨rfl, hspot⟩ := h
  simp only [Quiet, List.mem_cons, List.not_mem_nil, or_false, not_or] at hc hspot
  obtain ⟨hopen, hclose, hbracket, hend, hback, hhash, hline⟩ := hc
  rcases hspot with rfl | rfl | rfl | rfl | rfl | rfl
  all_goals exact ⟨by simp [Cursor.next, plain, item, *], rfl⟩

theorem Settled.after {s : Cursor} (h : s.Settled) {text : List Char} (ht : ∀ c ∈ text, Quiet c) :
    s.after text = s ∧ s.names text = [] := by
  induction text with
  | nil => exact ⟨rfl, rfl⟩
  | cons c text ih =>
    obtain ⟨hnext, hname⟩ := h.next (ht c List.mem_cons_self)
    obtain ⟨hafter, hnames⟩ := ih fun d hd => ht d (List.mem_cons_of_mem c hd)
    rw [after_cons, names, hnext, hname, hafter, hnames]
    exact ⟨rfl, rfl⟩

/-- Where a parenthesis opens no group, it leads to a place where quiet characters go unnoticed. -/
theorem settled_of_not_sees {s : Cursor} (h : ¬s.Sees) : (s.next '(').Settled := by
  obtain ⟨spot, escaped, verbose⟩ := s
  cases escaped with
  | true =>
    refine ⟨rfl, ?_⟩
    show spot.escaping ∈ _
    cases spot <;> simp [Spot.escaping]
  | false =>
    have hback : ('(' : Char) ≠ '\\' := by decide
    have hflag : isFlag '(' = false := by decide
    have hname : isNameChar '(' = false := by decide
    cases spot with
    | items => exact absurd ⟨rfl, .inl rfl⟩ h
    | opened => exact absurd ⟨rfl, .inr rfl⟩ h
    | _ => constructor <;> simp [Cursor.next, plain, lose, hflag, hname]

theorem name?_open (s : Cursor) : s.name? '(' = none := by
  unfold name?
  split
  · simp
  · rfl

theorem Settled.name? {s : Cursor} (h : s.Settled) (c : Char) : s.name? c = none := by
  obtain ⟨spot, escaped, verbose⟩ := s
  obtain ⟨rfl, hspot⟩ := h
  cases spot with
  | name soFar => simp at hspot
  | _ => rfl

theorem settled_inside (s : Cursor) : s.inside.Settled := by
  unfold inside
  split_ifs with hsees
  · exact ⟨hsees.1, List.mem_cons_self⟩
  · exact settled_of_not_sees hsees

/-- a parenthesis that opens a group -/
theorem next_of_sees {s : Cursor} (h : s.Sees) :
    s.next '(' = ⟨.opened, false, s.isVerbose :: s.verbose⟩ := by
  obtain ⟨spot, escaped, verbose⟩ := s
  obtain ⟨rfl, rfl | rfl⟩ := h
  · rfl
  · rfl

/-- Behind a parenthesis, only a question mark is not the first character of an item. -/
theorem next_inside {s : Cursor} {c : Char} (hc : c ≠ '?') :
    (s.next '(').next c = s.inside.next c ∧ (s.next '(').name? c = none := by
  unfold inside
  split_ifs with hsees
  · rw [next_of_sees hsees]
    refine ⟨?_, rfl⟩
    have hitem : ∀ verbose, (⟨.opened, false, verbose⟩ : Cursor).item c = (⟨.items, false, verbose⟩ : Cursor).item c :=
      fun verbose => by unfold item leave lose; rfl
    unfold next plain enter
    simp only [hsees.1, if_neg hc, hitem, Spot.escaping]
  · exact ⟨rfl, (settled_of_not_sees hsees).name? c⟩

/-! ## Groups with a name -/

/-- The characters of a name are quiet. -/
theorem quiet_of_isNameChar {c : Char} (h : isNameChar c = true) : Quiet c ∧ c ≠ '>' := by
  have hne : ∀ d, isNameChar d = false → c ≠ d := fun d hd heq => by rw [heq, hd] at h; cases h
  refine ⟨fun hc => ?_, hne _ (by decide)⟩
  simp only [List.mem_cons, List.not_mem_nil, or_false] at hc
  rcases hc with rfl | rfl | rfl | rfl | rfl | rfl | rfl
  all_goals exact absurd h (by decide)

theorem isNameChar_of_mem {name : String} (h : Text.isIdentifier name = true) {c : Char} (hc : c ∈ name.toList) :
    isNameChar c = true := by
  unfold Text.isIdentifier at h
  cases hname : name.toList with
  | nil =>
    rw [hname] at hc
    cases hc
  | cons d rest =>
    rw [hname] at h hc
    obtain ⟨hstart, hrest⟩ := Bool.and_eq_true_iff.1 h
    rcases List.mem_cons.1 hc with rfl | hc
    · exact Bool.or_eq_true_iff.2 (.inl hstart)
    · exact Bool.or_eq_true_iff.2 (.inr (List.all_eq_true.1 hrest c hc))

theorem after_name (soFar : List Char) {name : List Char} (h : ∀ c ∈ name, isNameChar c = true) (verbose : List Bool) :
    (⟨.name soFar, false, verbose⟩ : Cursor).after (name ++ ['>']) = ⟨.items, false, verbose⟩ ∧
      (⟨.name soFar, false, verbose⟩ : Cursor).names (name ++ ['>']) = [String.ofList (soFar ++ name)] := by
  induction name generalizing soFar with
  | nil => exact ⟨rfl, by rw [List.append_nil]; rfl⟩
  | cons c name ih =>
    have hc := h c List.mem_cons_self
    obtain ⟨hquiet, hend⟩ := quiet_of_isNameChar hc
    have hback : c ≠ '\\' := fun heq => hquiet (by simp [heq])
    have hnext : (⟨.name soFar, false, verbose⟩ : Cursor).next c = ⟨.name (soFar ++ [c]), false, verbose⟩ := by
      simp [next, plain, hback, hend, hc]
    have hnone : (⟨.name soFar, false, verbose⟩ : Cursor).name? c = none := by simp [name?, hend]
    obtain ⟨hafter, hnames⟩ := ih (soFar ++ [c]) fun d hd => h d (List.mem_cons_of_mem c hd)
    rw [List.cons_append, after_cons, names, hnext, hnone, hafter, hnames, List.append_assoc]
    exact ⟨rfl, rfl⟩

/-- **A group with a name** is met where parentheses open groups, and goes unnoticed everywhere else. -/
theorem after_naming (s : Cursor) {name : String} (h : Text.isIdentifier name = true) :
    (s.next '(').after (naming name) = s.inside ∧
      (s.next '(').names (naming name) = if s.Sees then [name] else [] := by
  have hchars : ∀ c ∈ name.toList, isNameChar c = true := fun c hc => isNameChar_of_mem h hc
  unfold inside
  split_ifs with hsees
  · rw [next_of_sees hsees]
    have hname := after_name [] hchars (s.isVerbose :: s.verbose)
    rw [List.nil_append, String.ofList_toList] at hname
    refine ⟨hname.1.trans ?_, hname.2⟩
    rw [enter, ← hsees.1]
  · refine (settled_of_not_sees hsees).after fun c hc => ?_
    simp only [naming, List.mem_cons, List.mem_append, List.not_mem_nil, or_false] at hc
    rcases hc with rfl | rfl | rfl | hc | rfl
    · decide
    · decide
    · decide
    · exact (quiet_of_isNameChar (hchars c hc)).1
    · decide

/-- **A group around a text**, with or without a name. The text does not begin as if it were the name. -/
theorem after_group (s : Cursor) (name : Option String) (hname : ∀ n ∈ name, Text.isIdentifier n = true)
    {body : List Char} (hne : body ≠ []) (hbody : body.head? ≠ some '?') :
    s.after ('(' :: (name.elim [] naming ++ body)) = s.inside.after body ∧
      s.names ('(' :: (name.elim [] naming ++ body)) = (if s.Sees then name.toList else []) ++ s.inside.names body := by
  rw [after_cons, names, name?_open]
  cases name with
  | none =>
    obtain ⟨c, body, rfl⟩ := List.exists_cons_of_ne_nil hne
    have hc : c ≠ '?' := fun hc => hbody (by rw [hc]; rfl)
    obtain ⟨hnext, hnone⟩ := next_inside (s := s) hc
    have hnone' : s.inside.name? c = none := (settled_inside s).name? c
    simp only [Option.elim_none, List.nil_append, after_cons, names, hnext, hnone, hnone', Option.toList_none, ite_self]
    trivial
  | some n =>
    obtain ⟨hafter, hnames⟩ := after_naming s (hname n rfl)
    rw [Option.elim_some, after_append, names_append, hafter, hnames]
    exact ⟨rfl, rfl⟩

/-! ## Groups around everything -/

/-- with more groups open around it -/
def under (s : Cursor) (outer : List Bool) : Cursor := { s with verbose := s.verbose ++ outer }

@[simp]
theorem under_nil (s : Cursor) : s.under [] = s := by rw [under, List.append_nil]

theorem name?_under (s : Cursor) (outer : List Bool) (c : Char) : (s.under outer).name? c = s.name? c := rfl

theorem leave_under {s : Cursor} (outer : List Bool) (h : s.leave.spot ≠ .lost) :
    (s.under outer).leave = s.leave.under outer ∧ s.leave.verbose ≠ [] := by
  obtain ⟨spot, escaped, verbose⟩ := s
  match verbose with
  | [] => exact absurd rfl h
  | [_] => exact absurd rfl h
  | _ :: around :: rest => exact ⟨rfl, List.cons_ne_nil _ _⟩

theorem adjust_under {s : Cursor} (hopen : s.verbose ≠ []) (outer : List Bool) (on off : Bool) :
    (s.under outer).adjust on off = (s.adjust on off).under outer ∧ (s.adjust on off).verbose ≠ [] := by
  obtain ⟨spot, escaped, verbose⟩ := s
  cases verbose with
  | nil => exact absurd rfl hopen
  | cons innermost rest => exact ⟨rfl, List.cons_ne_nil _ _⟩

@[simp]
theorem spot_adjust (s : Cursor) (on off : Bool) : (s.adjust on off).spot = s.spot := by
  unfold adjust
  split
  · rfl
  · rfl

theorem item_under {s : Cursor} (hopen : s.verbose ≠ []) (outer : List Bool) {c : Char} (h : (s.item c).spot ≠ .lost) :
    (s.under outer).item c = (s.item c).under outer ∧ (s.item c).verbose ≠ [] := by
  have hverbose : (s.under outer).isVerbose = s.isVerbose := by
    obtain ⟨innermost, rest, hverbose⟩ := List.exists_cons_of_ne_nil hopen
    rw [isVerbose, isVerbose, under, hverbose]
    rfl
  unfold item at h ⊢
  rw [hverbose]
  split_ifs at h ⊢
  · exact ⟨rfl, List.cons_ne_nil _ _⟩
  · exact leave_under outer h
  · exact ⟨rfl, hopen⟩
  · exact ⟨rfl, hopen⟩
  · exact ⟨rfl, hopen⟩

theorem plain_under {s : Cursor} (hopen : s.verbose ≠ []) (outer : List Bool) {c : Char}
    (h : (s.plain c).spot ≠ .lost) : (s.under outer).plain c = (s.plain c).under outer ∧ (s.plain c).verbose ≠ [] := by
  obtain ⟨spot, escaped, verbose⟩ := s
  unfold plain at h ⊢
  cases spot with
  | items => exact item_under hopen outer h
  | opened =>
    simp only [under] at h ⊢
    split_ifs at h ⊢
    · exact ⟨rfl, hopen⟩
    · exact item_under hopen outer h
  | reference =>
    simp only [under] at h ⊢
    split_ifs at h ⊢
    · exact leave_under outer h
    · exact ⟨rfl, hopen⟩
    · exact absurd rfl h
  | comment =>
    simp only [under] at h ⊢
    split_ifs at h ⊢
    · exact leave_under outer h
    · exact ⟨rfl, hopen⟩
  | flagsOn on =>
    simp only [under] at h ⊢
    split_ifs at h ⊢
    · rw [spot_adjust] at h
      obtain ⟨hleave, hopen'⟩ := leave_under outer h
      obtain ⟨hadjust, hopen''⟩ := adjust_under hopen' outer on false
      exact ⟨(congrArg (adjust · on false) hleave).trans hadjust, hopen''⟩
    · exact adjust_under (s := ⟨.items, escaped, verbose⟩) hopen outer _ _
    · exact ⟨rfl, hopen⟩
    · exact ⟨rfl, hopen⟩
    · exact absurd rfl h
  | flagsOff on off =>
    simp only [under] at h ⊢
    split_ifs at h ⊢
    · exact adjust_under (s := ⟨.items, escaped, verbose⟩) hopen outer _ _
    · exact ⟨rfl, hopen⟩
    · exact absurd rfl h
  | setOpen => exact ⟨rfl, hopen⟩
  | setStart => exact ⟨rfl, hopen⟩
  | lost => exact absurd rfl h
  | _ =>
    -- the groups that are open stay the same
    dsimp only [under, lose] at h ⊢
    split_ifs at h ⊢
    all_goals exact ⟨rfl, hopen⟩

/-- **Groups around everything** make no difference as long as none of them is closed. -/
theorem next_under {s : Cursor} (hopen : s.verbose ≠ []) (outer : List Bool) {c : Char}
    (h : (s.next c).spot ≠ .lost) : (s.under outer).next c = (s.next c).under outer ∧ (s.next c).verbose ≠ [] := by
  have hescaped : (s.under outer).escaped = s.escaped := rfl
  unfold next at h ⊢
  rw [hescaped]
  split_ifs at h ⊢
  · exact ⟨rfl, hopen⟩
  · exact ⟨rfl, hopen⟩
  · exact plain_under hopen outer h

theorem after_under {s : Cursor} (hopen : s.verbose ≠ []) (outer : List Bool) {text : List Char}
    (hlost : (s.after text).spot ≠ .lost) :
    (s.under outer).after text = (s.after text).under outer ∧ (s.under outer).names text = s.names text ∧
      (s.after text).verbose ≠ [] := by
  induction text generalizing s with
  | nil => exact ⟨rfl, rfl, hopen⟩
  | cons c text ih =>
    have hnext : (s.next c).spot ≠ .lost := fun h => hlost (after_lost h text)
    obtain ⟨hunder, hopen'⟩ := next_under hopen outer hnext
    obtain ⟨hafter, hnames, hend⟩ := ih hopen' hlost
    rw [after_cons, names, names, hunder, hafter, hnames, name?_under]
    exact ⟨rfl, rfl, hend⟩

/-! ## Groups around the rest -/

/-- A name is complete with its last character only. -/
theorem names_eq_nil {text : List Char} (h : '>' ∉ text) (s : Cursor) : s.names text = [] := by
  induction text generalizing s with
  | nil => rfl
  | cons c text ih =>
    have hc : c ≠ '>' := fun hc => h (hc ▸ List.mem_cons_self)
    have hname : s.name? c = none := by
      unfold name?
      split
      · simp [hc]
      · rfl
    rw [names, hname, ih (fun hmem => h (List.mem_cons_of_mem c hmem))]
    rfl

/-- a group without a name that opens where an expression may end -/
theorem Ends.after_plain {s : Cursor} (h : s.Ends) (outer : List Bool) :
    ∃ outer', (s.under outer).after ['(', '?', ':'] = s.under outer' := by
  obtain ⟨spot, escaped, verbose⟩ := s
  obtain ⟨rfl | rfl, rfl, v, rfl⟩ := h
  · exact ⟨v :: outer, rfl⟩
  · exact ⟨outer, rfl⟩

/-- texts as groups without a name that may be missing, each inside the one before -/
def nestedText : List (List Char) → List Char
  | [] => []
  | text :: rest => ['(', '?', ':'] ++ (text ++ (nestedText rest ++ [')', '?']))

/-- **Groups around the rest of a text** make no difference where an expression might end before each of them. -/
theorem names_nested {texts : List (List Char)} {s : Cursor} (outer : List Bool)
    (h : ∀ count ≤ texts.length, (s.after (texts.take count).flatten).Ends) :
    (s.under outer).names (nestedText texts) = s.names texts.flatten := by
  induction texts generalizing s outer with
  | nil => rfl
  | cons text rest ih =>
    have hs : s.Ends := h 0 (Nat.zero_le _)
    have hrest : ∀ count ≤ rest.length, ((s.after text).after (rest.take count).flatten).Ends := by
      intro count hcount
      have hnext := h (count + 1) (Nat.succ_le_succ hcount)
      rwa [List.take_succ_cons, List.flatten_cons, after_append] at hnext
    obtain ⟨outer', houter⟩ := hs.after_plain outer
    have hopen : s.verbose ≠ [] := by
      obtain ⟨-, -, v, hv⟩ := hs
      rw [hv]
      exact List.cons_ne_nil _ _
    have hend : (s.after text).spot ≠ .lost := by
      obtain ⟨hspot | hspot, -⟩ := hrest 0 (Nat.zero_le _)
      · exact fun hlost => Spot.noConfusion (hspot.symm.trans hlost)
      · exact fun hlost => Spot.noConfusion (hspot.symm.trans hlost)
    obtain ⟨hafter, hnames, -⟩ := after_under hopen outer' hend
    have hopening : (s.under outer).names ['(', '?', ':'] = [] := names_eq_nil (by decide) _
    have hclosing : ∀ t : Cursor, t.names [')', '?'] = [] := names_eq_nil (by decide)
    rw [nestedText, names_append, names_append, names_append, hopening, hclosing, houter, hafter, hnames, ih outer' hrest,
      List.nil_append, List.append_nil, List.flatten_cons, names_append]

/-! ## Names in the text -/

theorem trail_escaping (spot : Spot) : spot.escaping.trail = [] := by cases spot <;> rfl

theorem trail_leave (s : Cursor) : s.leave.spot.trail = [] := by
  unfold leave
  split
  · rfl
  · rfl

theorem trail_item (s : Cursor) (c : Char) : (s.item c).spot.trail <:+ [c] := by
  unfold item
  split_ifs with hopen
  · rw [hopen]
    exact List.suffix_refl _
  · rw [trail_leave]
    exact List.nil_suffix
  · exact List.nil_suffix
  · exact List.nil_suffix
  · exact List.nil_suffix

theorem trail_plain (s : Cursor) (c : Char) : (s.plain c).spot.trail <:+ s.spot.trail ++ [c] := by
  obtain ⟨spot, escaped, verbose⟩ := s
  unfold plain
  cases spot with
  | items => exact trail_item _ c
  | opened =>
    dsimp only
    split_ifs with hc
    · rw [hc]
      exact List.suffix_refl _
    · exact (trail_item _ c).trans (List.suffix_append _ _)
  | extended =>
    dsimp only
    split_ifs with hc
    · rw [hc]
      exact List.suffix_refl _
    all_goals exact List.nil_suffix
  | lettered =>
    dsimp only
    split_ifs with hc
    · rw [hc]
      exact List.suffix_refl _
    all_goals exact List.nil_suffix
  | name soFar =>
    dsimp only
    split_ifs
    · exact List.nil_suffix
    · exact List.suffix_refl _
    · exact List.nil_suffix
  | _ =>
    -- such a place leads to none where a name is read
    have hleave : ∀ s : Cursor, s.leave.spot.trail <:+ [c] := fun s => trail_leave s ▸ List.nil_suffix
    dsimp only
    try split_ifs
    all_goals first
      | exact List.nil_suffix
      | exact hleave _
      | exact (spot_adjust _ _ _).symm ▸ hleave _
      | exact (spot_adjust _ _ _).symm ▸ List.nil_suffix

theorem trail_next (s : Cursor) (c : Char) : (s.next c).spot.trail <:+ s.spot.trail ++ [c] := by
  unfold next
  split_ifs
  · rw [trail_escaping]
    exact List.nil_suffix
  · rw [trail_escaping]
    exact List.nil_suffix
  · exact trail_plain s c

theorem name?_eq_some {s : Cursor} {c : Char} {name : String} (h : s.name? c = some name) :
    s.spot.trail ++ [c] = '(' :: naming name := by
  obtain ⟨spot, escaped, verbose⟩ := s
  unfold name? at h
  cases spot with
  | name soFar =>
    dsimp only at h
    split_ifs at h with hend
    cases h
    obtain ⟨-, rfl⟩ : escaped = false ∧ c = '>' := by simpa using hend
    rw [naming, String.toList_ofList]
    rfl
  | _ => cases h

/-- No name is being read where quiet characters go unnoticed. -/
theorem Settled.trail {s : Cursor} (h : s.Settled) : s.spot.trail = [] := by
  obtain ⟨spot, escaped, verbose⟩ := s
  obtain ⟨rfl, hspot⟩ := h
  cases spot with
  | opened => simp at hspot
  | extended => simp at hspot
  | lettered => simp at hspot
  | name soFar => simp at hspot
  | _ => rfl

theorem Ends.trail {s : Cursor} (h : s.Ends) : s.spot.trail = [] := by
  obtain ⟨hspot | hspot, -⟩ := h
  · rw [hspot]
    rfl
  · rw [hspot]
    rfl

/-- Such a character is part of no name, and of nothing before one. -/
theorem trail_next_eq_nil {c : Char} (hc : c = ')' ∨ c = ':') (s : Cursor) : (s.next c).spot.trail = [] := by
  have hchar : isNameChar c = false ∧ isFlag c = false := by
    rcases hc with rfl | rfl
    · decide
    · decide
  have hleave : (s.leave.spot.trail = []) := trail_leave s
  obtain ⟨spot, escaped, verbose⟩ := s
  unfold next
  split_ifs with hescaped hback
  · exact trail_escaping spot
  · exact trail_escaping spot
  · rcases hc with rfl | rfl
    · cases spot <;> simp_all [plain, item, lose, Spot.trail]
    · cases spot <;> simp_all [plain, item, lose, Spot.trail]

/-- What is met in nested groups is met in one of their texts, behind the parenthesis of a group. -/
theorem exists_of_names_nested {texts : List (List Char)} {s : Cursor} {name : String}
    (h : name ∈ s.names (nestedText texts)) : ∃ text ∈ texts, ∃ t : Cursor, t.spot.trail = [] ∧ name ∈ t.names text := by
  induction texts generalizing s with
  | nil => cases h
  | cons text rest ih =>
    have hopening : s.names ['(', '?', ':'] = [] := names_eq_nil (by decide) _
    have hclosing : ∀ t : Cursor, t.names [')', '?'] = [] := names_eq_nil (by decide)
    rw [nestedText, names_append, names_append, names_append, hopening, hclosing, List.nil_append, List.append_nil,
      List.mem_append] at h
    rcases h with h | h
    · exact ⟨text, List.mem_cons_self, _, trail_next_eq_nil (.inr rfl) _, h⟩
    · obtain ⟨other, hother, hmet⟩ := ih h
      exact ⟨other, List.mem_cons_of_mem text hother, hmet⟩

/-- **A name that is met is written in the text.** -/
theorem opens_of_names {s : Cursor} (read : List Char) {text : List Char} (hread : s.spot.trail <:+ read) {name : String}
    (h : name ∈ s.names text) : Opens name (read ++ text) := by
  induction text generalizing s read with
  | nil => cases h
  | cons c text ih =>
    rw [names, List.mem_append, Option.mem_toList] at h
    obtain ⟨before, hbefore⟩ := hread
    rcases h with h | h
    · refine ⟨before, text, ?_⟩
      rw [← name?_eq_some h, ← hbefore]
      simp
    · have htrail : (s.next c).spot.trail <:+ read ++ [c] := by
        obtain ⟨front, hfront⟩ := trail_next s c
        exact ⟨before ++ front, by rw [List.append_assoc, hfront, ← List.append_assoc, hbefore]⟩
      have hrest := ih (read ++ [c]) htrail h
      rwa [List.append_assoc] at hrest

end Cursor

end UrlRouter.Regex
