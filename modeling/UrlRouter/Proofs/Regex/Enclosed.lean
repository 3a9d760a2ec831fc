/-
Groups around any expression.

An expression that compiles by itself may refer to groups or set options for the whole. Put between the parentheses of a
capture it is read up to the closing one, or reading fails there; nothing else can happen. How many groups it opens is
known before, and that is all that is needed to number the groups of the longer expression.

Results:
- `Reader.Comes`: reading on fails, or comes to a state with a property.
- `comes_embedded`: an expression behind the parenthesis that opens a group.
- `comes_capture`: a capture around anything of which as much is known.
- `compile_of_comes`: what an expression that compiles was read to.
-/
import Mathlib.Tactic
import UrlRouter.Proofs.Regex.Composite
import UrlRouter.Proofs.Regex.GroupOrder

namespace UrlRouter.Regex

/-! ## Reading that may fail -/

/-- Reading on from `r` fails, or comes to a state of the given kind. -/
def Reader.Comes (r : Reader) (p : Reader → Prop) : Prop := r.Fails ∨ ∃ s, r.Reaches s ∧ p s

namespace Reader

variable {r s : Reader} {p q : Reader → Prop}

theorem Comes.of_reaches (h : r.Reaches s) (hs : p s) : r.Comes p := .inr ⟨s, h, hs⟩

theorem Comes.behind (h : r.Reaches s) (hs : s.Comes p) : r.Comes p :=
  hs.imp h.fails fun ⟨t, hst, ht⟩ => ⟨t, h.trans hst, ht⟩

theorem Comes.bind (h : r.Comes p) (hp : ∀ s, p s → s.Comes q) : r.Comes q := by
  rcases h with hfails | ⟨s, hs, hps⟩
  · exact .inl hfails
  · exact .behind hs (hp s hps)

theorem Comes.mono (h : r.Comes p) (hp : ∀ s, p s → q s) : r.Comes q :=
  h.imp id fun ⟨s, hs, hps⟩ => ⟨s, hs, hp s hps⟩

end Reader

/-- **An expression that compiles** was read to the state that reading it comes to, when nothing is left there. -/
theorem compile_of_comes {text : String} {regex : Regex} {p : Reader → Prop} (h : compile text = .ok regex)
    (hcomes : (Reader.facingText text).Comes p) (hp : ∀ s, p s → s.rest = []) :
    ∃ s, p s ∧ s.outer = [] ∧ regex = ⟨s.frame.body, s.widths.length, s.names⟩ := by
  obtain ⟨s, hfinish, hregex⟩ := reader_of_compile h
  obtain ⟨hback, hsteps⟩ := steps_of_finish hfinish
  rcases hcomes with ⟨n, hn, hfails⟩ | ⟨t, ht, hpt⟩
  · obtain ⟨m, hm⟩ : ∃ m, (Token.ofChars text.toList).length = n + m := ⟨_, (Nat.add_sub_cancel' hn).symm⟩
    obtain ⟨e, he⟩ := hfails m
    rw [hm, he] at hsteps
    cases hsteps
  · obtain rfl : t = s := Except.ok.inj ((finish_of_reaches hback ht (hp t hpt)).symm.trans hfinish)
    exact ⟨t, hpt, hregex⟩

theorem Reader.Comes.inOrder {r : Reader} {p : Reader → Prop} (h : r.Comes p) (hr : r.InOrder) :
    r.Comes fun s => s.InOrder ∧ p s := h.imp id fun ⟨s, hs, hps⟩ => ⟨s, hs, hr.reached hs, hps⟩

/-! ## What is read -/

/-- Between the states `r` and `s` a piece was read: nodes came into the current alternative, groups were opened and closed
again, and `tail` is left. Conditionals may have referred to groups. -/
structure Reader.Takes (r s : Reader) (tail : List Token) (nodes : List Node) (groups : Nat)
    (names : List (String × Nat)) : Prop where
  rest : s.rest = tail
  frame : s.frame = { r.frame with items := (nodes.map (Item.mk · .yes)).reverse ++ r.frame.items }
  outer : s.outer = r.outer
  widths : s.widths.length = r.widths.length + groups
  names : s.names = r.names ++ names
  flags : s.globalFlags = r.globalFlags

/-- Between the states `r` and `s` a group was read up to the parenthesis that closes it. -/
structure Reader.Fills (r s : Reader) (tail : List Token) (body : Node) (groups : Nat) : Prop where
  rest : s.rest = .plain ')' :: tail
  kind : s.frame.kind = r.frame.kind
  body : s.frame.body = body
  outer : s.outer = r.outer
  widths : s.widths.length = r.widths.length + groups
  names : s.names = r.names
  flags : s.globalFlags = r.globalFlags

namespace Reader.Takes

variable {r s t : Reader} {tail tail' : List Token} {nodes nodes' : List Node} {groups groups' : Nat}
  {names names' : List (String × Nat)}

theorem refl (r : Reader) : r.Takes r r.rest [] 0 [] := ⟨rfl, rfl, rfl, rfl, (List.append_nil _).symm, rfl⟩

theorem trans (h : r.Takes s tail nodes groups names) (h' : s.Takes t tail' nodes' groups' names') :
    r.Takes t tail' (nodes ++ nodes') (groups + groups') (names ++ names') where
  rest := h'.rest
  frame := by rw [h'.frame, h.frame, List.map_append, List.reverse_append, List.append_assoc]
  outer := h'.outer.trans h.outer
  widths := by rw [h'.widths, h.widths, Nat.add_assoc]
  names := by rw [h'.names, h.names, List.append_assoc]
  flags := h'.flags.trans h.flags

theorem groupBound (h : r.Takes s tail nodes groups names) : s.groupBound = r.groupBound + groups := by
  simp only [Reader.groupBound, h.widths]
  omega

theorem mode (h : r.Takes s tail nodes groups names) : s.frame.mode = r.frame.mode := by rw [h.frame]

theorem of_gains {node : Node} (h : r.Gains s tail [⟨node, .yes⟩] groups names) :
    r.Takes s tail [node] groups names := ⟨h.rest, h.frame, h.outer, h.widths, h.names, h.flags⟩

/-- A group that was empty holds just what was read. -/
theorem body {kind : GroupKind} {start : Nat} {mode : Mode} (h : r.Takes s tail nodes groups names)
    (hframe : r.frame = ⟨kind, start, mode, [], []⟩) : s.frame.body = .ofList nodes := by
  rw [h.frame, hframe, List.append_nil, body_of_items, nodeOf, List.map_map]
  exact congrArg Node.ofList (List.map_id nodes)

theorem fills {kind : GroupKind} {start : Nat} {mode : Mode} (h : r.Takes s (.plain ')' :: tail) nodes groups [])
    (hframe : r.frame = ⟨kind, start, mode, [], []⟩) : r.Fills s tail (.ofList nodes) groups where
  rest := h.rest
  kind := by rw [h.frame]
  body := h.body hframe
  outer := h.outer
  widths := h.widths
  names := h.names.trans (List.append_nil _)
  flags := h.flags

end Reader.Takes

/-! ## An expression within a group -/

/-- `body` is what the expression is read as when it stands in the group of this number: its groups have the next numbers,
and unless it refers to groups, nothing else is different. -/
structure Enclosed (regex : Regex) (number : Nat) (body : Node) : Prop where
  moved : regex.root.Moved number body
  numbers : body.numbers = List.range' (number + 1) regex.groups

/-- **An expression behind the parenthesis that opens a group** is read up to the closing one, or reading fails. -/
theorem comes_embedded {text : String} {regex : Regex} (h : compile text = .ok regex) (hnames : regex.names = [])
    {r : Reader} (hr : r.InOrder) {start : Nat} {tail : List Token}
    (hframe : r.frame = ⟨.capture r.widths.length, start, {}, [], []⟩) (houter : r.outer ≠ []) (hflags : r.globalFlags = [])
    (hrest : r.rest = Token.ofChars text.toList ++ .plain ')' :: tail) :
    r.Comes fun s => ∃ body, Enclosed regex r.widths.length body ∧ r.Fills s tail body regex.groups := by
  obtain ⟨s, hfinish, hsouter, rfl⟩ := reader_of_compile h
  obtain ⟨around, outer, houter⟩ := List.exists_cons_of_ne_nil houter
  let c : Context := ⟨.capture r.widths.length, by simp, r.widths.length, r.names, r.references, around, outer, tail⟩
  have hholds : c.Holds (.facingText text) r := by
    refine ⟨hrest, rfl, (List.append_nil _).symm, ?_, fun _ => rfl, hflags⟩
    rw [hframe, houter]
    exact .base rfl rfl rfl ⟨rfl, .nil, .nil⟩
  obtain ⟨hnil, -, -, hembedded⟩ := steps_embedded (c := c) _ (.facingText text) s le_rfl hsouter
    (steps_of_finish hfinish).2
  rcases hembedded r hholds with ⟨s', hs', hreaches⟩ | ⟨-, hfails⟩
  · have hframes := hs'.frames
    rw [hsouter] at hframes
    generalize houter' : s'.outer = outer' at hframes
    cases hframes with
    | base _ hkind _ parts =>
      have hkind' : s'.frame.kind = .capture r.widths.length := hkind
      have hnumbers : s'.frame.body.numbers = List.range' (r.widths.length + 1) s.widths.length := by
        have hbefore := hr.numbers
        have hbehind := (hr.reached hreaches).numbers
        rw [Reader.numbers, hframe, Frame.numbers, Frame.inner] at hbefore
        rw [Reader.numbers, houter', ← houter, Frame.numbers, hkind', ← body_numbers, hs'.groups] at hbehind
        simp only [GroupKind.numbers, List.reverse_nil, List.flatMap_nil, List.append_nil] at hbefore hbehind
        rw [← List.append_assoc, hbefore, ← List.range'_append_1, List.append_cancel_left_eq, Nat.add_comm] at hbehind
        exact hbehind
      refine .of_reaches hreaches ⟨s'.frame.body, ⟨body_moved parts, hnumbers⟩, ?_, ?_, rfl, ?_, hs'.groups, ?_, ?_⟩
      · rw [hs'.rest, hnil]
        rfl
      · rw [hkind, hframe]
      · rw [houter', houter]
      · rw [hs'.names, show s.names = [] from hnames]
        exact List.append_nil _
      · rw [hs'.flags, hflags]
  · exact .inl hfails

/-- A text may follow an expression if it does not begin with an escape or a sign. -/
theorem follow_ofChars {c : Char} (hback : c ≠ '\\') (hquestion : c ≠ '?') (hplus : c ≠ '+') (rest : List Char) :
    Follow (Token.ofChars (c :: rest)) := by
  rw [ofChars_cons hback]
  exact follow_cons hquestion hplus

/-- The text between the parentheses and what follows them are cut into tokens one after the other. -/
theorem tokens_embedded {text : String} {regex : Regex} (h : compile text = .ok regex) (more : List Char) :
    Token.ofChars (text.toList ++ ')' :: more) = Token.ofChars text.toList ++ .plain ')' :: Token.ofChars more := by
  obtain ⟨s, hfinish, houter, -⟩ := reader_of_compile h
  rw [ofChars_append (rest_of_finish hfinish houter).2, ofChars_cons (by decide)]

/-- An expression does not begin with half an escape or with a question mark, which would repeat nothing. -/
theorem head_embedded {text : String} {regex : Regex} (h : compile text = .ok regex) (more : List Char) :
    (Token.ofChars (text.toList ++ ')' :: more)).head? ≠ some .loneBackslash ∧
      (Token.ofChars (text.toList ++ ')' :: more)).head? ≠ some (.plain '?') := by
  obtain ⟨s, hfinish, -, -⟩ := reader_of_compile h
  have hback := (steps_of_finish hfinish).1
  have hquestion := head?_ne_question_of_finish hfinish
  rw [tokens_embedded h]
  cases htokens : Token.ofChars text.toList with
  | nil => simp
  | cons t rest =>
    rw [htokens] at hback hquestion
    exact ⟨hback, hquestion⟩

/-! ## The group around it -/

/-- the tokens of the name of a group, as it is written -/
theorem ofChars_naming {name : String} (hname : Text.isIdentifier name = true) (rest : List Char) :
    Token.ofChars (naming name ++ rest) =
      .plain '?' :: .plain 'P' :: .plain '<' :: (name.toList.map .plain ++ .plain '>' :: Token.ofChars rest) := by
  have hback : '\\' ∉ name.toList := fun h => ((not_mem_of_isIdentifier hname).2 _ h).2 rfl
  simp only [naming, List.cons_append, List.append_assoc, List.nil_append]
  rw [ofChars_cons (by decide), ofChars_cons (by decide), ofChars_cons (by decide), ofChars_map_plain hback,
    ofChars_cons (by decide)]

/-- The state behind the opening parenthesis of a capture. -/
structure Reader.Opens (r s : Reader) (name : Option String) (inner : List Token) : Prop where
  rest : s.rest = inner
  frame : s.frame = ⟨.capture s.widths.length, r.position, {}, [], []⟩
  outer : s.outer = r.frame :: r.outer
  widths : s.widths.length = r.groupBound
  names : s.names = r.names ++ captureNames name r.groupBound
  flags : s.globalFlags = r.globalFlags

/-- **A capture**, around anything that is read up to the closing parenthesis or fails, is read or fails. -/
theorem comes_capture {r : Reader} (hr : r.InOrder) {name : Option String} {inner : List Char} {tail : List Token}
    {groups : Nat} {p : Node → Prop} (hname : ∀ n ∈ name, Text.isIdentifier n = true)
    (hnew : ∀ n ∈ name, r.names.lookup n = none) (hmode : r.frame.mode = {})
    (hback : (Token.ofChars inner).head? ≠ some .loneBackslash)
    (hquestion : (Token.ofChars inner).head? ≠ some (.plain '?')) (htail : tail.head? ≠ some .loneBackslash)
    (hrest : r.rest = Token.ofChars ('(' :: (name.elim [] naming ++ inner)))
    (hinner : ∀ s, s.InOrder → r.Opens s name (Token.ofChars inner) →
      s.Comes fun t => ∃ body, p body ∧ s.Fills t tail body groups) :
    r.Comes fun s => ∃ body, p body ∧
      r.Takes s tail [.group r.groupBound body] (1 + groups) (captureNames name r.groupBound) := by
  have htokens : r.rest = .plain '(' :: ((name.elim [] fun name =>
      .plain '?' :: .plain 'P' :: .plain '<' :: (name.toList.map .plain ++ [.plain '>'])) ++ Token.ofChars inner) := by
    rw [hrest, ofChars_cons (by decide)]
    cases name with
    | none => rfl
    | some name => simp [ofChars_naming (hname name rfl)]
  obtain ⟨s, hopen, hsrest, hframe, houter, hwidths, hnames, -, hflags⟩ :=
    reaches_open hname hnew hback hquestion hmode rfl htokens
  have hs : s.widths.length = r.groupBound := hwidths
  have hopens : r.Opens s name (Token.ofChars inner) := ⟨hsrest, by rw [hs]; exact hframe, houter, hs, hnames, hflags⟩
  refine .behind hopen (.bind (hinner s (hr.reached hopen) hopens) ?_)
  rintro t ⟨body, hbody, ht⟩
  obtain ⟨u, hclose, hurest, huframe, huouter, huwidths, hunames, -, huflags⟩ :=
    reaches_close ht.rest htail (ht.outer.trans houter)
  have hclosed : t.closed = .group r.groupBound body := by
    rw [Reader.closed, ht.kind, hframe, ht.body]
  refine .of_reaches hclose ⟨body, hbody, hurest, ?_, huouter, ?_, ?_, ?_⟩
  · rw [huframe, hclosed]
    rfl
  · rw [huwidths, ht.widths, hs, Reader.groupBound]
    omega
  · rw [hunames, ht.names, hnames]
  · rw [huflags, ht.flags, hflags]

/-! ## Groups side by side -/

/-- the numbers of groups that stand side by side, the first being number `n`, when each holds so many groups itself -/
def numbersFrom {α : Type} (own : α → Nat) (n : Nat) : List α → List Nat
  | [] => []
  | a :: rest => n :: numbersFrom own (n + 1 + own a) rest

/-- how many groups there are side by side, with the groups inside -/
def groupsOf {α : Type} (own : α → Nat) (list : List α) : Nat := (list.map fun a => 1 + own a).sum

variable {α : Type} {own : α → Nat}

theorem groupsOf_cons (a : α) (list : List α) : groupsOf own (a :: list) = 1 + own a + groupsOf own list := by
  rw [groupsOf, List.map_cons, List.sum_cons, groupsOf]

theorem groupsOf_eq (list : List α) : groupsOf own list = list.length + (list.map own).sum := by
  induction list with
  | nil => rfl
  | cons a list ih =>
    rw [groupsOf_cons, ih, List.length_cons, List.map_cons, List.sum_cons]
    omega

theorem length_numbersFrom (n : Nat) (list : List α) : (numbersFrom own n list).length = list.length := by
  induction list generalizing n with
  | nil => rfl
  | cons a list ih => exact congrArg (· + 1) (ih _)

/-- **A group's number** is that of the first group and as many more as there are groups before it. -/
theorem getElem?_numbersFrom {list : List α} {k : Nat} (hk : k < list.length) (n : Nat) :
    (numbersFrom own n list)[k]? = some (n + groupsOf own (list.take k)) := by
  induction list generalizing k n with
  | nil => exact absurd hk (Nat.not_lt_zero k)
  | cons a list ih =>
    cases k with
    | zero => rfl
    | succ k =>
      rw [numbersFrom, List.getElem?_cons_succ, ih (Nat.lt_of_succ_lt_succ hk), List.take_succ_cons, groupsOf_cons]
      congr 1
      omega

theorem numbersFrom_add (m n : Nat) (list : List α) :
    numbersFrom own (m + n) list = (numbersFrom own n list).map (m + ·) := by
  induction list generalizing n with
  | nil => rfl
  | cons a list ih =>
    rw [numbersFrom, numbersFrom, List.map_cons, ← ih, Nat.add_assoc, Nat.add_assoc, Nat.add_assoc]

end UrlRouter.Regex
