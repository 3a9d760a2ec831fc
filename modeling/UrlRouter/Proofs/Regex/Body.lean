/-
Expressions that can be the body of any group.

A body can be read by itself, refers to no group, gives no name to one and sets no options for the whole. Put between
parentheses it is read within any other expression, to the same tree with the groups counted on.

Results:
- `Body.ofText?_text`: a body is found by its text, so that it can be decided whether a text is one.
- `Body.compile_text`: a body compiles by itself.
- `Body.reaches_closed`: behind the parenthesis of a group, it is read up to the closing one.
- `Body.group_follows`: as a group of another expression it matches what it matches by itself.
-/
import Mathlib.Tactic
import UrlRouter.Proofs.Regex.EmbeddedGroups

namespace UrlRouter.Regex

/-! ## Reading by itself -/

/-- the state in which an expression is read by itself -/
def Reader.facingText (text : String) : Reader := { rest := Token.ofChars text.toList }

theorem steps_of_finish {text : String} {s : Reader} (h : Reader.finish {} text = .ok s) :
    (Token.ofChars text.toList).head? ≠ some .loneBackslash ∧
      (steps (Token.ofChars text.toList).length).run (.facingText text) = .ok ((), s) := by
  obtain ⟨r, hstart, hsteps⟩ := bind_eq_ok.1 h
  obtain rfl := checkNext_eq_ok hstart
  obtain ⟨⟨_, u⟩, hsteps, hpure⟩ := bind_eq_ok.1 hsteps
  cases hpure
  refine ⟨fun hback => ?_, hsteps⟩
  obtain ⟨rest, hrest⟩ := List.head?_eq_some_iff.1 hback
  unfold Reader.start checkNext at hstart
  simp only [hrest] at hstart
  cases hstart

/-- Everything is read where no group is left open, and the text does not end with half an escape. -/
theorem rest_of_finish {text : String} {s : Reader} (h : Reader.finish {} text = .ok s) (houter : s.outer = []) :
    s.rest = [] ∧ .loneBackslash ∉ Token.ofChars text.toList := by
  obtain ⟨hhead, hsteps⟩ := steps_of_finish h
  obtain ⟨hnil, -, hbefore, -⟩ := steps_embedded
    (c := ⟨.plain, by simp, 0, [], [], ⟨.whole, 0, {}, [], []⟩, [], []⟩) _ (.facingText text) s le_rfl houter hsteps
  refine ⟨hnil, fun hmem => ?_⟩
  have hend := (hbefore.back hhead hmem).2
  rw [hnil] at hend
  cases hend

/-- Nothing is repeated at the start of an expression. -/
theorem head?_ne_question_of_finish {text : String} {s : Reader} (h : Reader.finish {} text = .ok s) :
    (Token.ofChars text.toList).head? ≠ some (.plain '?') := by
  intro hhead
  obtain ⟨rest, hrest⟩ := List.head?_eq_some_iff.1 hhead
  obtain ⟨-, hsteps⟩ := steps_of_finish h
  rw [hrest, List.length_cons, Reader.facingText, hrest] at hsteps
  obtain ⟨⟨_, t⟩, hstep, -⟩ := bind_eq_ok.1 (show (step.run _ >>= _) = _ from hsteps)
  rw [run_step_cons rfl, if_neg (by decide), if_neg (by decide)] at hstep
  obtain ⟨⟨found, u⟩, htake, hread⟩ := bind_eq_ok.1 hstep
  rcases take_eq_ok htake with ⟨hnil, -⟩ | ⟨_, _, -, -, -, rfl⟩
  · cases hnil
  · rw [readToken, run_readPlain] at hread
    cases hread

/-! ## Bodies -/

structure Body where
  text : String
  /-- the state behind the text -/
  state : Reader
  finished : Reader.finish {} text = .ok state
  outer : state.outer = []
  clean : state.Clean
  problem : state.frame.body.problem? false = none

instance (r : Reader) : Decidable r.Clean :=
  decidable_of_iff (r.names = [] ∧ r.globalFlags = [] ∧ r.references = [] ∧ ∀ f ∈ r.frame :: r.outer, f.refers = false)
    ⟨fun ⟨h1, h2, h3, h4⟩ => ⟨h1, h2, h3, h4⟩, fun h => ⟨h.names, h.flags, h.references, h.frames⟩⟩

instance : Inhabited Body :=
  ⟨⟨"", { rest := [] }, rfl, rfl, ⟨rfl, rfl, rfl, fun f hf => by rw [List.mem_singleton.1 hf]; rfl⟩, rfl⟩⟩

namespace Body

/-- the body with this text, if the text is fit for one -/
def ofText? (text : String) : Option Body :=
  match h : Reader.finish {} text with
  | .error _ => none
  | .ok state =>
    if hfit : state.outer.isEmpty = true ∧ state.Clean ∧ state.frame.body.problem? false = none then
      some ⟨text, state, h, List.isEmpty_iff.1 hfit.1, hfit.2.1, hfit.2.2⟩
    else none

theorem text_of_ofText? {text : String} {body : Body} (h : ofText? text = some body) : body.text = text := by
  unfold ofText? at h
  split at h
  · cases h
  · split_ifs at h
    cases h
    rfl

/-- A body is found again by its text. -/
theorem ofText?_text (body : Body) : ofText? body.text = some body := by
  obtain ⟨text, state, finished, outer, clean, problem⟩ := body
  unfold ofText?
  split
  · rename_i h
    rw [finished] at h
    cases h
  · rename_i s h
    rw [finished] at h
    cases h
    rw [dif_pos ⟨List.isEmpty_iff.2 outer, clean, problem⟩]

instance (text : String) (p : Body → Prop) [DecidablePred p] : Decidable (∃ body : Body, body.text = text ∧ p body) :=
  match h : ofText? text with
  | none => isFalse fun ⟨body, htext, _⟩ => by
      rw [← htext, ofText?_text] at h
      cases h
  | some body => decidable_of_iff (p body)
      ⟨fun hp => ⟨body, text_of_ofText? h, hp⟩, fun ⟨other, htext, hp⟩ => by
        rw [← htext, ofText?_text] at h
        cases h
        exact hp⟩

variable (body : Body)

def root : Node := body.state.frame.body

def groups : Nat := body.state.widths.length

def regex : Regex := ⟨body.root, body.groups, []⟩

def tokens : List Token := Token.ofChars body.text.toList

theorem compile_text : compile body.text = .ok body.regex := by
  show (Reader.finish {} body.text >>= ofReader) = _
  rw [body.finished, ok_bind]
  unfold ofReader
  simp only [body.outer, body.clean.flags, body.clean.references, body.clean.names, body.problem, List.isEmpty_nil,
    List.contains_nil, List.find?_nil]
  rfl

theorem root_refers : body.root.refers = false := by
  have htop := body.clean.frames _ List.mem_cons_self
  rw [Frame.refers, Bool.or_assoc, Bool.or_eq_false_iff] at htop
  rw [root, body_refers]
  exact htop.2

theorem steps_text : (steps body.tokens.length).run (.facingText body.text) = .ok ((), body.state) :=
  (steps_of_finish body.finished).2

/-- The text does not end with half an escape. -/
theorem loneBackslash_not_mem : .loneBackslash ∉ body.tokens := (rest_of_finish body.finished body.outer).2

/-- Nothing is repeated at the start of a body. -/
theorem head?_ne_question : body.tokens.head? ≠ some (.plain '?') := head?_ne_question_of_finish body.finished

end Body

/-! ## Behind a piece of an expression -/

/-- Between the states `r` and `s` a piece of an expression was read: items came into the current alternative, groups were
opened and closed again, and `tail` is left. -/
structure Reader.Gains (r s : Reader) (tail : List Token) (items : List Item) (groups : Nat)
    (names : List (String × Nat)) : Prop where
  rest : s.rest = tail
  frame : s.frame = { r.frame with items := items.reverse ++ r.frame.items }
  outer : s.outer = r.outer
  widths : s.widths.length = r.widths.length + groups
  names : s.names = r.names ++ names
  references : s.references = r.references
  flags : s.globalFlags = r.globalFlags

namespace Reader.Gains

variable {r s t : Reader} {tail tail' : List Token} {items items' : List Item} {groups groups' : Nat}
  {names names' : List (String × Nat)}

theorem trans (h : r.Gains s tail items groups names) (h' : s.Gains t tail' items' groups' names') :
    r.Gains t tail' (items ++ items') (groups + groups') (names ++ names') where
  rest := h'.rest
  frame := by rw [h'.frame, h.frame, List.reverse_append, List.append_assoc]
  outer := h'.outer.trans h.outer
  widths := by rw [h'.widths, h.widths, Nat.add_assoc]
  names := by rw [h'.names, h.names, List.append_assoc]
  references := h'.references.trans h.references
  flags := h'.flags.trans h.flags

theorem groupBound (h : r.Gains s tail items groups names) : s.groupBound = r.groupBound + groups := by
  simp only [Reader.groupBound, h.widths]
  omega

end Reader.Gains

/-- A parenthesis that closes the innermost group. -/
theorem reaches_close {r : Reader} {around : Frame} {outer : List Frame} {tail : List Token}
    (hrest : r.rest = .plain ')' :: tail) (hback : tail.head? ≠ some .loneBackslash) (houter : r.outer = around :: outer) :
    ∃ s, r.Reaches s ∧ s.rest = tail ∧ s.frame = { around with items := ⟨r.closed, .yes⟩ :: around.items } ∧
      s.outer = outer ∧ s.widths.length = r.widths.length ∧ s.names = r.names ∧ s.references = r.references ∧
      s.globalFlags = r.globalFlags := by
  have htake := run_take_cons hrest hback
  have hstep : step.run r = .ok ((), ({ r with rest := tail, position := r.position + (Token.plain ')').length } :
      Reader).close around outer) := by
    rw [run_step_cons hrest, if_neg (by decide), if_pos rfl, run_closeGroup houter, htake]
    rfl
  obtain ⟨widths, behindFrom, hwidths, heq⟩ := close_eq
    { r with rest := tail, position := r.position + (Token.plain ')').length } around outer
  rw [heq] at hstep
  refine ⟨_, .of_step hstep ?_, rfl, rfl, rfl, hwidths, rfl, rfl, rfl⟩
  rw [hrest]
  exact Nat.lt_succ_self _

namespace Body

variable (body : Body)

/-- **Behind the parenthesis that opens a group, a body is read up to the closing one.** -/
theorem reaches_closed {r : Reader} {kind : GroupKind} {node : Node} {around : Frame} {outer : List Frame}
    {start : Nat} {tail : List Token}
    (hkind : kind = .capture r.widths.length ∧ node = .group r.widths.length (body.root.shift r.widths.length) ∨
      kind = .plain ∧ node = body.root.shift r.widths.length)
    (hrest : r.rest = body.tokens ++ .plain ')' :: tail) (hback : tail.head? ≠ some .loneBackslash)
    (hframe : r.frame = ⟨kind, start, {}, [], []⟩) (houter : r.outer = around :: outer)
    (hreferences : r.references = []) (hflags : r.globalFlags = []) :
    ∃ s, r.Reaches s ∧ s.rest = tail ∧
      s.frame = { around with items := ⟨node, .yes⟩ :: around.items } ∧
      s.outer = outer ∧ s.widths.length = r.widths.length + body.groups ∧ s.names = r.names ∧ s.references = [] ∧
      s.globalFlags = [] := by
  have hunconditional : ∀ group present, kind ≠ .conditional group present := by
    rcases hkind with ⟨rfl, -⟩ | ⟨rfl, -⟩ <;> simp
  set c : Context := ⟨kind, hunconditional, r.widths.length, r.names, [], around, outer, tail⟩ with hc
  have hholds : c.Holds (.facingText body.text) r := by
    refine ⟨hrest, rfl, (List.append_nil _).symm, ?_, fun _ => hreferences, hflags⟩
    rw [hframe, houter]
    exact .base rfl rfl rfl ⟨rfl, .nil, .nil⟩
  obtain ⟨hnil, -, -, hembedded⟩ := steps_embedded (c := c) body.tokens.length (.facingText body.text) body.state le_rfl
    body.outer body.steps_text
  rcases hembedded r hholds with ⟨s', hs', hreaches⟩ | ⟨hdirty, -⟩
  · have hframes := hs'.frames
    rw [body.outer] at hframes
    generalize hframe' : s'.frame = f', houter' : s'.outer = outer' at hframes
    cases hframes with
    | base _ hkind' _ parts =>
      have hroot : f'.body = body.root.shift r.widths.length := body_moved parts (body.root_refers)
      have hclosed : s'.closed = node := by
        rw [Reader.closed, hframe', hkind', hroot]
        rcases hkind with ⟨hkind, rfl⟩ | ⟨hkind, rfl⟩ <;> simp only [hc, hkind]
      have hrest' : s'.rest = .plain ')' :: tail := by rw [hs'.rest, hnil]; rfl
      obtain ⟨s, hclose, hs, hframe, houter, hwidths, hnames, hrefs, hflags'⟩ :=
        reaches_close hrest' hback houter'
      refine ⟨s, hreaches.trans hclose, hs, ?_, houter, ?_, ?_, ?_, ?_⟩
      · rw [hframe, hclosed]
      · rw [hwidths, hs'.groups]
        rfl
      · rw [hnames, hs'.names, body.clean.names]
        exact List.append_nil _
      · rw [hrefs, hs'.references body.clean]
      · rw [hflags', hs'.flags]
  · exact absurd body.clean hdirty

/-- **As a group of another expression a body matches what it matches by itself**, and it is the group that closes
last. -/
theorem group_follows (text : Array Char) (n : Nat) :
    Option.Rel (fun p q : Place => p.Follows n q ∧ p.lastClosed = some n)
      ((Node.group n (body.root.shift n)).run text {} fun p => if p.position = text.size then some p else none)
      (body.root.run text {} fun p => if p.position = text.size then some p else none) := by
  refine run_shift text body.root body.root_refers _ _ (Place.Follows.start n) _ _ _ fun p q h => ?_
  show Option.Rel _ (if p.position = text.size then _ else none) _
  rw [h.position]
  split_ifs
  · exact .some ⟨h.closeAround, rfl⟩
  · exact .none

end Body

end UrlRouter.Regex
