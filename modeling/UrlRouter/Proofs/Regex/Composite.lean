/-
Composite expressions.

A composite expression is made of tokens that stand for an item each, perhaps repeated, captures `(…)` or `(?P<name>…)`
and parts `(?:…)` around bodies, and optional composite parts `(?:…)?`. Routes are compiled to such expressions when
their literals are of this form and their constraints are bodies; and a chunk of tagged variants is an alternation of
captures.

Results:
- `reaches_composite`: reading a composite expression puts exactly its items into the current alternative, numbers its
  groups from the next free number on and leaves the rest of the text alone.
- `reaches_alternatives`: the same for an alternation of composite expressions between `(?:` and `)`.
- `finish_composite`, `compile_alternatives`: whole expressions.
-/
import Mathlib.Tactic
import UrlRouter.Proofs.Regex.Steps

namespace UrlRouter.Regex

/-! ## Composite expressions -/

/-- a composite expression, as its first part and the rest -/
inductive Composite where
  | done
  | single (t : Token) (item : Item) (rest : Composite)
  | repeated (t : Token) (node : Node) (sign : Char) (least : Nat) (most : Option Nat) (rest : Composite)
  | capture (name : Option String) (body : Body) (rest : Composite)
  | part (body : Body) (rest : Composite)
  | optional (inner rest : Composite)

namespace Composite

def text : Composite → List Char
  | done => []
  | single t _ rest => t.chars ++ rest.text
  | repeated t _ sign _ _ rest => t.chars ++ sign :: rest.text
  | capture none body rest => '(' :: (body.text.toList ++ ')' :: rest.text)
  | capture (some name) body rest =>
    '(' :: '?' :: 'P' :: '<' :: (name.toList ++ '>' :: (body.text.toList ++ ')' :: rest.text))
  | part body rest => '(' :: '?' :: ':' :: (body.text.toList ++ ')' :: rest.text)
  | optional inner rest => '(' :: '?' :: ':' :: (inner.text ++ ')' :: '?' :: rest.text)

def tokens : Composite → List Token
  | done => []
  | single t _ rest => t :: rest.tokens
  | repeated t _ sign _ _ rest => t :: .plain sign :: rest.tokens
  | capture none body rest => .plain '(' :: (body.tokens ++ .plain ')' :: rest.tokens)
  | capture (some name) body rest =>
    .plain '(' :: .plain '?' :: .plain 'P' :: .plain '<' ::
      (name.toList.map .plain ++ .plain '>' :: (body.tokens ++ .plain ')' :: rest.tokens))
  | part body rest => .plain '(' :: .plain '?' :: .plain ':' :: (body.tokens ++ .plain ')' :: rest.tokens)
  | optional inner rest =>
    .plain '(' :: .plain '?' :: .plain ':' :: (inner.tokens ++ .plain ')' :: .plain '?' :: rest.tokens)

/-- the number of groups -/
def groups : Composite → Nat
  | done => 0
  | single _ _ rest | repeated _ _ _ _ _ rest => rest.groups
  | capture _ body rest => 1 + body.groups + rest.groups
  | part body rest => body.groups + rest.groups
  | optional inner rest => inner.groups + rest.groups

/-- the names of the groups with their numbers, the first group being number `n` -/
def names (n : Nat) : Composite → List (String × Nat)
  | done => []
  | single _ _ rest | repeated _ _ _ _ _ rest => rest.names n
  | capture name body rest => captureNames name n ++ rest.names (n + 1 + body.groups)
  | part body rest => rest.names (n + body.groups)
  | optional inner rest => inner.names n ++ rest.names (n + inner.groups)

/-- what is read, item by item; the first group is number `n` -/
def items (n : Nat) : Composite → List Item
  | done => []
  | single _ item rest => item :: rest.items n
  | repeated _ node _ least most rest => ⟨.loop .greedy least most node, .already⟩ :: rest.items n
  | capture _ body rest => ⟨.group n (body.root.shift n), .yes⟩ :: rest.items (n + 1 + body.groups)
  | part body rest => ⟨body.root.shift (n - 1), .yes⟩ :: rest.items (n + body.groups)
  | optional inner rest =>
    ⟨.loop .greedy 0 (some 1) (nodeOf (inner.items n)), .already⟩ :: rest.items (n + inner.groups)

/-- Tokens stand for the items next to them, signs for their bounds, and names are identifiers. -/
def Readable : Composite → Prop
  | done => True
  | single t item rest => singleItem? t = some item ∧ rest.Readable
  | repeated t node sign least most rest =>
    singleItem? t = some ⟨node, .yes⟩ ∧ signBounds? sign = some (least, most) ∧ rest.Readable
  | capture name _ rest => (∀ n ∈ name, Text.isIdentifier n = true) ∧ rest.Readable
  | part _ rest => rest.Readable
  | optional inner rest => inner.Readable ∧ rest.Readable

end Composite

/-! ## Tokens -/

theorem signBounds?_ne {sign : Char} {bounds : Nat × Option Nat} (h : signBounds? sign = some bounds) : sign ≠ '\\' := by
  rintro rfl
  cases h

theorem Composite.Readable.tokens_eq {e : Composite} (he : e.Readable) (rest : List Char) :
    Token.ofChars (e.text ++ rest) = e.tokens ++ Token.ofChars rest := by
  induction e generalizing rest with
  | done => rfl
  | single t item e ih =>
    rw [Composite.text, List.append_assoc, singleItem?_chars he.1, ih he.2, Composite.tokens, List.cons_append]
  | repeated t node sign least most e ih =>
    rw [Composite.text, List.append_assoc, singleItem?_chars he.1, List.cons_append, ofChars_cons (signBounds?_ne he.2.1),
      ih he.2.2]
    rfl
  | part body e ih =>
    simp only [Composite.text, Composite.tokens, List.cons_append, List.append_assoc]
    rw [ofChars_cons (by decide), ofChars_cons (by decide), ofChars_cons (by decide),
      ofChars_append body.loneBackslash_not_mem, ofChars_cons (by decide), ih he]
    rfl
  | capture name body e ih =>
    have hbody : ∀ more, Token.ofChars (body.text.toList ++ ')' :: (e.text ++ more)) =
        body.tokens ++ .plain ')' :: (e.tokens ++ Token.ofChars more) := by
      intro more
      rw [ofChars_append body.loneBackslash_not_mem, ofChars_cons (by decide), ih he.2]
      rfl
    cases name with
    | none =>
      simp only [Composite.text, Composite.tokens, List.cons_append, List.append_assoc]
      rw [ofChars_cons (by decide), hbody]
    | some name =>
      have hname : '\\' ∉ name.toList := fun h => ((not_mem_of_isIdentifier (he.1 name rfl)).2 _ h).2 rfl
      simp only [Composite.text, Composite.tokens, List.cons_append, List.append_assoc]
      rw [ofChars_cons (by decide), ofChars_cons (by decide), ofChars_cons (by decide), ofChars_cons (by decide),
        ofChars_map_plain hname, ofChars_cons (by decide), hbody]
  | optional inner e ihi ihe =>
    simp only [Composite.text, Composite.tokens, List.cons_append, List.append_assoc]
    rw [ofChars_cons (by decide), ofChars_cons (by decide), ofChars_cons (by decide), ihi he.1,
      ofChars_cons (by decide), ofChars_cons (by decide), ihe he.2]

/-! ## Reading a composite expression -/

variable {r : Reader} {tail : List Token}

theorem Composite.Readable.follow {e : Composite} (he : e.Readable) (htail : Follow tail) :
    Follow (e.tokens ++ tail) := by
  cases e with
  | done => exact htail
  | single t item e => exact follow_single he.1
  | repeated t node sign least most e => exact follow_single he.1
  | capture name body e => cases name <;> exact follow_cons (by decide) (by decide)
  | part body e => exact follow_cons (by decide) (by decide)
  | optional inner e => exact follow_cons (by decide) (by decide)

/-- whether the expression can be read in this state: with the usual options, and no name of its groups is taken -/
structure Reader.Admits (r : Reader) (e : Composite) : Prop where
  readable : e.Readable
  mode : r.frame.mode = {}
  nodup : ((r.names ++ e.names r.groupBound).map (·.1)).Nodup
  references : r.references = []
  flags : r.globalFlags = []

/-- What stands behind a piece that was read is read next. -/
theorem Reader.Admits.behind {e f : Composite} {s : Reader} {rest : List Token} {items : List Item} {groups : Nat}
    {names : List (String × Nat)} (hr : r.Admits e) (hgains : r.Gains s rest items groups names) (hf : f.Readable)
    (hnames : e.names r.groupBound = names ++ f.names (r.groupBound + groups)) : s.Admits f := by
  refine ⟨hf, by rw [hgains.frame]; exact hr.mode, ?_, hgains.references.trans hr.references,
    hgains.flags.trans hr.flags⟩
  rw [hgains.names, hgains.groupBound, List.append_assoc, ← hnames]
  exact hr.nodup

theorem lookup_eq_none_of_nodup {names more : List (String × Nat)} {name : String} {n : Nat}
    (h : ((names ++ (name, n) :: more).map (·.1)).Nodup) : names.lookup name = none := by
  rw [List.lookup_eq_none_iff]
  intro e he
  rw [List.map_append] at h
  have hne := (List.nodup_append.1 h).2.2 e.1 (List.mem_map_of_mem he) name (by simp)
  simpa using Ne.symm hne

theorem body_head (body : Body) (tail : List Token) :
    (body.tokens ++ .plain ')' :: tail).head? ≠ some .loneBackslash ∧
      (body.tokens ++ .plain ')' :: tail).head? ≠ some (.plain '?') := by
  have h1 : body.tokens.head? ≠ some .loneBackslash := (steps_of_finish body.finished).1
  have h2 := body.head?_ne_question
  cases hb : body.tokens with
  | nil => simp
  | cons t rest =>
    rw [hb] at h1 h2
    exact ⟨h1, h2⟩

/-- A capture around a body. -/
theorem reaches_capture {name : Option String} {body : Body} {e : Composite}
    (hr : r.Admits (.capture name body e)) (hback : tail.head? ≠ some .loneBackslash)
    (hrest : r.rest = (Composite.capture name body .done).tokens ++ tail) :
    ∃ s, r.Reaches s ∧ r.Gains s tail [⟨.group r.groupBound (body.root.shift r.groupBound), .yes⟩] (1 + body.groups)
      (captureNames name r.groupBound) := by
  obtain ⟨hbody, hquestion⟩ := body_head body tail
  have hnew : ∀ n ∈ name, r.names.lookup n = none := by
    rintro n hn
    cases hn
    exact lookup_eq_none_of_nodup hr.nodup
  obtain ⟨s, hopen, hs, hframe, houter, hwidths, hnames, hreferences, hflags⟩ :=
    reaches_open hr.readable.1 hnew hbody hquestion hr.mode rfl (by
      rw [hrest]
      cases name <;> simp [Composite.tokens])
  have hnumber : s.widths.length = r.groupBound := hwidths
  rw [← hnumber] at hframe
  obtain ⟨t, hclose, ht, hframe', houter', hwidths', hnames', hreferences', hflags'⟩ :=
    body.reaches_closed (.inl ⟨rfl, rfl⟩) hs hback hframe houter (hreferences.trans hr.references)
      (hflags.trans hr.flags)
  rw [hnumber] at hframe' hwidths'
  refine ⟨t, hopen.trans hclose, ht, hframe', houter', ?_, hnames'.trans hnames, hreferences'.trans hr.references.symm,
    hflags'.trans hr.flags.symm⟩
  rw [hwidths', Reader.groupBound]
  omega

/-- A part without a capture around a body. -/
theorem reaches_part {body : Body} (hmode : r.frame.mode = {}) (hreferences : r.references = [])
    (hflags : r.globalFlags = []) (hback : tail.head? ≠ some .loneBackslash)
    (hrest : r.rest = (Composite.part body .done).tokens ++ tail) :
    ∃ s, r.Reaches s ∧ r.Gains s tail [⟨body.root.shift (r.groupBound - 1), .yes⟩] body.groups [] := by
  obtain ⟨s, hopen, hs, hframe, houter, hwidths, hnames, hreferences', hflags'⟩ :=
    reaches_open_plain (body_head body tail).1 hmode (by rw [hrest]; simp [Composite.tokens])
  obtain ⟨t, hclose, ht, hframe', houter', hwidths', hnames', hreferences'', hflags''⟩ :=
    body.reaches_closed (.inr ⟨rfl, rfl⟩) hs hback hframe houter (hreferences'.trans hreferences) (hflags'.trans hflags)
  rw [hwidths] at hframe' hwidths'
  exact ⟨t, hopen.trans hclose, ht, hframe', houter', hwidths',
    (hnames'.trans hnames).trans (List.append_nil _).symm, hreferences''.trans hreferences.symm,
    hflags''.trans hflags.symm⟩

/-- **Reading a composite expression** puts its items into the current alternative. -/
theorem reaches_composite (e : Composite) :
    ∀ (r : Reader) (tail : List Token), r.Admits e → Follow tail → r.rest = e.tokens ++ tail →
      ∃ s, r.Reaches s ∧ r.Gains s tail (e.items r.groupBound) e.groups (e.names r.groupBound) := by
  induction e with
  | done =>
    intro r tail _ _ hrest
    exact ⟨r, .refl r, hrest, rfl, rfl, rfl, (List.append_nil _).symm, rfl, rfl⟩
  | single t item e ih =>
    intro r tail hr htail hrest
    have hnext := (hr.readable.2.follow htail).back
    obtain ⟨s, hs, hgains⟩ := reaches_single hr.readable.1 hrest hnext hr.mode
    obtain ⟨t, ht, hgains'⟩ := ih s tail (hr.behind hgains hr.readable.2 rfl) htail hgains.rest
    rw [hgains.groupBound] at hgains'
    have h := hgains.trans hgains'
    rw [Nat.zero_add, List.nil_append] at h
    exact ⟨t, hs.trans ht, h⟩
  | repeated t node sign least most e ih =>
    intro r tail hr htail hrest
    obtain ⟨hitem, hsign, he⟩ := hr.readable
    have hnext := he.follow htail
    obtain ⟨s, hs, hgains⟩ := reaches_single hitem hrest (by simp) hr.mode
    obtain ⟨u, hu, hurest, huframe, huouter, huwidths, hunames, hureferences, huflags⟩ :=
      reaches_sign hsign hnext (by rw [hgains.frame]; exact hr.mode) hgains.rest (by rw [hgains.frame]; rfl)
    have hgains' : r.Gains u (e.tokens ++ tail) [⟨.loop .greedy least most node, .already⟩] 0 [] := by
      refine ⟨hurest, ?_, huouter.trans hgains.outer, ?_, hunames.trans hgains.names,
        hureferences.trans hgains.references, huflags.trans hgains.flags⟩
      · rw [huframe, hgains.frame]
        rfl
      · rw [huwidths, hgains.widths]
    obtain ⟨v, hv, hgains''⟩ := ih u tail (hr.behind hgains' he rfl) htail hgains'.rest
    rw [hgains'.groupBound] at hgains''
    have h := hgains'.trans hgains''
    rw [Nat.zero_add, List.nil_append] at h
    exact ⟨v, hs.trans (hu.trans hv), h⟩
  | capture name body e ih =>
    intro r tail hr htail hrest
    have hnext := (hr.readable.2.follow htail).back
    obtain ⟨s, hs, hgains⟩ := reaches_capture hr hnext (by rw [hrest]; cases name <;> simp [Composite.tokens])
    have hnames : (Composite.capture name body e).names r.groupBound =
        captureNames name r.groupBound ++ e.names (r.groupBound + (1 + body.groups)) := by
      rw [← Nat.add_assoc]
      rfl
    obtain ⟨t, ht, hgains'⟩ := ih s tail (hr.behind hgains hr.readable.2 hnames) htail hgains.rest
    rw [hgains.groupBound, ← Nat.add_assoc] at hgains'
    exact ⟨t, hs.trans ht, hgains.trans hgains'⟩
  | part body e ih =>
    intro r tail hr htail hrest
    have he : e.Readable := hr.readable
    have hrest' : r.rest = (Composite.part body .done).tokens ++ (e.tokens ++ tail) := by
      rw [hrest]
      simp [Composite.tokens]
    obtain ⟨s, hs, hgains⟩ := reaches_part hr.mode hr.references hr.flags (he.follow htail).back hrest'
    obtain ⟨t, ht, hgains'⟩ := ih s tail (hr.behind hgains he rfl) htail hgains.rest
    rw [hgains.groupBound] at hgains'
    have h := hgains.trans hgains'
    rw [List.nil_append] at h
    exact ⟨t, hs.trans ht, h⟩
  | optional inner e ihi ihe =>
    intro r tail hr htail hrest
    have hnext := hr.readable.2.follow htail
    have hclosing : Follow (.plain ')' :: .plain '?' :: (e.tokens ++ tail)) := follow_cons (by decide) (by decide)
    have hinner := hr.readable.1.follow hclosing
    have hnodup : ((r.names ++ (inner.names r.groupBound ++ e.names (r.groupBound + inner.groups))).map (·.1)).Nodup :=
      hr.nodup
    obtain ⟨s, hs, hsrest, hframe, houter, hwidths, hnames, hreferences, hflags⟩ :=
      reaches_open_plain hinner.back hr.mode (by rw [hrest]; simp [Composite.tokens])
    have hbound : s.groupBound = r.groupBound := by simp only [Reader.groupBound, hwidths]
    have hadmits : s.Admits inner := by
      refine ⟨hr.readable.1, by rw [hframe], ?_, hreferences.trans hr.references, hflags.trans hr.flags⟩
      rw [hnames, hbound]
      rw [← List.append_assoc, List.map_append] at hnodup
      exact (List.nodup_append.1 hnodup).1
    obtain ⟨t, ht, hgains⟩ := ihi s _ hadmits hclosing hsrest
    rw [hbound] at hgains
    have htouter : t.outer = r.frame :: r.outer := hgains.outer.trans houter
    obtain ⟨u, hu, hurest, huframe, huouter, huwidths, hunames, hureferences, huflags⟩ :=
      reaches_close hgains.rest (by simp) htouter
    have hclosed : t.closed = nodeOf (inner.items r.groupBound) := by
      rw [Reader.closed, hgains.frame, hframe]
      simp [Frame.body, Frame.alternative, Node.ofAlternatives, nodeOf]
    rw [hclosed] at huframe
    obtain ⟨v, hv, hvrest, hvframe, hvouter, hvwidths, hvnames, hvreferences, hvflags⟩ :=
      @reaches_sign _ _ '?' _ _ _ _ rfl hnext (by rw [huframe]; exact hr.mode) hurest (by rw [huframe])
    have hgains' : r.Gains v (e.tokens ++ tail)
        [⟨.loop .greedy 0 (some 1) (nodeOf (inner.items r.groupBound)), .already⟩] inner.groups
        (inner.names r.groupBound) := by
      refine ⟨hvrest, ?_, hvouter.trans huouter, ?_, ?_, ?_, ?_⟩
      · rw [hvframe, huframe]
        rfl
      · rw [hvwidths, huwidths, hgains.widths, hwidths]
      · rw [hvnames, hunames, hgains.names, hnames]
      · rw [hvreferences, hureferences, hgains.references, hreferences]
      · rw [hvflags, huflags, hgains.flags, hflags]
    obtain ⟨w, hw, hgains''⟩ := ihe v tail (hr.behind hgains' hr.readable.2 rfl) htail hgains'.rest
    rw [hgains'.groupBound] at hgains''
    exact ⟨w, hs.trans (ht.trans (hu.trans (hv.trans hw))), hgains'.trans hgains''⟩

/-! ## Alternations -/

/-- alternatives with bars between them -/
def choiceText (alternatives : List (List Char)) : List Char := ['|'].intercalate alternatives

/-- an alternation in a part of its own -/
def alternationText (alternatives : List (List Char)) : List Char :=
  '(' :: '?' :: ':' :: (choiceText alternatives ++ [')'])

theorem choiceText_singleton (text : List Char) : choiceText [text] = text := List.intercalate_singleton

theorem choiceText_cons (text next : List Char) (rest : List (List Char)) :
    choiceText (text :: next :: rest) = text ++ '|' :: choiceText (next :: rest) := by
  rw [choiceText, List.intercalate_cons_cons, List.append_assoc]
  rfl

namespace Composite

def choiceTokens : List Composite → List Token
  | [] => []
  | [e] => e.tokens
  | e :: rest => e.tokens ++ .plain '|' :: choiceTokens rest

def choiceGroups : List Composite → Nat
  | [] => 0
  | e :: rest => e.groups + choiceGroups rest

def choiceNames (n : Nat) : List Composite → List (String × Nat)
  | [] => []
  | e :: rest => e.names n ++ choiceNames (n + e.groups) rest

def choiceNodes (n : Nat) : List Composite → List Node
  | [] => []
  | e :: rest => nodeOf (e.items n) :: choiceNodes (n + e.groups) rest

theorem choiceTokens_cons (e f : Composite) (rest : List Composite) :
    choiceTokens (e :: f :: rest) = e.tokens ++ .plain '|' :: choiceTokens (f :: rest) := rfl

theorem choiceTokens_eq (alternatives : List Composite) (h : ∀ e ∈ alternatives, e.Readable) (rest : List Char) :
    Token.ofChars (choiceText (alternatives.map text) ++ rest) = choiceTokens alternatives ++ Token.ofChars rest := by
  induction alternatives with
  | nil => rfl
  | cons e more ih =>
    have he := h e List.mem_cons_self
    have hmore := ih fun f hf => h f (List.mem_cons_of_mem e hf)
    cases more with
    | nil =>
      rw [List.map_cons, List.map_nil, choiceText_singleton]
      exact he.tokens_eq rest
    | cons f more =>
      rw [List.map_cons] at hmore
      rw [List.map_cons, List.map_cons, choiceText_cons, choiceTokens_cons, List.append_assoc, he.tokens_eq,
        List.cons_append, ofChars_cons (by decide), hmore, List.append_assoc]
      rfl

end Composite

theorem choiceTokens_follow {e : Composite} {rest : List Composite} (he : ∀ a ∈ e :: rest, a.Readable)
    {tail : List Token} : (Composite.choiceTokens (e :: rest) ++ .plain ')' :: tail).head? ≠ some .loneBackslash := by
  have hfirst := he e List.mem_cons_self
  cases rest with
  | nil => exact (hfirst.follow (follow_cons (by decide) (by decide))).back
  | cons f rest =>
    rw [Composite.choiceTokens_cons, List.append_assoc]
    exact (hfirst.follow (follow_cons (by decide) (by decide))).back

/-- A bar ends an alternative of a group that is no conditional. -/
theorem reaches_bar (hrest : r.rest = .plain '|' :: tail) (hback : tail.head? ≠ some .loneBackslash)
    (hkind : r.frame.kind = .plain) :
    r.Reaches ({ r with rest := tail, position := r.position + (Token.plain '|').length } : Reader).parted := by
  have hstep : step.run r = .ok ((), ({ r with rest := tail, position := r.position + (Token.plain '|').length } :
      Reader).parted) := by
    rw [run_step_cons hrest, if_pos rfl, run_nextAlternative_parted (by simp [hkind]), run_take_cons hrest hback]
    rfl
  exact .of_step hstep (by rw [hrest]; exact Nat.lt_succ_self _)

/-- whether alternatives can be read in this state, which is that of a group without a capture -/
structure Reader.AdmitsAll (r : Reader) (alternatives : List Composite) : Prop where
  readable : ∀ e ∈ alternatives, e.Readable
  kind : r.frame.kind = .plain
  items : r.frame.items = []
  mode : r.frame.mode = {}
  nodup : ((r.names ++ Composite.choiceNames r.groupBound alternatives).map (·.1)).Nodup
  references : r.references = []
  flags : r.globalFlags = []

/-- **Reading an alternation**: the alternatives of a group are read up to its closing parenthesis; those read before
stand in front. -/
theorem reaches_alternatives (e : Composite) (rest : List Composite) :
    ∀ (r : Reader) (tail : List Token) (around : Frame) (outer : List Frame), r.AdmitsAll (e :: rest) →
      tail.head? ≠ some .loneBackslash → r.outer = around :: outer →
      r.rest = Composite.choiceTokens (e :: rest) ++ .plain ')' :: tail →
      ∃ s, r.Reaches s ∧ s.rest = tail ∧
        s.frame = { around with
          items := ⟨.ofAlternatives (r.frame.done.reverse ++ Composite.choiceNodes r.groupBound (e :: rest)), .yes⟩ ::
            around.items } ∧
        s.outer = outer ∧ s.widths.length = r.widths.length + Composite.choiceGroups (e :: rest) ∧
        s.names = r.names ++ Composite.choiceNames r.groupBound (e :: rest) ∧ s.references = [] ∧
        s.globalFlags = [] := by
  induction rest generalizing e with
  | nil =>
    intro r tail around outer hr hback houter hrest
    have hadmits : r.Admits e :=
      ⟨hr.readable e List.mem_cons_self, hr.mode, by simpa [Composite.choiceNames] using hr.nodup, hr.references, hr.flags⟩
    obtain ⟨s, hs, hgains⟩ := reaches_composite e r _ hadmits (follow_cons (by decide) (by decide)) hrest
    obtain ⟨t, ht, htrest, htframe, htouter, htwidths, htnames, htreferences, htflags⟩ :=
      reaches_close hgains.rest hback (hgains.outer.trans houter)
    have hclosed : s.closed =
        .ofAlternatives (r.frame.done.reverse ++ [nodeOf (e.items r.groupBound)]) := by
      rw [Reader.closed, hgains.frame]
      simp [hr.kind, hr.items, Frame.body, Frame.alternative, nodeOf]
    refine ⟨t, hs.trans ht, htrest, ?_, htouter, ?_, ?_, ?_, ?_⟩
    · rw [htframe, hclosed]
      rfl
    · rw [htwidths, hgains.widths]
      rfl
    · rw [htnames, hgains.names]
      simp [Composite.choiceNames]
    · rw [htreferences, hgains.references, hr.references]
    · rw [htflags, hgains.flags, hr.flags]
  | cons f rest ih =>
    intro r tail around outer hr hback houter hrest
    have hnodup := hr.nodup
    rw [Composite.choiceNames, ← List.append_assoc] at hnodup
    have hadmits : r.Admits e := by
      refine ⟨hr.readable e List.mem_cons_self, hr.mode, ?_, hr.references, hr.flags⟩
      rw [List.map_append] at hnodup
      exact (List.nodup_append.1 hnodup).1
    have hrest' : r.rest = e.tokens ++ .plain '|' :: (Composite.choiceTokens (f :: rest) ++ .plain ')' :: tail) := by
      rw [hrest, Composite.choiceTokens_cons, List.append_assoc]
      rfl
    obtain ⟨s, hs, hgains⟩ := reaches_composite e r _ hadmits (follow_cons (by decide) (by decide)) hrest'
    have hnext : (Composite.choiceTokens (f :: rest) ++ .plain ')' :: tail).head? ≠ some .loneBackslash :=
      choiceTokens_follow fun g hg => hr.readable g (List.mem_cons_of_mem e hg)
    have hbar := reaches_bar hgains.rest hnext (by rw [hgains.frame]; exact hr.kind)
    set u : Reader := ({ s with
      rest := Composite.choiceTokens (f :: rest) ++ .plain ')' :: tail
      position := s.position + (Token.plain '|').length } : Reader).parted with hu
    have hbound : u.groupBound = r.groupBound + e.groups := hgains.groupBound
    have hdone : u.frame.done = nodeOf (e.items r.groupBound) :: r.frame.done := by
      show s.frame.alternative :: s.frame.done = _
      rw [hgains.frame]
      simp [Frame.alternative, hr.items, nodeOf]
    have hframe : u.frame.kind = r.frame.kind ∧ u.frame.mode = r.frame.mode := by
      show s.frame.kind = _ ∧ s.frame.mode = _
      rw [hgains.frame]
      exact ⟨rfl, rfl⟩
    have hadmits' : u.AdmitsAll (f :: rest) := by
      refine ⟨fun g hg => hr.readable g (List.mem_cons_of_mem e hg), hframe.1.trans hr.kind, rfl,
        hframe.2.trans hr.mode, ?_, hgains.references.trans hr.references, hgains.flags.trans hr.flags⟩
      rw [hbound, show u.names = r.names ++ e.names r.groupBound from hgains.names]
      exact hnodup
    obtain ⟨t, ht, htrest, htframe, htouter, htwidths, htnames, htreferences, htflags⟩ :=
      ih f u tail around outer hadmits' hback (hgains.outer.trans houter) rfl
    refine ⟨t, hs.trans (hbar.trans ht), htrest, ?_, htouter, ?_, ?_, htreferences, htflags⟩
    · rw [htframe, hbound, hdone]
      simp [Composite.choiceNodes]
    · rw [htwidths, show u.widths.length = r.widths.length + e.groups from hgains.widths, Composite.choiceGroups,
        Nat.add_assoc]
      rfl
    · rw [htnames, hbound, show u.names = r.names ++ e.names r.groupBound from hgains.names, List.append_assoc]
      rfl

/-! ## Whole expressions -/

theorem problem_shift (offset : Nat) (node : Node) : (node.shift offset).problem? false = node.problem? false := by
  induction node with
  | empty => rfl
  | char mode test => rfl
  | anchor mode place => rfl
  | backref mode n => rfl
  | seq a b iha ihb => simp only [Node.shift, Node.problem?, iha, ihb]
  | alt a b iha ihb => simp only [Node.shift, Node.problem?, iha, ihb]
  | group n body ih => simpa only [Node.shift, Node.problem?] using ih
  | atomic body ih => simpa only [Node.shift, Node.problem?] using ih
  | look direction negated body ih =>
    cases direction with
    | ahead => simpa only [Node.shift, Node.problem?] using ih
    | behind width => simp only [Node.shift, Node.problem?, ih]
  | conditional n present absent ihp iha => simp only [Node.shift, Node.problem?, ihp, iha]
  | loop greed least most body ih => simp only [Node.shift, Node.problem?, ih]

theorem singleItem?_problem {t : Token} {item : Item} (h : singleItem? t = some item) :
    item.node.problem? false = none := by
  rcases singleItem?_node h with ⟨_, hnode⟩ | ⟨_, hnode⟩ <;> rw [hnode] <;> rfl

theorem Composite.items_problem {e : Composite} (he : e.Readable) (n : Nat) :
    ∀ item ∈ e.items n, item.node.problem? false = none := by
  induction e generalizing n with
  | done => intro item h; exact absurd h List.not_mem_nil
  | single t item e ih =>
    intro other h
    rcases List.mem_cons.1 h with rfl | h
    · exact singleItem?_problem he.1
    · exact ih he.2 n other h
  | repeated t node sign least most e ih =>
    intro item h
    rcases List.mem_cons.1 h with rfl | h
    · have hnode : node.problem? false = none := singleItem?_problem he.1
      exact hnode
    · exact ih he.2.2 n item h
  | capture name body e ih =>
    intro item h
    rcases List.mem_cons.1 h with rfl | h
    · exact (problem_shift n body.root).trans body.problem
    · exact ih he.2 _ item h
  | part body e ih =>
    intro item h
    rcases List.mem_cons.1 h with rfl | h
    · exact (problem_shift (n - 1) body.root).trans body.problem
    · exact ih he _ item h
  | optional inner e ihi ihe =>
    intro item h
    rcases List.mem_cons.1 h with rfl | h
    · exact ofList_problem _ (by simpa using ihi he.1 n)
    · exact ihe he.2 _ item h

theorem Composite.nodeOf_problem {e : Composite} (he : e.Readable) (n : Nat) :
    (nodeOf (e.items n)).problem? false = none := ofList_problem _ (by simpa using items_problem he n)

theorem Composite.choiceNodes_problem {alternatives : List Composite} (h : ∀ e ∈ alternatives, e.Readable) (n : Nat) :
    ∀ node ∈ choiceNodes n alternatives, node.problem? false = none := by
  induction alternatives generalizing n with
  | nil => intro node h; exact absurd h List.not_mem_nil
  | cons e rest ih =>
    intro node hnode
    rcases List.mem_cons.1 hnode with rfl | hnode
    · exact nodeOf_problem (h e List.mem_cons_self) n
    · exact ih (fun f hf => h f (List.mem_cons_of_mem e hf)) _ node hnode

/-- Reading that leads to a state with nothing left ends there. -/
theorem finish_of_reaches {text : String} {s : Reader} (hback : (Token.ofChars text.toList).head? ≠ some .loneBackslash)
    (h : ({ rest := Token.ofChars text.toList } : Reader).Reaches s) (hs : s.rest = []) :
    Reader.finish {} text = .ok s := by
  obtain ⟨n, hn, hsteps⟩ := h
  have hstart : Reader.start {} text = .ok { rest := Token.ofChars text.toList } := by
    unfold Reader.start checkNext
    split
    · rename_i heq
      exact absurd (show (Token.ofChars text.toList).head? = _ by rw [show Token.ofChars text.toList = _ from heq]; rfl) hback
    · rfl
  obtain ⟨m, hm⟩ : ∃ m, (Token.ofChars text.toList).length = n + m :=
    ⟨_, (Nat.add_sub_cancel' (le_trans (Nat.le_add_right n _) hn)).symm⟩
  unfold Reader.finish
  rw [hstart, ok_bind]
  show ((steps (Token.ofChars text.toList).length).run _ >>= _) = _
  rw [hm, hsteps m, steps_of_nil hs]
  rfl

theorem body_of_items (kind : GroupKind) (start : Nat) (mode : Mode) (items : List Item) :
    (⟨kind, start, mode, [], items.reverse⟩ : Frame).body = nodeOf items := by
  simp [Frame.body, Frame.alternative, Node.ofAlternatives, nodeOf]

/-- **A composite expression is read to its end**, and nothing but its items and groups is met. -/
theorem finish_composite (e : Composite) (he : e.Readable) (hn : ((e.names 1).map (·.1)).Nodup) :
    ∃ s : Reader, Reader.finish {} (String.ofList e.text) = .ok s ∧ s.outer = [] ∧
      s.frame = ⟨.whole, 0, {}, [], (e.items 1).reverse⟩ ∧ s.widths.length = e.groups ∧ s.names = e.names 1 ∧
      s.references = [] ∧ s.globalFlags = [] := by
  have htokens : Token.ofChars (String.ofList e.text).toList = e.tokens := by
    have h := he.tokens_eq []
    rw [List.append_nil] at h
    rw [String.toList_ofList, h]
    exact List.append_nil _
  have hfollow : Follow [] := ⟨by simp, by simp, by simp⟩
  have hback := (he.follow hfollow).back
  rw [List.append_nil] at hback
  obtain ⟨s, hs, hgains⟩ := reaches_composite e { rest := e.tokens } [] ⟨he, rfl, hn, rfl, rfl⟩ hfollow
    (List.append_nil _).symm
  rw [← htokens] at hs hback
  refine ⟨s, finish_of_reaches hback hs hgains.rest, hgains.outer, ?_, ?_, hgains.names, hgains.references,
    hgains.flags⟩
  · rw [hgains.frame]
    simp [Reader.groupBound]
  · rw [hgains.widths]
    exact Nat.zero_add _

/-- **A composite expression compiles to the tree of its items**, its groups numbered from one. -/
theorem compile_composite (e : Composite) (he : e.Readable) (hn : ((e.names 1).map (·.1)).Nodup) :
    compile (String.ofList e.text) = .ok ⟨nodeOf (e.items 1), e.groups, e.names 1⟩ := by
  obtain ⟨s, hfinish, houter, hframe, hwidths, hnames, hreferences, hflags⟩ := finish_composite e he hn
  have hbody : s.frame.body = nodeOf (e.items 1) := by rw [hframe, body_of_items]
  have hproblem := Composite.nodeOf_problem he 1
  show (Reader.finish {} _ >>= ofReader) = _
  rw [hfinish, ok_bind]
  unfold ofReader
  rw [hbody]
  simp only [houter, hreferences, hflags, hproblem, List.isEmpty_nil, List.contains_nil, List.find?_nil, hwidths, hnames]
  rfl

theorem refers_shift (offset : Nat) (node : Node) : (node.shift offset).refers = node.refers := by
  induction node with
  | empty => rfl
  | char mode test => rfl
  | anchor mode place => rfl
  | backref mode n => rfl
  | seq a b iha ihb => simp only [Node.shift, Node.refers, iha, ihb]
  | alt a b iha ihb => simp only [Node.shift, Node.refers, iha, ihb]
  | group n body ih => exact ih
  | atomic body ih => exact ih
  | look direction negated body ih => exact ih
  | conditional n present absent => rfl
  | loop greed least most body ih => exact ih

theorem singleItem?_refers {t : Token} {item : Item} (h : singleItem? t = some item) : item.node.refers = false := by
  rcases singleItem?_node h with ⟨_, hnode⟩ | ⟨_, hnode⟩ <;> rw [hnode] <;> rfl

/-- A composite expression refers to no group. -/
theorem Composite.items_refers {e : Composite} (he : e.Readable) (n : Nat) :
    (e.items n).any (·.node.refers) = false := by
  induction e generalizing n with
  | done => rfl
  | single t item e ih => exact Bool.or_eq_false_iff.2 ⟨singleItem?_refers he.1, ih he.2 n⟩
  | repeated t node sign least most e ih =>
    have hnode : node.refers = false := singleItem?_refers he.1
    exact Bool.or_eq_false_iff.2 ⟨hnode, ih he.2.2 n⟩
  | capture name body e ih =>
    exact Bool.or_eq_false_iff.2 ⟨(refers_shift n body.root).trans body.root_refers, ih he.2 _⟩
  | part body e ih =>
    exact Bool.or_eq_false_iff.2 ⟨(refers_shift (n - 1) body.root).trans body.root_refers, ih he _⟩
  | optional inner e ihi ihe =>
    have hinner : (nodeOf (inner.items n)).refers = false := by
      rw [nodeOf, ofList_refers, List.any_map]
      exact ihi he.1 n
    exact Bool.or_eq_false_iff.2 ⟨hinner, ihe he.2 _⟩

/-- **A composite expression without names is a body.** -/
theorem Composite.exists_body {e : Composite} (he : e.Readable) (hn : e.names 1 = []) :
    ∃ body : Body, body.text = String.ofList e.text ∧ body.root = nodeOf (e.items 1) ∧ body.groups = e.groups := by
  obtain ⟨s, hfinish, houter, hframe, hwidths, hnames, hreferences, hflags⟩ := finish_composite e he (by rw [hn]; exact .nil)
  have hbody : s.frame.body = nodeOf (e.items 1) := by rw [hframe, body_of_items]
  have hclean : s.Clean := by
    refine ⟨hnames.trans hn, hflags, hreferences, fun f hf => ?_⟩
    rw [houter] at hf
    obtain rfl := List.mem_singleton.1 hf
    rw [hframe]
    simpa [Frame.refers, GroupKind.refers] using items_refers he 1
  exact ⟨⟨_, s, hfinish, houter, hclean, by rw [hbody]; exact nodeOf_problem he 1⟩, rfl, hbody, hwidths⟩

/-- **An alternation of composite expressions compiles to its alternatives in order**, their groups numbered through. -/
theorem compile_alternatives (e : Composite) (rest : List Composite) (he : ∀ a ∈ e :: rest, a.Readable)
    (hn : ((Composite.choiceNames 1 (e :: rest)).map (·.1)).Nodup) :
    compile (String.ofList (alternationText ((e :: rest).map Composite.text))) =
      .ok ⟨.ofAlternatives (Composite.choiceNodes 1 (e :: rest)), Composite.choiceGroups (e :: rest),
        Composite.choiceNames 1 (e :: rest)⟩ := by
  have htokens : Token.ofChars (String.ofList (alternationText ((e :: rest).map Composite.text))).toList =
      .plain '(' :: .plain '?' :: .plain ':' :: (Composite.choiceTokens (e :: rest) ++ [.plain ')']) := by
    rw [String.toList_ofList, alternationText, ofChars_cons (by decide), ofChars_cons (by decide),
      ofChars_cons (by decide), Composite.choiceTokens_eq _ he]
    rfl
  have hback : (Composite.choiceTokens (e :: rest) ++ [Token.plain ')']).head? ≠ some .loneBackslash :=
    choiceTokens_follow he
  obtain ⟨s, hs, hsrest, hsframe, hsouter, hswidths, hsnames, hsreferences, hsflags⟩ := reaches_open_plain
    (r := { rest := .plain '(' :: .plain '?' :: .plain ':' :: (Composite.choiceTokens (e :: rest) ++ [.plain ')']) })
    hback rfl rfl
  have hbound : s.groupBound = 1 := by simp only [Reader.groupBound, hswidths]; rfl
  have hadmits : s.AdmitsAll (e :: rest) := by
    refine ⟨he, by rw [hsframe], by rw [hsframe], by rw [hsframe], ?_, hsreferences, hsflags⟩
    rw [hsnames, hbound]
    exact hn
  obtain ⟨t, ht, htrest, htframe, htouter, htwidths, htnames, htreferences, htflags⟩ :=
    reaches_alternatives e rest s [] _ _ hadmits (by simp) hsouter hsrest
  rw [hbound, hsframe] at htframe
  rw [hbound, hsnames] at htnames
  have hfinish := @finish_of_reaches (String.ofList (alternationText ((e :: rest).map Composite.text))) t
    (by rw [htokens]; simp) (by rw [htokens]; exact hs.trans ht) htrest
  have hbody : t.frame.body = .ofAlternatives (Composite.choiceNodes 1 (e :: rest)) := by
    rw [htframe]
    simp [Frame.body, Frame.alternative, Node.ofList, Node.ofAlternatives]
  have hproblem := ofAlternatives_problem _ (Composite.choiceNodes_problem he 1)
  show (Reader.finish {} _ >>= ofReader) = _
  rw [hfinish, ok_bind]
  unfold ofReader
  rw [hbody]
  simp only [htouter, htreferences, htflags, hproblem, List.isEmpty_nil, List.contains_nil, List.find?_nil, htwidths,
    hswidths, htnames]
  simp
  rfl

end UrlRouter.Regex
