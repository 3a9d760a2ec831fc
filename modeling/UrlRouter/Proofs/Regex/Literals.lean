/-
Texts that are composite expressions.

`literal?` reads a text as a composite expression without names, if it is made of single items, repeated ones, and
groups around bodies. Composite expressions can be put one behind the other.

Results:
- `literal?_eq_some`: what is read is a readable expression of the same text, and none of its groups has a name.
- `literal?_cons`, `literal?_ordinary`: characters that mean nothing else stand for themselves.
- `items_append`, `names_append`: what two expressions are read as, one behind the other.
-/
import Mathlib.Tactic
import UrlRouter.Proofs.Regex.Composite

namespace UrlRouter.Regex

/-! ## One behind the other -/

namespace Composite

def append : Composite → Composite → Composite
  | done, f => f
  | single t item rest, f => single t item (rest.append f)
  | repeated t node sign least most rest, f => repeated t node sign least most (rest.append f)
  | capture name body rest, f => capture name body (rest.append f)
  | part body rest, f => part body (rest.append f)
  | optional inner rest, f => optional inner (rest.append f)

theorem text_append (e f : Composite) : (e.append f).text = e.text ++ f.text := by
  induction e with
  | done => rfl
  | single t item rest ih => simp only [append, text, ih, List.append_assoc]
  | repeated t node sign least most rest ih => simp only [append, text, ih, List.append_assoc, List.cons_append]
  | capture name body rest ih => cases name <;> simp only [append, text, ih, List.append_assoc, List.cons_append]
  | part body rest ih => simp only [append, text, ih, List.append_assoc, List.cons_append]
  | optional inner rest _ ih => simp only [append, text, ih, List.append_assoc, List.cons_append]

theorem groups_append (e f : Composite) : (e.append f).groups = e.groups + f.groups := by
  induction e with
  | done => exact (Nat.zero_add _).symm
  | single t item rest ih => exact ih
  | repeated t node sign least most rest ih => exact ih
  | capture name body rest ih => simp only [append, groups, ih, Nat.add_assoc]
  | part body rest ih => simp only [append, groups, ih, Nat.add_assoc]
  | optional inner rest _ ih => simp only [append, groups, ih, Nat.add_assoc]

theorem names_append (e f : Composite) (n : Nat) : (e.append f).names n = e.names n ++ f.names (n + e.groups) := by
  induction e generalizing n with
  | done => rfl
  | single t item rest ih => exact ih n
  | repeated t node sign least most rest ih => exact ih n
  | capture name body rest ih => simp only [append, names, groups, ih, List.append_assoc, Nat.add_assoc]
  | part body rest ih => simp only [append, names, groups, ih, Nat.add_assoc]
  | optional inner rest _ ih => simp only [append, names, groups, ih, List.append_assoc, Nat.add_assoc]

theorem items_append (e f : Composite) (n : Nat) : (e.append f).items n = e.items n ++ f.items (n + e.groups) := by
  induction e generalizing n with
  | done => rfl
  | single t item rest ih => simp only [append, items, groups, ih, List.cons_append]
  | repeated t node sign least most rest ih => simp only [append, items, groups, ih, List.cons_append]
  | capture name body rest ih => simp only [append, items, groups, ih, List.cons_append, Nat.add_assoc]
  | part body rest ih => simp only [append, items, groups, ih, List.cons_append, Nat.add_assoc]
  | optional inner rest _ ih => simp only [append, items, groups, ih, List.cons_append, Nat.add_assoc]

theorem readable_append {e f : Composite} (he : e.Readable) (hf : f.Readable) : (e.append f).Readable := by
  induction e with
  | done => exact hf
  | single t item rest ih => exact ⟨he.1, ih he.2⟩
  | repeated t node sign least most rest ih => exact ⟨he.1, he.2.1, ih he.2.2⟩
  | capture name body rest ih => exact ⟨he.1, ih he.2⟩
  | part body rest ih => exact ih he
  | optional inner rest _ ih => exact ⟨he.1, ih he.2⟩

/-- none of the groups has a name -/
def Unnamed (e : Composite) : Prop := ∀ n, e.names n = []

end Composite

/-! ## Texts -/

def textOf (tokens : List Token) : String := String.ofList (tokens.flatMap Token.chars)

theorem flatMap_ofChars (text : List Char) : (Token.ofChars text).flatMap Token.chars = text := by
  induction text using Token.ofChars.induct with
  | case1 => rfl
  | case2 => rfl
  | case3 c rest ih => exact congrArg ('\\' :: c :: ·) ih
  | case4 c rest hnot hnot' ih =>
    have hc : c ≠ '\\' := by
      rintro rfl
      cases rest with
      | nil => exact hnot rfl rfl
      | cons d rest => exact hnot' d rest rfl rfl
    rw [ofChars_cons hc, List.flatMap_cons, ih]
    rfl

/-- Splits the tokens at the parenthesis that closes the innermost open group; `depth` more are open within it. -/
def splitClosing (depth : Nat) : List Token → Option (List Token × List Token)
  | [] => none
  | t :: rest =>
    if t = .plain ')' then
      match depth with
      | 0 => some ([], rest)
      | depth + 1 => (splitClosing depth rest).map fun split => (t :: split.1, split.2)
    else (splitClosing (if t = .plain '(' then depth + 1 else depth) rest).map fun split => (t :: split.1, split.2)

theorem splitClosing_eq_some {depth : Nat} {tokens inner rest : List Token}
    (h : splitClosing depth tokens = some (inner, rest)) : tokens = inner ++ .plain ')' :: rest := by
  induction tokens generalizing depth inner rest with
  | nil => cases h
  | cons t tokens ih =>
    have hlater : ∀ depth, (splitClosing depth tokens).map (fun split => (t :: split.1, split.2)) = some (inner, rest) →
        t :: tokens = inner ++ .plain ')' :: rest := by
      intro depth h
      obtain ⟨⟨before, behind⟩, hsplit, heq⟩ := Option.map_eq_some_iff.1 h
      cases heq
      rw [ih hsplit]
      rfl
    unfold splitClosing at h
    by_cases hclose : t = .plain ')'
    · rw [if_pos hclose] at h
      cases depth with
      | zero =>
        cases h
        rw [hclose]
        rfl
      | succ depth => exact hlater depth h
    · rw [if_neg hclose] at h
      exact hlater _ h

/-- the sign of repetition that comes next, with its bounds -/
def nextSign? : List Token → Option (Char × Nat × Option Nat)
  | .plain c :: _ => (signBounds? c).map (c, ·)
  | _ => none

theorem nextSign?_eq_some {tokens : List Token} {sign : Char} {least : Nat} {most : Option Nat}
    (h : nextSign? tokens = some (sign, least, most)) :
    ∃ rest, tokens = .plain sign :: rest ∧ signBounds? sign = some (least, most) := by
  unfold nextSign? at h
  split at h
  · rename_i c rest
    obtain ⟨bounds, hbounds, heq⟩ := Option.map_eq_some_iff.1 h
    cases heq
    exact ⟨rest, rfl, hbounds⟩
  · cases h

/-- the group that a parenthesis opens in front of these tokens, if a body stands in it -/
def openedGroup? (inner : List Token) : Option (Composite → Composite) :=
  match inner with
  | .plain '?' :: .plain ':' :: inner => (Body.ofText? (textOf inner)).map .part
  | inner => (Body.ofText? (textOf inner)).map (.capture none)

/-- Tokens as a composite expression; `limit` parts are read at most. -/
def literalOf? : Nat → List Token → Option Composite
  | _, [] => some .done
  | 0, _ => none
  | limit + 1, t :: rest =>
    match singleItem? t with
    | some item =>
      match nextSign? rest with
      | none => (literalOf? limit rest).map (.single t item)
      | some (sign, least, most) =>
        match item.quantifiable with
        | .yes => (literalOf? limit (rest.drop 1)).map (.repeated t item.node sign least most)
        | _ => none
    | none =>
      if t = .plain '(' then
        (splitClosing 0 rest).bind fun split =>
          (openedGroup? split.1).bind fun group => (literalOf? limit split.2).map group
      else none

/-- a text as a composite expression -/
def literal? (text : String) : Option Composite :=
  literalOf? (Token.ofChars text.toList).length (Token.ofChars text.toList)

theorem openedGroup?_eq_some {inner : List Token} {group : Composite → Composite} (h : openedGroup? inner = some group)
    (rest : Composite) (tail : List Char) (htail : rest.text = tail) (hrest : rest.Readable) (hnames : rest.Unnamed) :
    (group rest).text = '(' :: (inner.flatMap Token.chars ++ ')' :: tail) ∧ (group rest).Readable ∧
      (group rest).Unnamed := by
  unfold openedGroup? at h
  split at h
  · rename_i inner
    obtain ⟨body, hbody, rfl⟩ := Option.map_eq_some_iff.1 h
    have htext := Body.text_of_ofText? hbody
    refine ⟨?_, hrest, fun n => hnames _⟩
    rw [Composite.text, htext, textOf, String.toList_ofList, htail]
    rfl
  · obtain ⟨body, hbody, rfl⟩ := Option.map_eq_some_iff.1 h
    have htext := Body.text_of_ofText? hbody
    refine ⟨?_, ⟨by simp, hrest⟩, fun n => hnames _⟩
    rw [Composite.text, htext, textOf, String.toList_ofList, htail]

theorem literalOf?_eq_some {limit : Nat} {tokens : List Token} {e : Composite} (h : literalOf? limit tokens = some e) :
    e.text = tokens.flatMap Token.chars ∧ e.Readable ∧ e.Unnamed := by
  induction limit generalizing tokens e with
  | zero =>
    cases tokens with
    | nil =>
      cases h
      exact ⟨rfl, trivial, fun _ => rfl⟩
    | cons t rest => cases h
  | succ limit ih =>
    cases tokens with
    | nil =>
      cases h
      exact ⟨rfl, trivial, fun _ => rfl⟩
    | cons t rest =>
      rw [literalOf?] at h
      cases hitem : singleItem? t with
      | some item =>
        simp only [hitem] at h
        cases hsign : nextSign? rest with
        | none =>
          simp only [hsign] at h
          obtain ⟨e, he, rfl⟩ := Option.map_eq_some_iff.1 h
          obtain ⟨htext, hreadable, hnames⟩ := ih he
          refine ⟨?_, ⟨hitem, hreadable⟩, hnames⟩
          rw [Composite.text, htext, List.flatMap_cons]
        | some found =>
          obtain ⟨sign, least, most⟩ := found
          obtain ⟨rest, rfl, hbounds⟩ := nextSign?_eq_some hsign
          obtain ⟨node, quantifiable⟩ := item
          simp only [hsign] at h
          cases quantifiable with
          | yes =>
            obtain ⟨e, he, rfl⟩ := Option.map_eq_some_iff.1 h
            obtain ⟨htext, hreadable, hnames⟩ := ih he
            refine ⟨?_, ⟨hitem, hbounds, hreadable⟩, hnames⟩
            rw [Composite.text, htext, List.flatMap_cons, List.flatMap_cons]
            rfl
          | no => cases h
          | already => cases h
      | none =>
        simp only [hitem] at h
        split_ifs at h with hopen
        obtain ⟨⟨inner, behind⟩, hsplit, h⟩ := Option.bind_eq_some_iff.1 h
        obtain ⟨group, hgroup, h⟩ := Option.bind_eq_some_iff.1 h
        obtain ⟨e, he, rfl⟩ := Option.map_eq_some_iff.1 h
        obtain ⟨htext, hreadable, hnames⟩ := ih he
        have hopened := openedGroup?_eq_some hgroup e _ htext hreadable hnames
        refine ⟨?_, hopened.2⟩
        rw [hopened.1, hopen, splitClosing_eq_some hsplit, List.flatMap_cons, List.flatMap_append, List.flatMap_cons]
        rfl

/-- **A text that is read as a composite expression** is the text of this expression. -/
theorem literal?_eq_some {text : String} {e : Composite} (h : literal? text = some e) :
    e.text = text.toList ∧ e.Readable ∧ e.Unnamed := by
  have hread := literalOf?_eq_some h
  rwa [flatMap_ofChars] at hread

/-- No text that is read starts with a sign of repetition. -/
theorem nextSign?_of_literalOf? {limit : Nat} {tokens : List Token} {e : Composite}
    (h : literalOf? limit tokens = some e) : nextSign? tokens = none := by
  cases hsign : nextSign? tokens with
  | none => rfl
  | some found =>
    obtain ⟨sign, least, most⟩ := found
    obtain ⟨rest, rfl, hbounds⟩ := nextSign?_eq_some hsign
    cases limit with
    | zero => cases h
    | succ limit =>
      have hsigns : sign = '*' ∨ sign = '+' ∨ sign = '?' := by
        unfold signBounds? at hbounds
        split at hbounds <;> simp at hbounds ⊢
      have hnone : literalOf? (limit + 1) (.plain sign :: rest) = none := by
        rcases hsigns with rfl | rfl | rfl <;> rfl
      rw [hnone] at h
      cases h

/-- A character in front of a text stands for itself, if it means nothing else. -/
theorem literal?_cons {c : Char} (hc : c ∉ metacharacters) {rest : List Char} {e : Composite}
    (h : literal? (String.ofList rest) = some e) :
    literal? (String.ofList (c :: rest)) = some (.single (.plain c) ⟨.char {} (.code c.toNat), .yes⟩ e) := by
  rw [literal?, String.toList_ofList] at h
  have hback : c ≠ '\\' := fun heq => hc (heq ▸ by decide)
  have hitem : singleItem? (.plain c) = some ⟨.char {} (.code c.toNat), .yes⟩ := plainItem?_of_not_mem hc
  rw [literal?, String.toList_ofList, ofChars_cons hback, List.length_cons, literalOf?]
  simp only [hitem, nextSign?_of_literalOf? h, h]
  rfl

namespace Composite

/-- characters that stand for themselves -/
def ordinary : List Char → Composite
  | [] => done
  | c :: rest => single (.plain c) ⟨.char {} (.code c.toNat), .yes⟩ (ordinary rest)

theorem groups_ordinary (chars : List Char) : (ordinary chars).groups = 0 := by
  induction chars with
  | nil => rfl
  | cons c rest ih => exact ih

end Composite

/-- **A text whose characters mean nothing else** stands for itself. -/
theorem literal?_ordinary {chars : List Char} (h : ∀ c ∈ chars, c ∉ metacharacters) :
    literal? (String.ofList chars) = some (Composite.ordinary chars) := by
  induction chars with
  | nil => rfl
  | cons c rest ih =>
    have hrest := ih fun d hd => h d (List.mem_cons_of_mem c hd)
    exact literal?_cons (h c List.mem_cons_self) hrest

end UrlRouter.Regex
