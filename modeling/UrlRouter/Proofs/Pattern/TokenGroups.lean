/-
The numbers of the groups around tokens.

A variant is rendered twice: with named markers around its tokens, to find the numbers of their groups, and without, to be
matched. Where its literals mean just themselves, both are read alike, and so is a variant that stands within a longer
expression: what each token contributes to the numbers of those behind it is its own group and the groups that its
constraint holds when it is compiled by itself, whatever the constraint is.

Results:
- `comes_pieces`: reading rendered pieces fails, or it goes through literals and groups as they stand in the pieces.
- `compile_variantText`: what a variant is compiled to.
- `compile_markedText`: the numbers that are found by the markers.
-/
import Mathlib.Tactic
import UrlRouter.Proofs.Pattern.MetGroups
import UrlRouter.Proofs.Regex.Enclosed

namespace UrlRouter.Pattern

open Regex (Node Reader captureNames groupsOf naming numbersFrom)

variable {overrides : Overrides}

/-! ## Numbers -/

/-- how many groups the constraint of a token holds, compiled by itself -/
def ownGroups (overrides : Overrides) (token : Token) : Nat :=
  ((Regex.compile (token.constraintText overrides)).toOption.map (·.groups)).getD 0

theorem ownGroups_eq {token : Token} {regex : Regex} (h : Regex.compile (token.constraintText overrides) = .ok regex) :
    ownGroups overrides token = regex.groups := by rw [ownGroups, h]; rfl

/-- The named groups around tokens, of which the first is number `n`; `f` gives the names, and `i` tokens came before. -/
def namesFrom (overrides : Overrides) (f : Nat → Token → Option String) (i n : Nat) : List Token → List (String × Nat)
  | [] => []
  | token :: rest => captureNames (f i token) n ++ namesFrom overrides f (i + 1) (n + 1 + ownGroups overrides token) rest

theorem namesFrom_none (i n : Nat) (tokens : List Token) : namesFrom overrides (fun _ _ => none) i n tokens = [] := by
  induction tokens generalizing i n with
  | nil => rfl
  | cons token rest ih => exact ih _ _

theorem namesFrom_some (f : Nat → String) (i n : Nat) (tokens : List Token) :
    namesFrom overrides (fun j _ => some (f j)) i n tokens =
      ((List.range' i tokens.length).map f).zip (numbersFrom (ownGroups overrides) n tokens) := by
  induction tokens generalizing i n with
  | nil => rfl
  | cons token rest ih =>
    rw [namesFrom, ih, List.length_cons, List.range'_succ, List.map_cons, numbersFrom, List.zip_cons_cons]
    rfl

/-! ## Pieces as they are read -/

/-- `nodes` are what pieces are read as when the groups around their tokens have these numbers: each character of a literal
by itself, and for a token the group around its constraint. -/
inductive Laid (overrides : Overrides) : List Piece → List Nat → List Node → Prop
  | nil : Laid overrides [] [] []
  | literal {text : String} {rest : List Piece} {numbers : List Nat} {nodes : List Node}
      (h : Laid overrides rest numbers nodes) : Laid overrides (.literal text :: rest) numbers
        (text.toList.map (fun c => .char {} (.code c.toNat)) ++ nodes)
  | token {token : Token} {rest : List Piece} {number : Nat} {numbers : List Nat} {body : Node} {nodes : List Node}
      {regex : Regex} (constraint : Regex.compile (token.constraintText overrides) = .ok regex)
      (enclosed : Regex.Enclosed regex number body) (h : Laid overrides rest numbers nodes) :
      Laid overrides (.token token :: rest) (number :: numbers) (.group number body :: nodes)

/-- The groups of pieces are numbered from left to right, those in the constraints included. -/
theorem Laid.flatMap_numbers {pieces : List Piece} {n : Nat} {nodes : List Node}
    (h : Laid overrides pieces (numbersFrom (ownGroups overrides) n (pieces.filterMap Piece.token?)) nodes) :
    nodes.flatMap Node.numbers = List.range' n (groupsOf (ownGroups overrides) (pieces.filterMap Piece.token?)) := by
  induction pieces generalizing n nodes with
  | nil =>
    cases h
    rfl
  | cons piece rest ih =>
    cases piece with
    | literal text =>
      cases h with
      | literal h =>
        have hchars : (text.toList.map fun c => Node.char {} (.code c.toNat)).flatMap Node.numbers = [] := by
          simp [Node.numbers]
        rw [List.flatMap_append, hchars, List.nil_append]
        exact ih h
    | token token =>
      have htokens : (Piece.token token :: rest).filterMap Piece.token? = token :: rest.filterMap Piece.token? := rfl
      rw [htokens, numbersFrom] at h
      cases h with
      | token constraint enclosed h =>
        rw [htokens, List.flatMap_cons, ih h, Node.numbers, enclosed.numbers, Regex.groupsOf_cons,
          ownGroups_eq constraint, List.cons_append, List.range'_append_1, Nat.add_assoc, Nat.add_comm 1, List.range'_succ]

/-- Literals mean themselves, and every constraint compiles and names no group. -/
structure Readable (overrides : Overrides) (pieces : List Piece) : Prop where
  literals : ∀ text, .literal text ∈ pieces → PlainLiteral text
  constraints : ∀ token, .token token ∈ pieces →
    ∃ regex, Regex.compile (token.constraintText overrides) = .ok regex ∧ regex.names = []

theorem Readable.tail {piece : Piece} {rest : List Piece} (h : Readable overrides (piece :: rest)) :
    Readable overrides rest :=
  ⟨fun text htext => h.literals text (List.mem_cons_of_mem _ htext),
    fun token htoken => h.constraints token (List.mem_cons_of_mem _ htoken)⟩

/-- whether rendered pieces can be read in this state: with the usual options, and the names are new -/
structure Admits (overrides : Overrides) (f : Nat → Token → Option String) (i : Nat) (pieces : List Piece) (r : Reader) :
    Prop where
  readable : Readable overrides pieces
  inOrder : r.InOrder
  mode : r.frame.mode = {}
  flags : r.globalFlags = []
  nodup : ((r.names ++ namesFrom overrides f i r.groupBound (pieces.filterMap Piece.token?)).map (·.1)).Nodup

/-- Behind the first piece the others can be read. -/
theorem Admits.behind {f : Nat → Token → Option String} {i j : Nat} {piece : Piece} {rest : List Piece} {r s : Reader}
    {tail : List Regex.Token} {nodes : List Node} {groups : Nat} {names : List (String × Nat)}
    (hr : Admits overrides f i (piece :: rest) r) (hs : s.InOrder) (htakes : r.Takes s tail nodes groups names)
    (hnames : namesFrom overrides f i r.groupBound ((piece :: rest).filterMap Piece.token?) =
      names ++ namesFrom overrides f j (r.groupBound + groups) (rest.filterMap Piece.token?)) :
    Admits overrides f j rest s where
  readable := hr.readable.tail
  inOrder := hs
  mode := htakes.mode.trans hr.mode
  flags := htakes.flags.trans hr.flags
  nodup := by
    rw [htakes.names, htakes.groupBound, List.append_assoc, ← hnames]
    exact hr.nodup

/-! ## Reading -/

theorem ofChars_plain {c : Char} (hc : c ∉ Regex.metacharacters) (rest : List Char) :
    Regex.Token.ofChars (c :: rest) = .plain c :: Regex.Token.ofChars rest :=
  Regex.ofChars_cons (fun h => hc (by rw [h]; decide)) rest

/-- Plain characters repeat nothing, and rendered tokens neither. -/
theorem follow_plain {chars rest : List Char} (hchars : ∀ c ∈ chars, c ∉ Regex.metacharacters)
    (h : Regex.Follow (Regex.Token.ofChars rest)) : Regex.Follow (Regex.Token.ofChars (chars ++ rest)) := by
  cases chars with
  | nil => exact h
  | cons c chars =>
    have hne : ∀ d ∈ Regex.metacharacters, c ≠ d := fun d hd heq => hchars c List.mem_cons_self (heq ▸ hd)
    exact Regex.follow_ofChars (hne '\\' (by decide)) (hne '?' (by decide)) (hne '+' (by decide)) (chars ++ rest)

theorem follow_grouped {pieces : List Piece} (hpieces : Readable overrides pieces) (f : Nat → Token → Option String)
    (i : Nat) {more : List Char} (hmore : Regex.Follow (Regex.Token.ofChars more)) :
    Regex.Follow (Regex.Token.ofChars (groupedText overrides f i pieces ++ more)) := by
  induction pieces generalizing i with
  | nil => exact hmore
  | cons piece rest ih =>
    cases piece with
    | literal text =>
      rw [groupedText, List.append_assoc]
      exact follow_plain (hpieces.literals text List.mem_cons_self) (ih hpieces.tail i)
    | token token =>
      rw [groupedText, groupText, List.cons_append, List.cons_append]
      exact Regex.follow_ofChars (by decide) (by decide) (by decide) _

/-- Plain characters are read one by one. -/
theorem reaches_plain {chars : List Char} (hchars : ∀ c ∈ chars, c ∉ Regex.metacharacters) {more : List Char}
    (hmore : Regex.Follow (Regex.Token.ofChars more)) :
    ∀ r : Reader, r.frame.mode = {} → r.rest = Regex.Token.ofChars (chars ++ more) →
      ∃ s, r.Reaches s ∧
        r.Takes s (Regex.Token.ofChars more) (chars.map fun c => .char {} (.code c.toNat)) 0 [] := by
  induction chars with
  | nil => exact fun r _ hrest => ⟨r, .refl r, hrest ▸ Reader.Takes.refl r⟩
  | cons c chars ih =>
    intro r hmode hrest
    have hplain : ∀ d ∈ chars, d ∉ Regex.metacharacters := fun d hd => hchars d (List.mem_cons_of_mem c hd)
    have hc := hchars c List.mem_cons_self
    rw [List.cons_append, ofChars_plain hc] at hrest
    obtain ⟨s, hs, hgains⟩ := Regex.reaches_single (t := .plain c) (Regex.plainItem?_of_not_mem hc) hrest
      (follow_plain hplain hmore).back hmode
    have htakes := Reader.Takes.of_gains hgains
    obtain ⟨t, ht, htakes'⟩ := ih hplain s (htakes.mode.trans hmode) htakes.rest
    exact ⟨t, hs.trans ht, htakes.trans htakes'⟩

/-- The group of a token, or reading fails within it. -/
theorem comes_token {f : Nat → Token → Option String} (hf : ∀ i token, ∀ name ∈ f i token, Text.isIdentifier name = true)
    {token : Token} {rest : List Piece} {i : Nat} {r : Reader} (hr : Admits overrides f i (.token token :: rest) r)
    {regex : Regex} (hcompile : Regex.compile (token.constraintText overrides) = .ok regex) (hnames : regex.names = [])
    {behind : List Char} (hbehind : Regex.Follow (Regex.Token.ofChars behind))
    (hrest : r.rest = Regex.Token.ofChars (groupText (f i token) (token.body overrides) ++ behind)) :
    r.Comes fun s => ∃ body, Regex.Enclosed regex r.groupBound body ∧
      r.Takes s (Regex.Token.ofChars behind) [.group r.groupBound body] (1 + regex.groups)
        (captureNames (f i token) r.groupBound) := by
  have hnew : ∀ name ∈ f i token, r.names.lookup name = none := by
    intro name hname
    have hnodup := hr.nodup
    rw [show (Piece.token token :: rest).filterMap Piece.token? = token :: rest.filterMap Piece.token? from rfl, namesFrom,
      show f i token = some name from hname] at hnodup
    exact Regex.lookup_eq_none_of_nodup hnodup
  have hinner : r.rest = Regex.Token.ofChars
      ('(' :: ((f i token).elim [] naming ++ ((token.constraintText overrides).toList ++ ')' :: behind))) := by
    rw [hrest, groupText, Token.body]
    simp only [List.cons_append, List.append_assoc, List.nil_append]
  obtain ⟨hback, hquestion⟩ := Regex.head_embedded hcompile behind
  refine Regex.comes_capture hr.inOrder (hf i token) hnew hr.mode hback hquestion hbehind.back hinner fun s hs hopens => ?_
  rw [← hopens.widths]
  refine Regex.comes_embedded hcompile hnames hs hopens.frame ?_ (hopens.flags.trans hr.flags)
    (hopens.rest.trans (Regex.tokens_embedded hcompile behind))
  rw [hopens.outer]
  exact List.cons_ne_nil _ _

/-- **Reading rendered pieces** goes through them from left to right, or fails. -/
theorem comes_pieces {f : Nat → Token → Option String} (hf : ∀ i token, ∀ name ∈ f i token, Text.isIdentifier name = true)
    {more : List Char} (hmore : Regex.Follow (Regex.Token.ofChars more)) (pieces : List Piece) :
    ∀ (i : Nat) (r : Reader), Admits overrides f i pieces r →
      r.rest = Regex.Token.ofChars (groupedText overrides f i pieces ++ more) →
      r.Comes fun s => ∃ nodes,
        Laid overrides pieces (numbersFrom (ownGroups overrides) r.groupBound (pieces.filterMap Piece.token?)) nodes ∧
        r.Takes s (Regex.Token.ofChars more) nodes (groupsOf (ownGroups overrides) (pieces.filterMap Piece.token?))
          (namesFrom overrides f i r.groupBound (pieces.filterMap Piece.token?)) := by
  induction pieces with
  | nil =>
    intro i r _ hrest
    exact .of_reaches (.refl r) ⟨[], .nil, hrest ▸ Reader.Takes.refl r⟩
  | cons piece rest ih =>
    intro i r hr hrest
    cases piece with
    | literal text =>
      rw [groupedText, List.append_assoc] at hrest
      obtain ⟨s, hs, htakes⟩ := reaches_plain (hr.readable.literals text List.mem_cons_self)
        (follow_grouped hr.readable.tail f i hmore) r hr.mode hrest
      have hbound : s.groupBound = r.groupBound := htakes.groupBound
      refine .behind hs ((ih i s (hr.behind (hr.inOrder.reached hs) htakes rfl) htakes.rest).mono ?_)
      rintro t ⟨nodes, hlaid, ht⟩
      rw [hbound] at hlaid ht
      have hboth := htakes.trans ht
      rw [Nat.zero_add, List.nil_append] at hboth
      exact ⟨_, .literal hlaid, hboth⟩
    | token token =>
      obtain ⟨regex, hcompile, hnames⟩ := hr.readable.constraints token List.mem_cons_self
      rw [groupedText, List.append_assoc] at hrest
      have hgroup := comes_token hf hr hcompile hnames (follow_grouped hr.readable.tail f (i + 1) hmore) hrest
      refine .bind (hgroup.inOrder hr.inOrder) ?_
      rintro s ⟨hs, body, henclosed, htakes⟩
      rw [← ownGroups_eq hcompile] at htakes
      have hbound : s.groupBound = r.groupBound + 1 + ownGroups overrides token := by
        rw [htakes.groupBound, Nat.add_assoc]
      have hbehind : namesFrom overrides f i r.groupBound ((.token token :: rest).filterMap Piece.token?) =
          captureNames (f i token) r.groupBound ++ namesFrom overrides f (i + 1)
            (r.groupBound + (1 + ownGroups overrides token)) (rest.filterMap Piece.token?) := by
        rw [← Nat.add_assoc]
        rfl
      refine (ih (i + 1) s (hr.behind hs htakes hbehind) htakes.rest).mono ?_
      rintro t ⟨nodes, hlaid, ht⟩
      rw [hbound] at hlaid ht
      have hboth := htakes.trans ht
      rw [← Regex.groupsOf_cons] at hboth
      exact ⟨_, .token hcompile henclosed hlaid, hboth⟩

/-! ## Whole variants -/

/-- What rendered pieces are compiled to. -/
theorem compile_grouped {f : Nat → Token → Option String}
    (hf : ∀ i token, ∀ name ∈ f i token, Text.isIdentifier name = true)
    {pieces : List Piece} (hpieces : Readable overrides pieces)
    (hnodup : ((namesFrom overrides f 0 1 (pieces.filterMap Piece.token?)).map (·.1)).Nodup) {text : String}
    (htext : text.toList = groupedText overrides f 0 pieces) {regex : Regex} (h : Regex.compile text = .ok regex) :
    ∃ nodes, Laid overrides pieces (numbersFrom (ownGroups overrides) 1 (pieces.filterMap Piece.token?)) nodes ∧
      regex = ⟨.ofList nodes, groupsOf (ownGroups overrides) (pieces.filterMap Piece.token?),
        namesFrom overrides f 0 1 (pieces.filterMap Piece.token?)⟩ := by
  have hadmits : Admits overrides f 0 pieces (.facingText text) :=
    ⟨hpieces, Regex.inOrder_facingText text, rfl, rfl, hnodup⟩
  have hend : Regex.Follow (Regex.Token.ofChars []) :=
    ⟨by simp [Regex.Token.ofChars], by simp [Regex.Token.ofChars], by simp [Regex.Token.ofChars]⟩
  have hcomes := comes_pieces hf hend pieces 0 _ hadmits (by rw [List.append_nil, ← htext]; rfl)
  obtain ⟨s, ⟨nodes, hlaid, htakes⟩, -, rfl⟩ := Regex.compile_of_comes h hcomes (by
    rintro s ⟨_, -, htakes⟩
    exact htakes.rest)
  refine ⟨nodes, hlaid, ?_⟩
  rw [htakes.body rfl, htakes.widths, htakes.names]
  congr 1
  exact Nat.zero_add _

/-- **A variant that compiles** holds the groups around its tokens and those in its constraints. -/
theorem compile_variantText {pieces : List Piece} (hpieces : Readable overrides pieces) {regex : Regex}
    (h : Regex.compile (variantText overrides pieces) = .ok regex) :
    regex.groups = groupsOf (ownGroups overrides) (pieces.filterMap Piece.token?) := by
  obtain ⟨_, -, rfl⟩ := compile_grouped (f := fun _ _ => none) (fun _ _ _ hname => by cases hname) hpieces
    (by rw [namesFrom_none]; exact List.nodup_nil) (toList_variantText 0 pieces) h
  rfl

/-- **Every marker is found**, with the number of the group around its token: that comes behind the groups of the tokens
before it and those in their constraints. -/
theorem compile_markedText {pieces : List Piece} (hpieces : Readable overrides pieces) {regex : Regex}
    (h : Regex.compile (markedText overrides 0 pieces) = .ok regex) :
    List.Forall₂ (fun marker number => regex.groupNumber? marker = some number)
      (markers (pieces.filterMap Piece.token?).length)
      (numbersFrom (ownGroups overrides) 1 (pieces.filterMap Piece.token?)) := by
  set tokens := pieces.filterMap Piece.token? with htokens
  have hnames : namesFrom overrides (fun j _ => some (markerName j)) 0 1 tokens =
      (markers tokens.length).zip (numbersFrom (ownGroups overrides) 1 tokens) := by
    rw [namesFrom_some, ← List.range_eq_range', markers]
  have hlength : (markers tokens.length).length = (numbersFrom (ownGroups overrides) 1 tokens).length := by
    rw [Regex.length_numbersFrom, markers, List.length_map, List.length_range]
  have hkeys : ((namesFrom overrides (fun j _ => some (markerName j)) 0 1 tokens).map (·.1)).Nodup := by
    have hfst : ((markers tokens.length).zip (numbersFrom (ownGroups overrides) 1 tokens)).map (·.1) =
        markers tokens.length := List.map_fst_zip hlength.le
    rw [hnames, hfst]
    exact List.nodup_range.map markerName_injective
  obtain ⟨_, -, rfl⟩ := compile_grouped (fun i _ name hname => by cases hname; exact isIdentifier_markerName i) hpieces hkeys
    (toList_markedText 0 pieces) h
  refine List.forall₂_iff_zip.2 ⟨hlength, fun {marker number} hmem => ?_⟩
  exact lookup_of_nodup hkeys (hnames ▸ hmem)

/-- The numbers that were recorded for a variant are those of the groups around its tokens. -/
theorem numbers_of_numbered {pieces : List Piece} {groups : List Nat} (hpieces : Readable overrides pieces)
    (h : Numbered overrides pieces groups) :
    groups = numbersFrom (ownGroups overrides) 1 (pieces.filterMap Piece.token?) := by
  obtain ⟨regex, hregex, -, hgroups⟩ := h.compiles
  have hnumbers := compile_markedText hpieces hregex
  exact List.right_unique_forall₂' (fun marker a b ha hb => Option.some.inj (ha.symm.trans hb)) hgroups hnumbers

end UrlRouter.Pattern
