/-
How a text is cut into pieces.

A cut puts the pieces in relation to the text they come from: up to the first brace there is a literal, whose last
blanks are dropped before a token, and the token goes on to the brace that closes the one it opens with. Texts that
were read are cut so, and cut texts are read so. What is known of the pieces that can be read follows from the
relation, without the scanner.

Results:
- `read_eq_ok`: which texts in braces are tokens.
- `readPieces_eq_ok`: reading is cutting.
- `Cut.withoutBlanks_eq`: but for blanks, the pieces hold what the text holds.
- `Cut.grammatical`: the pieces of a tight text keep to the grammar.
- `Grammatical.cut`: pieces that keep to the grammar are cut from what is written for them.
-/
import Mathlib.Tactic
import UrlRouter.Proofs.Pattern.Braces

namespace UrlRouter.Pattern

/-! ## Tokens -/

/-- A name opens with an ASCII letter or an underscore and goes on with word characters and dashes. -/
def IsName (name : List Char) : Prop :=
  ∃ c rest, name = c :: rest ∧ (Text.isAsciiLetter c = true ∨ c = '_') ∧ ∀ d ∈ rest, Text.isWord d = true ∨ d = '-'

theorem isTokenName_iff {name : List Char} : isTokenName name = true ↔ IsName name := by
  cases name with
  | nil => simp [isTokenName, IsName]
  | cons c rest => simp [isTokenName, IsName]

/-- The token that is written with `body` between its braces: its name stands before the first colon and its
constraint after it, each without the blanks around it; an empty constraint is none. -/
structure Token.Spelled (token : Token) (body : List Char) : Prop where
  text : token.text.toList = '\x7b' :: (body ++ ['\x7d'])
  name : token.name.toList = Text.trim (body.takeWhile (· ≠ ':'))
  constraint :
    token.constraint =
      (let constraint := Text.trim ((body.dropWhile (· ≠ ':')).drop 1)
      if constraint.isEmpty then none else some (String.ofList constraint))
  isName : IsName token.name.toList

theorem read_eq_ok {body : List Char} {token : Token} :
    Token.read ('\x7b' :: (body ++ ['\x7d'])) = .ok token ↔ token.Spelled body := by
  have hbody : (('\x7b' :: (body ++ ['\x7d'])).drop 1).dropLast = body := by simp
  unfold Token.read
  rw [hbody]
  dsimp only
  constructor
  · intro h
    split_ifs at h with hname
    all_goals
      cases h
      refine ⟨by simp, by simp, ?_, ?_⟩
      · simp_all
      · rw [String.toList_ofList]
        exact isTokenName_iff.1 hname
  · intro h
    have hname := isTokenName_iff.2 h.isName
    rw [h.name] at hname
    rw [if_pos hname, ← h.name, ← h.text, String.ofList_toList, String.ofList_toList, ← h.constraint]

/-- a token in braces that match -/
def Token.Grammatical (token : Token) : Prop := ∃ body, Balanced body ∧ token.Spelled body

/-! ## Cuts -/

/-- the characters of the pieces as they are written -/
def writtenText (pieces : List Piece) : List Char := pieces.flatMap fun piece => piece.written.toList

@[simp] theorem writtenText_nil : writtenText [] = [] := rfl

@[simp] theorem writtenText_cons (piece : Piece) (pieces : List Piece) :
    writtenText (piece :: pieces) = piece.written.toList ++ writtenText pieces := rfl

@[simp] theorem writtenText_append (left right : List Piece) :
    writtenText (left ++ right) = writtenText left ++ writtenText right := List.flatMap_append

@[simp] theorem writtenText_literalPieces (text : List Char) : writtenText (literalPieces text) = text := by
  cases text with
  | nil => rfl
  | cons c rest => simp [literalPieces, Piece.written]

/-- The pieces are what the text is cut into. -/
inductive Cut : List Char → List Piece → Prop
  | rest {text : List Char} (htext : ∀ c ∈ text, isBrace c = false) : Cut text (literalPieces text)
  | token {before after : List Char} {token : Token} {pieces : List Piece} (hbefore : ∀ c ∈ before, isBrace c = false)
      (htoken : token.Grammatical) (hafter : Cut after pieces) :
      Cut (before ++ (token.text.toList ++ after)) (literalPieces (Text.trimEnd before) ++ .token token :: pieces)

section

variable {buffer text rest : List Char} {pieces : List Piece}

/-- Outside braces the characters are added to the literal so far. -/
theorem readPieces_append (buffer rest : List Char) (h : ∀ c ∈ text, isBrace c = false) :
    readPieces 0 buffer (text ++ rest) = readPieces 0 (buffer ++ text) rest := by
  induction text generalizing buffer with
  | nil => simp
  | cons c text ih =>
    obtain ⟨hopen, hclose⟩ := not_brace (h c List.mem_cons_self)
    rw [List.cons_append, readPieces]
    simp only [hopen, hclose, if_true, Bool.false_eq_true, if_false]
    rw [ih _ fun d hd => h d (List.mem_cons_of_mem c hd), List.append_assoc]
    rfl

/-- A brace ends the literal so far and opens a token. -/
theorem readPieces_open (buffer rest : List Char) : readPieces 0 buffer ('\x7b' :: rest) =
    (readPieces 1 ['\x7b'] rest).map (literalPieces (Text.trimEnd buffer) ++ ·) := rfl

/-- Inside braces reading goes on to the one that closes the token. -/
theorem readPieces_cons (d : Nat) (buffer : List Char) (c : Char) (rest : List Char) :
    readPieces (d + 1) buffer (c :: rest) =
      match depthStep anywhere d c with
      | some e => readPieces (e + 1) (buffer ++ [c]) rest
      | none => do
        let token ← Token.read (buffer ++ [c])
        return .token token :: (← readPieces 0 [] rest) := by
  rw [readPieces]
  rcases brace_cases c with rfl | rfl | hc
  · rfl
  · cases d <;> rfl
  · obtain ⟨hopen, hclose⟩ := not_brace hc
    simp [depthStep, hopen, hclose, anywhere]

theorem readPieces_inside {d e : Nat} (h : depthAfter anywhere d text = some e) :
    readPieces (d + 1) buffer (text ++ rest) = readPieces (e + 1) (buffer ++ text) rest := by
  induction text generalizing d buffer with
  | nil =>
    obtain rfl := Option.some.inj h
    simp
  | cons c text ih =>
    obtain ⟨m, hstep, htext⟩ := depthAfter_cons.1 h
    rw [List.cons_append, readPieces_cons, hstep]
    dsimp only
    rw [ih htext, List.append_assoc]
    rfl

/-- Inside braces there is the rest of a token, which the first unmatched brace closes. -/
theorem exists_token_of_readPieces {d : Nat} (h : readPieces (d + 1) buffer text = .ok pieces) :
    ∃ body after token others, text = body ++ '\x7d' :: after ∧ depthAfter anywhere d body = some 0 ∧
      Token.read (buffer ++ body ++ ['\x7d']) = .ok token ∧ readPieces 0 [] after = .ok others ∧
      pieces = .token token :: others := by
  induction text generalizing d buffer with
  | nil => cases h
  | cons c rest ih =>
    rw [readPieces_cons] at h
    cases hstep : depthStep anywhere d c with
    | some e =>
      rw [hstep] at h
      obtain ⟨body, after, token, others, rfl, hbody, htoken, hafter, hpieces⟩ := ih h
      exact ⟨c :: body, after, token, others, rfl, depthAfter_cons.2 ⟨e, hstep, hbody⟩, by simpa using htoken, hafter,
        hpieces⟩
    | none =>
      rw [hstep] at h
      obtain ⟨token, htoken, h⟩ := bind_eq_ok.1 h
      obtain ⟨others, hafter, hpieces⟩ := bind_eq_ok.1 h
      have hclosing : c = '\x7d' ∧ d = 0 := by
        rcases brace_cases c with rfl | rfl | hc
        · cases hstep
        · cases d with
          | zero => exact ⟨rfl, rfl⟩
          | succ d => cases hstep
        · rw [depthStep_other hc fun _ => rfl] at hstep
          cases hstep
      obtain ⟨rfl, rfl⟩ := hclosing
      exact ⟨[], rest, token, others, rfl, rfl, by simpa using htoken, hafter, (Except.ok.inj hpieces).symm⟩

theorem exists_first_brace (text : List Char) :
    ∃ before rest, text = before ++ rest ∧ (∀ c ∈ before, isBrace c = false) ∧
      ∀ c ∈ rest.head?, isBrace c = true := by
  refine ⟨text.takeWhile (!isBrace ·), text.dropWhile (!isBrace ·), List.takeWhile_append_dropWhile.symm,
    fun c hc => by simpa using List.mem_takeWhile_imp hc, fun c hc => ?_⟩
  have hfirst := List.head?_dropWhile_not (!isBrace ·) text
  rw [Option.mem_def.1 hc] at hfirst
  simpa using hfirst

theorem cut_of_readPieces (h : readPieces 0 [] text = .ok pieces) : Cut text pieces := by
  induction hlength : text.length using Nat.strong_induction_on generalizing text pieces with
  | _ n ih =>
    obtain ⟨before, rest, rfl, hbefore, hrest⟩ := exists_first_brace text
    rw [readPieces_append _ _ hbefore, List.nil_append] at h
    cases rest with
    | nil =>
      rw [List.append_nil]
      obtain rfl := Except.ok.inj h
      exact .rest hbefore
    | cons c rest =>
      rcases brace_cases c with rfl | rfl | hc
      · rw [readPieces_open] at h
        cases hinside : readPieces 1 ['\x7b'] rest with
        | error fault => rw [hinside] at h; cases h
        | ok found =>
          rw [hinside] at h
          have hfound : literalPieces (Text.trimEnd before) ++ found = pieces := Except.ok.inj h
          obtain ⟨body, after, token, others, rfl, hbody, htoken, hafter, rfl⟩ := exists_token_of_readPieces hinside
          have hspelled : token.Spelled body := read_eq_ok.1 (by simpa using htoken)
          have hshort : after.length < n := by
            simp only [List.length_append, List.length_cons] at hlength
            omega
          have htext : '\x7b' :: (body ++ '\x7d' :: after) = token.text.toList ++ after := by simp [hspelled.text]
          rw [← hfound, htext]
          exact .token hbefore ⟨body, balanced_iff.2 hbody, hspelled⟩ (ih _ hshort hafter rfl)
      · cases h
      · exact absurd (hrest c rfl) (by simp [hc])

theorem readPieces_of_cut (h : Cut text pieces) : readPieces 0 [] text = .ok pieces := by
  induction h with
  | @rest text htext =>
    have hread := readPieces_append [] [] htext
    rwa [List.append_nil] at hread
  | @token before after token pieces hbefore htoken _ ih =>
    obtain ⟨body, hbody, hspelled⟩ := htoken
    have htext : token.text.toList ++ after = '\x7b' :: (body ++ '\x7d' :: after) := by simp [hspelled.text]
    have hinside : readPieces 1 ['\x7b'] (body ++ '\x7d' :: after) = .ok (.token token :: pieces) := by
      rw [readPieces_inside (balanced_iff.1 hbody), readPieces_cons]
      show (Token.read ('\x7b' :: (body ++ ['\x7d'])) >>= fun token =>
        readPieces 0 [] after >>= fun pieces => pure (.token token :: pieces)) = _
      rw [read_eq_ok.2 hspelled, ok_bind, ih]
      rfl
    rw [readPieces_append _ _ hbefore, htext, readPieces_open, hinside]
    rfl

/-- **Reading is cutting.** -/
theorem readPieces_eq_ok : readPieces 0 [] text = .ok pieces ↔ Cut text pieces :=
  ⟨cut_of_readPieces, readPieces_of_cut⟩

end

/-! ## The grammar of pieces -/

/-- Two literals never stand side by side, and no literal before a token ends in a blank. -/
def MayPrecede : Piece → Piece → Prop
  | .literal _, .literal _ => False
  | .literal text, .token _ => ∀ c ∈ text.toList.getLast?, Text.isBlank c = false
  | .token _, _ => True

/-- A literal is not empty and made up of `plain` characters that are no braces; a token is in braces that match. -/
def Piece.Grammatical (plain : Char → Bool) : Piece → Prop
  | .literal text => text ≠ "" ∧ ∀ c ∈ text.toList, isBrace c = false ∧ plain c = true
  | .token t => t.Grammatical

/-- the grammar of pieces whose literals are made up of `plain` characters -/
structure Grammatical (plain : Char → Bool) (pieces : List Piece) : Prop where
  each : ∀ piece ∈ pieces, piece.Grammatical plain
  neighbours : pieces.IsChain MayPrecede
  tight : Text.Tight (writtenText pieces)

theorem Token.grammatical_iff {token : Token} :
    token.Grammatical ↔
      (let body := (token.text.toList.drop 1).dropLast
      token.text.toList = '\x7b' :: (body ++ ['\x7d']) ∧ depthAfter anywhere 0 body = some 0 ∧
        (Token.read token.text.toList).toOption = some token) := by
  constructor
  · rintro ⟨body, hbody, hspelled⟩
    have hread := read_eq_ok.2 hspelled
    rw [hspelled.text]
    simpa [hread, Except.toOption] using balanced_iff.1 hbody
  · rintro ⟨htext, hbody, hread⟩
    rw [toOption_eq_some, htext] at hread
    exact ⟨_, balanced_iff.2 hbody, read_eq_ok.1 hread⟩

instance : DecidablePred Token.Grammatical := fun _ => decidable_of_iff' _ Token.grammatical_iff

instance (plain : Char → Bool) : DecidablePred (Piece.Grammatical plain)
  | .literal text => @instDecidableAnd (text ≠ "") (∀ c ∈ text.toList, isBrace c = false ∧ plain c = true) _
      (List.decidableBAll _ _)
  | .token token => inferInstanceAs (Decidable token.Grammatical)

instance : DecidableRel MayPrecede
  | .literal _, .literal _ => inferInstanceAs (Decidable False)
  | .literal text, .token _ => @Option.decidableForallMem _ (fun c => Text.isBlank c = false) _ text.toList.getLast?
  | .token _, _ => inferInstanceAs (Decidable True)

instance (plain : Char → Bool) (pieces : List Piece) : Decidable (Grammatical plain pieces) :=
  decidable_of_iff ((∀ piece ∈ pieces, piece.Grammatical plain) ∧ pieces.IsChain MayPrecede ∧
    Text.Tight (writtenText pieces)) ⟨fun h => ⟨h.1, h.2.1, h.2.2⟩, fun h => ⟨h.each, h.neighbours, h.tight⟩⟩

section

variable {plain : Char → Bool} {text : List Char} {pieces : List Piece}

theorem Token.Grammatical.depthAfter_eq {token : Token} (h : token.Grammatical) {d : Nat} :
    depthAfter plain d token.text.toList = some d := by
  obtain ⟨body, hbody, hspelled⟩ := h
  rw [hspelled.text]
  exact hbody.depthAfter_braces

theorem literalPieces_toList {text : String} (h : text ≠ "") : literalPieces text.toList = [.literal text] := by
  rw [literalPieces, if_neg (by simpa using h), String.ofList_toList]

theorem mem_literalPieces {piece : Piece} :
    piece ∈ literalPieces text ↔ text ≠ [] ∧ piece = .literal (String.ofList text) := by
  unfold literalPieces
  split_ifs with h <;> simp_all

/-! ### What is cut keeps to the grammar -/

/-- But for blanks, the pieces hold what the text holds, in its order. -/
theorem Cut.withoutBlanks_eq (h : Cut text pieces) :
    Text.withoutBlanks (writtenText pieces) = Text.withoutBlanks text := by
  induction h with
  | rest htext => rw [writtenText_literalPieces]
  | token hbefore htoken hafter ih => simp [Piece.written, ih]

/-- Only nothing is cut into no pieces. -/
theorem Cut.eq_nil (h : Cut text []) : text = [] := by
  generalize hpieces : ([] : List Piece) = pieces at h
  cases h with
  | rest => simpa [literalPieces] using hpieces.symm
  | token => simp at hpieces

theorem Cut.depthAfter_eq (h : Cut text pieces) : depthAfter anywhere 0 text = some 0 := by
  induction h with
  | rest htext => exact (depthAfter_of_no_brace htext).2 ⟨rfl, fun _ _ => rfl⟩
  | token hbefore htoken _ ih =>
    exact depthAfter_append.2 ⟨0, (depthAfter_of_no_brace hbefore).2 ⟨rfl, fun _ _ => rfl⟩,
      depthAfter_append.2 ⟨0, htoken.depthAfter_eq, ih⟩⟩

theorem Cut.pieces_grammatical (h : Cut text pieces) {e : Nat} (hplain : depthAfter plain 0 text = some e) :
    ∀ piece ∈ pieces, piece.Grammatical plain := by
  -- a literal is some of the text outside braces
  have hliteral : ∀ {part outside : List Char}, (∀ c ∈ outside, isBrace c = false) → (∀ c ∈ outside, plain c = true) →
      part ⊆ outside → ∀ piece ∈ literalPieces part, piece.Grammatical plain := by
    intro part outside hbrace hplain hsub piece hmem
    obtain ⟨hne, rfl⟩ := mem_literalPieces.1 hmem
    refine ⟨fun hempty => hne (by simpa using congrArg String.toList hempty), ?_⟩
    rw [String.toList_ofList]
    exact fun c hc => ⟨hbrace c (hsub hc), hplain c (hsub hc)⟩
  induction h with
  | rest htext => exact hliteral htext ((depthAfter_of_no_brace htext).1 hplain).2 (List.Subset.refl _)
  | token hbefore htoken _ ih =>
    obtain ⟨m, hbefore', hplain⟩ := depthAfter_append.1 hplain
    obtain ⟨rfl, hall⟩ := (depthAfter_of_no_brace hbefore).1 hbefore'
    obtain ⟨m, htoken', hafter⟩ := depthAfter_append.1 hplain
    rw [htoken.depthAfter_eq] at htoken'
    obtain rfl := Option.some.inj htoken'
    exact List.forall_mem_append.2 ⟨hliteral hbefore hall (Text.trimEnd_prefix _).subset,
      List.forall_mem_cons.2 ⟨htoken, ih hafter⟩⟩

theorem isChain_literalPieces (text : List Char) : (literalPieces text).IsChain MayPrecede := by
  cases text with
  | nil => exact .nil
  | cons c rest => exact .singleton _

theorem Cut.neighbours (h : Cut text pieces) : pieces.IsChain MayPrecede := by
  induction h with
  | rest htext => exact isChain_literalPieces _
  | @token before after token pieces _ _ _ ih =>
    refine List.isChain_append.2 ⟨isChain_literalPieces _, List.isChain_cons.2 ⟨fun _ _ => trivial, ih⟩, ?_⟩
    intro left hleft right hright
    obtain ⟨-, rfl⟩ := mem_literalPieces.1 (List.mem_of_getLast? hleft)
    obtain rfl := Option.some.inj hright
    show ∀ c ∈ (String.ofList (Text.trimEnd before)).toList.getLast?, _
    rw [String.toList_ofList]
    exact Text.last_trimEnd before

theorem Cut.tight (h : Cut text pieces) (htight : Text.Tight text) : Text.Tight (writtenText pieces) := by
  constructor
  · cases h with
    | rest => simpa using htight.head
    | @token before after token pieces hbefore htoken hafter =>
      obtain ⟨body, -, hspelled⟩ := htoken
      cases before with
      | nil => simp [Text.trimEnd, literalPieces, Piece.written, hspelled.text]; decide
      | cons c rest =>
        have hc : Text.isBlank c = false := htight.head c rfl
        obtain ⟨rest', htrim⟩ := Text.trimEnd_cons rest hc
        simpa [htrim] using hc
  · have hlast := htight.last
    clear htight
    induction h with
    | rest => simpa using hlast
    | @token before after token pieces hbefore htoken hafter ih =>
      obtain ⟨body, -, hspelled⟩ := htoken
      have hclose : token.text.toList.getLast? = some '\x7d' := by
        rw [hspelled.text, ← List.cons_append, List.getLast?_concat]
      intro c hc
      have hafter' : ∀ c ∈ after.getLast?, Text.isBlank c = false :=
        fun c hc => hlast c (by simp [List.getLast?_append, Option.mem_def.1 hc])
      cases hwritten : (writtenText pieces).getLast? with
      | some d =>
        have : d = c := by simpa [List.getLast?_append, hwritten, Piece.written] using hc
        exact this ▸ ih hafter' d hwritten
      | none =>
        have : '\x7d' = c := by simpa [List.getLast?_append, hwritten, Piece.written, hclose] using hc
        exact this ▸ (by decide)

theorem Cut.grammatical (h : Cut text pieces) {e : Nat} (hplain : depthAfter plain 0 text = some e)
    (htight : Text.Tight text) : Grammatical plain pieces :=
  ⟨h.pieces_grammatical hplain, h.neighbours, h.tight htight⟩

/-! ### What keeps to the grammar can be cut -/

theorem Grammatical.depthAfter_eq (h : Grammatical plain pieces) :
    depthAfter plain 0 (writtenText pieces) = some 0 := by
  have hpieces := h.each
  clear h
  induction pieces with
  | nil => rfl
  | cons piece rest ih =>
    obtain ⟨hpiece, hrest⟩ := List.forall_mem_cons.1 hpieces
    refine depthAfter_append.2 ⟨0, ?_, ih hrest⟩
    cases piece with
    | literal text => exact (depthAfter_of_no_brace fun c hc => (hpiece.2 c hc).1).2 ⟨rfl, fun c hc => (hpiece.2 c hc).2⟩
    | token token => exact Token.Grammatical.depthAfter_eq hpiece

theorem cut_writtenText : ∀ {pieces : List Piece}, (∀ piece ∈ pieces, piece.Grammatical plain) →
    pieces.IsChain MayPrecede → Cut (writtenText pieces) pieces
  | [], _, _ => .rest fun _ hc => absurd hc List.not_mem_nil
  | .token token :: rest, hpieces, hchain => by
    obtain ⟨htoken, hpieces⟩ := List.forall_mem_cons.1 hpieces
    exact @Cut.token [] _ _ _ (fun _ hc => absurd hc List.not_mem_nil) htoken (cut_writtenText hpieces hchain.tail)
  | [.literal text], hpieces, _ => by
    obtain ⟨hne, htext⟩ := hpieces _ List.mem_cons_self
    have hcut := Cut.rest fun c hc => (htext c hc).1
    rw [literalPieces_toList hne] at hcut
    simpa [Piece.written] using hcut
  | .literal text :: .token token :: rest, hpieces, hchain => by
    obtain ⟨⟨hne, htext⟩, hpieces⟩ := List.forall_mem_cons.1 hpieces
    obtain ⟨htoken, hpieces⟩ := List.forall_mem_cons.1 hpieces
    have hlast : Text.trimEnd text.toList = text.toList := Text.trimEnd_eq_self hchain.rel
    have hcut := Cut.token (fun c hc => (htext c hc).1) htoken (cut_writtenText hpieces hchain.tail.tail)
    rw [hlast, literalPieces_toList hne] at hcut
    exact hcut
  | .literal _ :: .literal _ :: _, _, hchain => absurd hchain.rel id

theorem Grammatical.cut (h : Grammatical plain pieces) : Cut (writtenText pieces) pieces :=
  cut_writtenText h.each h.neighbours

end

end UrlRouter.Pattern
