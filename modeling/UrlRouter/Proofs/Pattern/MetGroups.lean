/-
The named groups of rendered pieces.

Literals and constraints come into an expression as they are, and each constraint gets a group, which has a name or none.
Whether a cursor sees that group, and which names it meets in literals and constraints, does not depend on the names that
the groups are given. So one list says for every way of naming which names an expression has.

Results:
- `names_grouped`: the names that a cursor meets in rendered pieces.
- `sublist_met`: the groups of tokens are met in order, each at most once.
- `written_of_met`, `written_of_met_parts`: a name met in a literal or a constraint is written there.
-/
import Mathlib.Tactic
import UrlRouter.Proofs.Pattern.ParsedForms
import UrlRouter.Proofs.Regex.MetNames

namespace UrlRouter.Pattern

open Regex (Cursor Opens naming)

variable {overrides : Overrides}

/-! ## Rendered pieces -/

/-- what stands around the constraint of a token; `body` is the constraint with the closing parenthesis -/
def groupText (name : Option String) (body : List Char) : List Char := '(' :: (name.elim [] naming ++ body)

/-- the constraint of a token and the parenthesis that closes its group -/
def Token.body (token : Token) (overrides : Overrides) : List Char := (token.constraintText overrides).toList ++ [')']

/-- Pieces with a group around each token, whose name `f` gives from its number and the token; `i` tokens came before. -/
def groupedText (overrides : Overrides) (f : Nat → Token → Option String) (i : Nat) : List Piece → List Char
  | [] => []
  | .literal text :: rest => text.toList ++ groupedText overrides f i rest
  | .token token :: rest => groupText (f i token) (token.body overrides) ++ groupedText overrides f (i + 1) rest

theorem toList_variantText (i : Nat) (pieces : List Piece) :
    (variantText overrides pieces).toList = groupedText overrides (fun _ _ => none) i pieces := by
  induction pieces generalizing i with
  | nil => rfl
  | cons piece rest ih =>
    cases piece with
    | literal text => rw [groupedText, ← ih]; simp [variantText, render]
    | token token => rw [groupedText, ← ih]; simp [variantText, render, groupText, Token.body]

theorem toList_markedText (i : Nat) (pieces : List Piece) :
    (markedText overrides i pieces).toList = groupedText overrides (fun j _ => some (markerName j)) i pieces := by
  induction pieces generalizing i with
  | nil => rfl
  | cons piece rest ih =>
    cases piece with
    | literal text => rw [groupedText, ← ih]; simp [markedText, renderMarked]
    | token token => rw [groupedText, ← ih]; simp [markedText, renderMarked, groupText, Token.body, naming]

theorem toList_aliasedText (captures : List (String × String)) (i : Nat) (pieces : List Piece) :
    (aliasedText overrides captures pieces).toList = groupedText overrides (fun _ => namedBy captures) i pieces := by
  induction pieces generalizing i with
  | nil => rfl
  | cons piece rest ih =>
    cases piece with
    | literal text => rw [groupedText, ← ih]; simp [aliasedText, render]
    | token token => rw [groupedText, ← ih]; simp [aliasedText, render, groupText, Token.body, naming, namedBy]

/-! ## What is met in pieces -/

/-- What a cursor meets in pieces: the names in literals and constraints, and the groups around tokens that it sees, each
with its number; `i` tokens came before. -/
def met (overrides : Overrides) (s : Cursor) (i : Nat) : List Piece → List (String ⊕ Nat × Token)
  | [] => []
  | .literal text :: rest => (s.names text.toList).map .inl ++ met overrides (s.after text.toList) i rest
  | .token token :: rest =>
    (if s.Sees then [.inr (i, token)] else []) ++ ((s.inside.names (token.body overrides)).map .inl ++
      met overrides (s.inside.after (token.body overrides)) (i + 1) rest)

/-- the name behind what is met -/
def metName? (f : Nat → Token → Option String) : String ⊕ Nat × Token → Option String
  | .inl name => some name
  | .inr (i, token) => f i token

/-- No constraint begins like the name of a group. -/
def Unquestioned (overrides : Overrides) (pieces : List Piece) : Prop :=
  ∀ token, .token token ∈ pieces → (token.constraintText overrides).toList.head? ≠ some '?'

theorem Unquestioned.of_subset {pieces part : List Piece} (h : Unquestioned overrides pieces) (hsub : part ⊆ pieces) :
    Unquestioned overrides part := fun token htoken => h token (hsub htoken)

theorem Resolves.unquestioned {pieces : List Piece} (h : Resolves overrides (pieces.filterMap Piece.token?)) :
    Unquestioned overrides pieces := by
  intro token htoken
  obtain ⟨regex, hregex, -⟩ := h.compile (token_mem_iff.2 htoken)
  exact Regex.head?_ne_question_of_compile hregex

theorem body_head? {token : Token} (h : (token.constraintText overrides).toList.head? ≠ some '?') :
    token.body overrides ≠ [] ∧ (token.body overrides).head? ≠ some '?' := by
  refine ⟨List.append_ne_nil_of_right_ne_nil _ (List.cons_ne_nil _ _), ?_⟩
  unfold Token.body
  cases hchars : (token.constraintText overrides).toList with
  | nil => simp
  | cons c rest =>
    rw [hchars] at h
    simpa using h

/-- **The names of groups in rendered pieces**, and where a cursor stands behind them, which does not depend on the names
that the groups around tokens are given. -/
theorem names_grouped {f : Nat → Token → Option String} {pieces : List Piece} (hpieces : Unquestioned overrides pieces)
    (hf : ∀ i token, .token token ∈ pieces → ∀ name ∈ f i token, Text.isIdentifier name = true) (s : Cursor) (i : Nat) :
    s.after (groupedText overrides f i pieces) = s.after (variantText overrides pieces).toList ∧
      s.names (groupedText overrides f i pieces) = (met overrides s i pieces).filterMap (metName? f) := by
  rw [toList_variantText i]
  induction pieces generalizing s i with
  | nil => exact ⟨rfl, rfl⟩
  | cons piece rest ih =>
    have hrest := ih (hpieces.of_subset (List.subset_cons_self piece rest))
      (fun i token htoken => hf i token (List.mem_cons_of_mem piece htoken))
    have hinl : ∀ names : List String, (names.map Sum.inl).filterMap (metName? f) = names := by
      intro names
      rw [List.filterMap_map]
      exact List.filterMap_some
    cases piece with
    | literal text =>
      obtain ⟨hafter, hnames⟩ := hrest (s.after text.toList) i
      rw [groupedText, groupedText, met, Cursor.after_append, Cursor.after_append, Cursor.names_append, hafter, hnames,
        List.filterMap_append, hinl]
      exact ⟨rfl, rfl⟩
    | token token =>
      obtain ⟨hne, hhead⟩ := body_head? (hpieces token List.mem_cons_self)
      obtain ⟨hafter, hnames⟩ := hrest (s.inside.after (token.body overrides)) (i + 1)
      obtain ⟨hgroup, hmet⟩ := s.after_group _ (hf i token List.mem_cons_self) hne hhead
      obtain ⟨hgroup', -⟩ := s.after_group none (fun _ h => by cases h) hne hhead
      rw [groupedText, groupedText, met, groupText, groupText, Cursor.after_append, Cursor.after_append,
        Cursor.names_append, hgroup, hgroup', hmet, hafter, hnames, List.filterMap_append, List.filterMap_append, hinl,
        List.append_assoc]
      refine ⟨rfl, congrArg (· ++ _) ?_⟩
      split_ifs
      · cases hname : f i token <;> simp [metName?, hname]
      · rfl

/-- The groups around tokens that are seen come in the order of the tokens. -/
theorem sublist_met (s : Cursor) (i : Nat) (pieces : List Piece) :
    List.Sublist ((met overrides s i pieces).filterMap Sum.getRight?)
      (((pieces.filterMap Piece.token?).zipIdx i).map Prod.swap) := by
  have hinl : ∀ names : List String, (names.map Sum.inl).filterMap (Sum.getRight? (β := Nat × Token)) = [] := by
    intro names
    rw [List.filterMap_map]
    exact List.filterMap_eq_nil_iff.2 fun _ _ => rfl
  induction pieces generalizing s i with
  | nil => exact List.Sublist.refl _
  | cons piece rest ih =>
    cases piece with
    | literal text =>
      rw [met, List.filterMap_append, hinl]
      exact ih _ i
    | token token =>
      rw [met, List.filterMap_append, List.filterMap_append, hinl]
      split_ifs
      · exact (ih _ (i + 1)).cons_cons (i, token)
      · exact (ih _ (i + 1)).cons (i, token)

/-! ## Names that are written -/

/-- A group of this name is written in a literal or in the constraint of a token. -/
def Written (overrides : Overrides) (name : String) (pieces : List Piece) : Prop :=
  (∃ text, .literal text ∈ pieces ∧ Opens name text.toList) ∨
    ∃ token, .token token ∈ pieces ∧ Opens name (token.constraintText overrides).toList

theorem Written.of_subset {name : String} {pieces part : List Piece} (h : Written overrides name part)
    (hsub : part ⊆ pieces) : Written overrides name pieces :=
  h.imp (fun ⟨text, htext, hopens⟩ => ⟨text, hsub htext, hopens⟩) fun ⟨token, htoken, hopens⟩ =>
    ⟨token, hsub htoken, hopens⟩

/-- Two literals are not apart from each other. -/
def Apart : Piece → Piece → Prop
  | .literal _, .literal _ => False
  | _, _ => True

/-- What is met in the constraint of a token is written in it, and no name is being read behind it. -/
theorem opens_of_body {token : Token} {s : Cursor} :
    (∀ name ∈ s.inside.names (token.body overrides), Opens name (token.constraintText overrides).toList) ∧
      (s.inside.after (token.body overrides)).spot.trail = [] := by
  refine ⟨fun name hname => ?_, ?_⟩
  · have hclose : ∀ t : Cursor, t.names [')'] = [] := Cursor.names_eq_nil (by decide)
    rw [Token.body, Cursor.names_append, hclose, List.append_nil] at hname
    exact Cursor.opens_of_names [] (by rw [s.settled_inside.trail]) hname
  · rw [Token.body, Cursor.after_append]
    exact Cursor.trail_next_eq_nil (.inl rfl) _

/-- **A name met in a literal or a constraint is written there.** It cannot begin in one literal and end in the next, as no
two of them stand side by side. -/
theorem written_of_met {pieces : List Piece} (hpieces : pieces.IsChain Apart) {s : Cursor} {i : Nat}
    (hs : ∀ text, pieces.head? = some (.literal text) → s.spot.trail = []) {name : String}
    (h : .inl name ∈ met overrides s i pieces) : Written overrides name pieces := by
  induction pieces generalizing s i with
  | nil => cases h
  | cons piece rest ih =>
    cases piece with
    | literal text =>
      rw [met, List.mem_append] at h
      rcases h with h | h
      · obtain ⟨_, hname, heq⟩ := List.mem_map.1 h
        cases heq
        exact .inl ⟨text, List.mem_cons_self, Cursor.opens_of_names [] (by rw [hs text rfl]) hname⟩
      · refine (ih hpieces.tail (fun other hother => ?_) h).of_subset (List.subset_cons_self _ _)
        obtain ⟨more, rfl⟩ := List.head?_eq_some_iff.1 hother
        exact absurd (List.isChain_cons_cons.1 hpieces).1 id
    | token token =>
      obtain ⟨hbody, htrail⟩ := @opens_of_body overrides token s
      rw [met, List.mem_append, List.mem_append] at h
      rcases h with h | h | h
      · split_ifs at h
        · cases List.mem_singleton.1 h
        · cases h
      · obtain ⟨_, hname, heq⟩ := List.mem_map.1 h
        cases heq
        exact .inr ⟨token, List.mem_cons_self, hbody _ hname⟩
      · exact (ih hpieces.tail (fun _ _ => htrail) h).of_subset (List.subset_cons_self _ _)

/-! ## Pieces in parts -/

theorem groupedText_append (f : Nat → Token → Option String) (i : Nat) (a b : List Piece) :
    groupedText overrides f i (a ++ b) =
      groupedText overrides f i a ++ groupedText overrides f (i + (a.filterMap Piece.token?).length) b := by
  induction a generalizing i with
  | nil => rfl
  | cons piece a ih =>
    cases piece with
    | literal text =>
      rw [List.cons_append, groupedText, groupedText, ih, List.append_assoc]
      rfl
    | token token =>
      have hcount : (Piece.token token :: a).filterMap Piece.token? = token :: a.filterMap Piece.token? := rfl
      rw [List.cons_append, groupedText, groupedText, ih, List.append_assoc, hcount, List.length_cons]
      congr 3
      omega

theorem met_append {a : List Piece} (ha : Unquestioned overrides a) (s : Cursor) (i : Nat) (b : List Piece) :
    met overrides s i (a ++ b) = met overrides s i a ++
      met overrides (s.after (variantText overrides a).toList) (i + (a.filterMap Piece.token?).length) b := by
  induction a generalizing s i with
  | nil => rfl
  | cons piece a ih =>
    have hrest := ha.of_subset (List.subset_cons_self piece a)
    cases piece with
    | literal text =>
      have hafter : s.after (variantText overrides (.literal text :: a)).toList =
          (s.after text.toList).after (variantText overrides a).toList := by
        rw [toList_variantText 0, groupedText, Cursor.after_append, ← toList_variantText]
      rw [List.cons_append, met, met, ih hrest, hafter, List.append_assoc]
      rfl
    | token token =>
      obtain ⟨hne, hhead⟩ := body_head? (ha token List.mem_cons_self)
      have hafter : s.after (variantText overrides (.token token :: a)).toList =
          (s.inside.after (token.body overrides)).after (variantText overrides a).toList := by
        obtain ⟨hgroup, -⟩ := s.after_group none (fun _ h => by cases h) hne hhead
        rw [toList_variantText 0, groupedText, groupText, Cursor.after_append, hgroup, ← toList_variantText]
      have hcount : (Piece.token token :: a).filterMap Piece.token? = token :: a.filterMap Piece.token? := rfl
      rw [List.cons_append, met, met, ih hrest, hafter, hcount, List.length_cons, List.append_assoc, List.append_assoc]
      congr 4
      omega

/-- Where no name is being read between two parts, a name is written in one of them. -/
theorem written_of_met_parts {parts : List (List Piece)} (hunquestioned : Unquestioned overrides parts.flatten)
    (hparts : ∀ part ∈ parts, part.IsChain Apart) {s : Cursor} {i : Nat}
    (hs : ∀ count ≤ parts.length, (s.after (variantText overrides (parts.take count).flatten).toList).spot.trail = [])
    {name : String} (h : .inl name ∈ met overrides s i parts.flatten) :
    ∃ part ∈ parts, Written overrides name part := by
  induction parts generalizing s i with
  | nil => cases h
  | cons part rest ih =>
    rw [List.flatten_cons] at hunquestioned h
    have hpart := hunquestioned.of_subset (List.subset_append_left part _)
    rw [met_append hpart, List.mem_append] at h
    rcases h with h | h
    · have htrail : s.spot.trail = [] := hs 0 (Nat.zero_le _)
      exact ⟨part, List.mem_cons_self, written_of_met (hparts part List.mem_cons_self) (fun _ _ => htrail) h⟩
    · have hbehind : ∀ count ≤ rest.length, ((s.after (variantText overrides part).toList).after
          (variantText overrides (rest.take count).flatten).toList).spot.trail = [] := by
        intro count hcount
        have hnext := hs (count + 1) (Nat.succ_le_succ hcount)
        rwa [List.take_succ_cons, List.flatten_cons, variantText, toList_render_append, Cursor.after_append] at hnext
      obtain ⟨other, hother, hwritten⟩ := ih (hunquestioned.of_subset (List.subset_append_right part _))
        (fun other hother => hparts other (List.mem_cons_of_mem part hother)) hbehind h
      exact ⟨other, List.mem_cons_of_mem part hother, hwritten⟩

end UrlRouter.Pattern
