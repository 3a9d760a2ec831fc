/-
The variants of a layout, and where their values end.

Every variant is a beginning of the pattern, but for the root path of a pattern that opens with its chain. Where every
token is followed by a slash or by nothing, its value reaches up to the next slash, so that a path has the same values
in every variant that spells it: how deep a path goes does not matter.

Results:
- `prefix_of_mem_variants`, `mem_variants_of_take`: the variants are the beginnings of the pattern.
- `tokens_prefix_of_mem_variants`: the tokens of a variant are the first of the pattern.
- `Spells.unique`: pieces whose tokens end their segments spell a text with one list of values.
- `values_unique`: so do all variants of the layout together.
-/
import Mathlib.Tactic
import UrlRouter.Proofs.Pattern.PlainLayout
import UrlRouter.Proofs.Pattern.Spelling

namespace UrlRouter.Pattern

open Text (AtSlash value_unique)

/-! ## Beginnings of a pattern -/

theorem mem_extensions_iff {start pieces : List Piece} {segments : List (List Piece)} :
    pieces ∈ Layout.extensions start segments ↔
      ∃ count < segments.length, pieces = start ++ (segments.take (count + 1)).flatten := by
  induction segments generalizing start with
  | nil =>
    constructor
    · intro h
      exact absurd h List.not_mem_nil
    · rintro ⟨count, hcount, -⟩
      exact absurd hcount (Nat.not_lt_zero count)
  | cons segment rest ih =>
    rw [Layout.extensions, List.mem_cons, ih]
    constructor
    · rintro (rfl | ⟨count, hcount, rfl⟩)
      · exact ⟨0, Nat.succ_pos _, by simp⟩
      · exact ⟨count + 1, Nat.succ_lt_succ hcount, by simp⟩
    · rintro ⟨count, hcount, rfl⟩
      cases count with
      | zero => exact .inl (by simp)
      | succ count => exact .inr ⟨count, Nat.lt_of_succ_lt_succ hcount, by simp⟩

theorem prefix_flatten_take (segments : List (List Piece)) (count : Nat) :
    (segments.take count).flatten <+: segments.flatten :=
  ⟨(segments.drop count).flatten, by rw [← List.flatten_append, List.take_append_drop]⟩

theorem variants_eq (layout : Layout) :
    layout.variants = (if layout.optionalStart then [.literal "/"] else layout.base) ::
      Layout.extensions layout.base layout.segments := by
  unfold Layout.variants
  congr 2
  split_ifs with hstart
  · exact (optionalStart_iff.1 hstart).1.symm
  · rfl

/-- A variant is the root path, or a beginning of the pattern that opens with the chain if there is no base. -/
theorem prefix_of_mem_variants {layout : Layout} {pieces : List Piece} (h : pieces ∈ layout.variants) :
    (layout.optionalStart = true ∧ pieces = [.literal "/"]) ∨
      (pieces <+: layout.pieces ∧ (layout.optionalStart = true → ∃ first rest,
        layout.segments = first :: rest ∧ first <+: pieces)) := by
  rw [variants_eq] at h
  rcases List.mem_cons.1 h with rfl | h
  · by_cases hstart : layout.optionalStart = true
    · exact .inl ⟨hstart, if_pos hstart⟩
    · rw [if_neg hstart]
      exact .inr ⟨List.prefix_append _ _, fun h => absurd h hstart⟩
  · obtain ⟨count, hcount, rfl⟩ := mem_extensions_iff.1 h
    refine .inr ⟨(List.prefix_append_right_inj _).2 (prefix_flatten_take _ _), fun hstart => ?_⟩
    obtain ⟨first, rest, hsegments⟩ := List.exists_cons_of_length_pos (Nat.zero_lt_of_lt hcount)
    rw [(optionalStart_iff.1 hstart).1, List.nil_append, hsegments, List.take_succ_cons, List.flatten_cons]
    exact ⟨first, rest, rfl, List.prefix_append _ _⟩

/-- The base with some of the segments is a variant, unless that is nothing at all. -/
theorem mem_variants_of_take {layout : Layout} (count : Nat)
    (h : layout.base ++ (layout.segments.take count).flatten ≠ []) :
    layout.base ++ (layout.segments.take count).flatten ∈ layout.variants := by
  rw [variants_eq]
  rcases Nat.eq_zero_or_pos (min count layout.segments.length) with hzero | hpos
  · have hnone : layout.segments.take count = [] := by
      rw [← List.length_eq_zero_iff, List.length_take]
      exact hzero
    rw [hnone, List.flatten_nil, List.append_nil] at h ⊢
    rw [if_neg fun hstart => h (optionalStart_iff.1 hstart).1]
    exact List.mem_cons_self
  · refine List.mem_cons_of_mem _ (mem_extensions_iff.2 ⟨min count layout.segments.length - 1, by omega, ?_⟩)
    rw [Nat.sub_add_cancel hpos, ← List.take_eq_take_min]

/-- A variant has the tokens of the base and of some of the segments. -/
theorem exists_take_of_mem_variants {layout : Layout} {pieces : List Piece} (h : pieces ∈ layout.variants) :
    ∃ count, pieces.filterMap Piece.token? =
      (layout.base ++ (layout.segments.take count).flatten).filterMap Piece.token? := by
  rw [variants_eq] at h
  rcases List.mem_cons.1 h with rfl | h
  · refine ⟨0, ?_⟩
    rw [List.take_zero, List.flatten_nil, List.append_nil]
    split_ifs with hstart
    · rw [(optionalStart_iff.1 hstart).1]
      rfl
    · rfl
  · obtain ⟨count, -, rfl⟩ := mem_extensions_iff.1 h
    exact ⟨count + 1, rfl⟩

theorem tokens_prefix_of_mem_variants {layout : Layout} {pieces : List Piece} (h : pieces ∈ layout.variants) :
    pieces.filterMap Piece.token? <+: layout.tokens := by
  obtain ⟨count, htokens⟩ := exists_take_of_mem_variants h
  rw [htokens, Layout.tokens_eq]
  exact ((List.prefix_append_right_inj _).2 (prefix_flatten_take _ _)).filterMap Piece.token?

/-! ## Tokens that end their segments -/

/-- what follows a token that ends its segment -/
def segmentEnds (rest : List Piece) : Bool := rest.isEmpty || startsWithSlash rest

/-- whether every token is followed by a slash or by nothing -/
def tokensEndSegments : List Piece → Bool
  | [] => true
  | .literal _ :: rest => tokensEndSegments rest
  | .token _ :: rest => segmentEnds rest && tokensEndSegments rest

theorem segmentEnds_iff {rest : List Piece} :
    segmentEnds rest = true ↔ rest = [] ∨ ∃ (text : String) (after : List Piece),
      rest = .literal ("/" ++ text) :: after := by
  unfold segmentEnds
  rw [Bool.or_eq_true, List.isEmpty_iff]
  constructor
  · exact Or.imp_right startsWithSlash_iff.1
  · rintro (rfl | ⟨text, after, rfl⟩)
    · exact .inl rfl
    · exact .inr (by simp [startsWithSlash])

theorem segmentEnds_of_append {a b : List Piece} (h : segmentEnds (a ++ b) = true) : segmentEnds a = true := by
  rw [segmentEnds_iff] at h ⊢
  cases a with
  | nil => exact .inl rfl
  | cons piece rest =>
    rcases h with h | ⟨text, after, h⟩
    · cases h
    · obtain ⟨rfl, -⟩ := List.cons.inj h
      exact .inr ⟨text, rest, rfl⟩

theorem tokensEndSegments_token {token : Token} {rest : List Piece} :
    tokensEndSegments (.token token :: rest) = true ↔ segmentEnds rest = true ∧ tokensEndSegments rest = true := by
  rw [tokensEndSegments, Bool.and_eq_true]

theorem tokensEndSegments_of_append {a b : List Piece} (h : tokensEndSegments (a ++ b) = true) :
    tokensEndSegments a = true := by
  induction a with
  | nil => rfl
  | cons piece rest ih =>
    cases piece with
    | literal t => exact ih h
    | token t =>
      obtain ⟨hend, hrest⟩ := tokensEndSegments_token.1 h
      exact tokensEndSegments_token.2 ⟨segmentEnds_of_append hend, ih hrest⟩

/-- Nothing is spelled without values. -/
theorem Spells.values_nil {pieces : List Piece} {values : List (List Char)} {text : List Char}
    (h : Spells pieces values text) (htext : text = []) : values = [] := by
  induction h with
  | nil => rfl
  | literal t h ih => exact ih (List.append_eq_nil_iff.1 htext).2
  | token t hne hslash h ih => exact absurd (List.append_eq_nil_iff.1 htext).1 hne

/-- What ends a segment spells nothing, or a text that begins with a slash. -/
theorem Spells.atSlash {pieces : List Piece} {values : List (List Char)} {text : List Char}
    (h : Spells pieces values text) (hend : segmentEnds pieces = true) : AtSlash text := by
  rcases segmentEnds_iff.1 hend with rfl | ⟨slash, after, rfl⟩
  · cases h
    exact .inl rfl
  · obtain ⟨rest, rfl, -⟩ := spells_literal.1 h
    exact .inr (by simp)

/-- **Tokens that end their segments leave no choice.** If pieces, alone and with more behind them, spell the same
text, then with the same values. -/
theorem Spells.unique {pieces extra : List Piece} {values others : List (List Char)} {text : List Char}
    (h : Spells pieces values text) (hmore : Spells (pieces ++ extra) others text)
    (hend : tokensEndSegments (pieces ++ extra) = true) : values = others := by
  induction h generalizing others with
  | nil => exact (hmore.values_nil rfl).symm
  | literal t h ih =>
    obtain ⟨rest, htext, hmore⟩ := spells_literal.1 hmore
    rw [← List.append_cancel_left htext] at hmore
    exact ih hmore hend
  | @token t v pieces values text hne hslash h ih =>
    obtain ⟨w, others, rest, rfl, htext, -, hw, hmore⟩ := spells_token.1 hmore
    obtain ⟨hsegment, hend⟩ := tokensEndSegments_token.1 hend
    -- both values reach up to the next slash, whether more pieces come or not
    obtain ⟨rfl, rfl⟩ := value_unique hslash hw (h.atSlash (segmentEnds_of_append hsegment))
      (hmore.atSlash hsegment) htext
    rw [ih hmore hend]

theorem spells_root {values : List (List Char)} {path : List Char} (h : Spells [.literal "/"] values path) :
    path = ['/'] ∧ values = [] := by
  obtain ⟨rest, rfl, hrest⟩ := spells_literal.1 h
  cases hrest with
  | nil => exact ⟨rfl, rfl⟩

/-- A chain that opens the pattern adds no values to the root path. -/
theorem values_nil_of_root {layout : Layout} (hwell : layout.WellFormed) (hstart : layout.optionalStart = true)
    {pieces : List Piece} (hpieces : pieces ∈ layout.variants) {values : List (List Char)}
    (h : Spells pieces values ['/']) : values = [] := by
  rcases prefix_of_mem_variants hpieces with ⟨-, rfl⟩ | ⟨-, hfirst⟩
  · exact (spells_root h).2
  · obtain ⟨text, tail, rest, hsegments⟩ := hwell.slash hstart
    obtain ⟨first, rest', hsegments', after, rfl⟩ := hfirst hstart
    obtain ⟨rfl, -⟩ := List.cons.inj (hsegments.symm.trans hsegments')
    obtain ⟨left, htext, h⟩ := spells_literal.1 h
    rw [String.toList_append, List.append_assoc] at htext
    have hleft : [] = text.toList ++ left := @List.append_cancel_left _ ['/'] _ _ htext
    exact h.values_nil (List.append_eq_nil_iff.1 hleft.symm).2

/-- **A path has the same values in all variants of a layout that spell it**, if every token ends its segment. -/
theorem values_unique {layout : Layout} (hwell : layout.WellFormed) (hend : tokensEndSegments layout.pieces = true)
    {pieces others : List Piece} (hpieces : pieces ∈ layout.variants) (hothers : others ∈ layout.variants)
    {values values' : List (List Char)} {path : List Char} (h : Spells pieces values path)
    (h' : Spells others values' path) : values = values' := by
  rcases prefix_of_mem_variants hpieces with ⟨hstart, rfl⟩ | ⟨hbegins, -⟩
  · obtain ⟨rfl, rfl⟩ := spells_root h
    exact (values_nil_of_root hwell hstart hothers h').symm
  rcases prefix_of_mem_variants hothers with ⟨hstart, rfl⟩ | ⟨hbegins', -⟩
  · obtain ⟨rfl, rfl⟩ := spells_root h'
    exact values_nil_of_root hwell hstart hpieces h
  -- of two beginnings of the pattern, one goes on where the other ends
  rcases List.prefix_or_prefix_of_prefix hbegins hbegins' with ⟨extra, rfl⟩ | ⟨extra, rfl⟩
  · obtain ⟨after, hafter⟩ := hbegins'
    exact h.unique h' (tokensEndSegments_of_append (hafter ▸ hend))
  · obtain ⟨after, hafter⟩ := hbegins
    exact (h'.unique h (tokensEndSegments_of_append (hafter ▸ hend))).symm

end UrlRouter.Pattern
