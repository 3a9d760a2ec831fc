/-
Layouts of paths, and which of them are plain.

The root path and static paths are literals; any other path has the layout that is read from it. A layout is plain for
given constraints when its literals hold none of the characters that mean something in an expression and every token
is left to the default constraint.

Results:
- `pieces_of_dynamic`: a pattern with a token or a chain has a base or a segment.
- `wellFormed_of_layoutOf`: attribute names are distinct, no literal is empty, and a chain that opens the pattern
  starts with a slash.
-/
import Mathlib.Tactic
import UrlRouter.Pattern.Constraint
import UrlRouter.Proofs.Pattern.Grammar
import UrlRouter.Proofs.Regex.Reading

namespace UrlRouter.Pattern

/-! ## Plain layouts -/

/-- the layout that a path stands for -/
def layoutOf (path : String) : Except Error Layout :=
  if path = "" || path = "/" then .ok ⟨[.literal "/"], []⟩
  else if !isDynamic path then .ok ⟨[.literal path], []⟩
  else analyze path

theorem not_root_of_dynamic {path : String} (h : isDynamic path = true) :
    ¬(decide (path = "") || decide (path = "/")) = true := by
  intro hroot
  rcases Bool.or_eq_true_iff.1 hroot with hpath | hpath <;> rw [of_decide_eq_true hpath] at h <;>
    exact absurd h (by decide)

theorem layoutOf_dynamic {path : String} (h : isDynamic path = true) : layoutOf path = analyze path := by
  rw [layoutOf, if_neg (not_root_of_dynamic h), if_neg (by simp [h])]

theorem layoutOf_static {path : String} (h : isDynamic path = false) :
    layoutOf path = .ok ⟨[.literal (if path.isEmpty then "/" else path)], []⟩ := by
  have hstatic : (!isDynamic path) = true := by rw [h]; rfl
  unfold layoutOf
  rw [if_pos hstatic]
  by_cases hempty : path = ""
  · rw [hempty]
    rfl
  · have hpath : ¬path.isEmpty = true := fun h => hempty (String.isEmpty_iff.1 h)
    rw [if_neg hpath]
    split_ifs with hroot
    · have hslash : path = "/" := by simpa [hempty] using hroot
      rw [hslash]
    · rfl

/-- all pieces from left to right -/
def Layout.pieces (layout : Layout) : List Piece := layout.base ++ layout.segments.flatten

/-- no character of a literal means anything in an expression -/
def PlainLiteral (text : String) : Prop := ∀ c ∈ text.toList, c ∉ Regex.metacharacters

/-- The token has no constraint of its own, and none or an empty one is given for it; or it asks for the default. -/
def PlainToken (overrides : Overrides) (token : Token) : Prop :=
  token.constraint = none ∧ (overrides.lookup token.name = none ∨ overrides.lookup token.name = some "") ∨
    token.givenConstraint? overrides = some defaultConstraint

/-- literals and tokens are plain -/
structure PlainPieces (overrides : Overrides) (pieces : List Piece) : Prop where
  literals : ∀ text, .literal text ∈ pieces → PlainLiteral text
  tokens : ∀ token, .token token ∈ pieces → PlainToken overrides token

instance (text : String) : Decidable (PlainLiteral text) :=
  List.decidableBAll (fun c => c ∉ Regex.metacharacters) text.toList

instance (overrides : Overrides) (token : Token) : Decidable (PlainToken overrides token) :=
  inferInstanceAs (Decidable (_ ∧ (_ ∨ _) ∨ _))

def Layout.IsPlain (layout : Layout) (overrides : Overrides) : Prop := PlainPieces overrides layout.pieces

/-- whether a single piece is plain -/
def Piece.IsPlain (overrides : Overrides) : Piece → Prop
  | .literal text => PlainLiteral text
  | .token t => PlainToken overrides t

instance (overrides : Overrides) : DecidablePred (Piece.IsPlain overrides)
  | .literal text => inferInstanceAs (Decidable (PlainLiteral text))
  | .token t => inferInstanceAs (Decidable (PlainToken overrides t))

theorem plainPieces_iff {overrides : Overrides} {pieces : List Piece} :
    PlainPieces overrides pieces ↔ ∀ piece ∈ pieces, piece.IsPlain overrides := by
  constructor
  · intro h piece hpiece
    cases piece with
    | literal text => exact h.literals text hpiece
    | token token => exact h.tokens token hpiece
  · exact fun h => ⟨fun text htext => h _ htext, fun token htoken => h _ htoken⟩

instance (overrides : Overrides) (pieces : List Piece) : Decidable (PlainPieces overrides pieces) :=
  decidable_of_iff' _ plainPieces_iff

instance (layout : Layout) (overrides : Overrides) : Decidable (layout.IsPlain overrides) :=
  inferInstanceAs (Decidable (PlainPieces overrides layout.pieces))

theorem compile_defaultConstraint : ∃ regex, Regex.compile defaultConstraint = .ok regex ∧ regex.names = [] := by
  have hnames : (Regex.compile defaultConstraint).toOption.map (·.names) = some [] := by decide +kernel
  cases hcompile : Regex.compile defaultConstraint with
  | error e => rw [hcompile] at hnames; cases hnames
  | ok regex => rw [hcompile] at hnames; exact ⟨regex, rfl, Option.some.inj hnames⟩

theorem PlainPieces.of_subset {overrides : Overrides} {pieces part : List Piece} (h : PlainPieces overrides pieces)
    (hsub : part ⊆ pieces) : PlainPieces overrides part :=
  ⟨fun text ht => h.literals text (hsub ht), fun token ht => h.tokens token (hsub ht)⟩

theorem token_mem_iff {pieces : List Piece} {token : Token} :
    token ∈ pieces.filterMap Piece.token? ↔ .token token ∈ pieces := by
  rw [List.mem_filterMap]
  constructor
  · rintro ⟨piece, hpiece, h⟩
    cases piece with
    | literal t => cases h
    | token t => cases h; exact hpiece
  · exact fun h => ⟨_, h, rfl⟩

theorem Layout.tokens_eq (layout : Layout) : layout.tokens = layout.pieces.filterMap Piece.token? := by
  rw [tokens, baseTokens, pieces, List.filterMap_append, List.filterMap_flatten, List.flatMap]

/-! ## What reading a pattern ensures -/

/-- A dynamic pattern is not read as nothing. -/
theorem pieces_of_dynamic {pattern : String} {layout : Layout} (hdynamic : isDynamic pattern = true)
    (h : readLayout pattern = .ok layout) : layout.base ≠ [] ∨ layout.segments ≠ [] := by
  by_contra hnone
  obtain ⟨hbase, hsegments⟩ := not_or.1 hnone
  have hwritten : layout.written.toList = [] := by
    rw [toList_written, not_not.1 hbase, not_not.1 hsegments]
    rfl
  have htext := withoutBlanks_of_readLayout h
  rw [hwritten] at htext
  obtain ⟨c, hc, hopen⟩ := List.any_eq_true.1 hdynamic
  have hblank := Text.withoutBlanks_eq_nil_iff.1 htext.symm c hc
  have hcases : c = '\x7b' ∨ c = '[' := by simpa [isTokenOpen] using hopen
  rcases hcases with rfl | rfl
  · exact absurd hblank (by decide)
  · exact absurd hblank (by decide)

/-- what is known of the layout of a path -/
structure Layout.WellFormed (layout : Layout) : Prop where
  nodup : layout.names.Nodup
  literals : ∀ text, .literal text ∈ layout.pieces → text ≠ ""
  base : layout.base ≠ [] ∨ layout.segments ≠ []
  slash : layout.optionalStart = true →
    ∃ (text : String) (first : List Piece) (rest : List (List Piece)),
      layout.segments = (.literal ("/" ++ text) :: first) :: rest

theorem wellFormed_of_layoutOf {path : String} {layout : Layout} (h : layoutOf path = .ok layout) :
    layout.WellFormed := by
  unfold layoutOf at h
  split_ifs at h with hroot hstatic
  · cases h
    exact ⟨List.nodup_nil, by simp [Layout.pieces], .inl (List.cons_ne_nil _ _), fun h => absurd h (by decide)⟩
  · cases h
    refine ⟨List.nodup_nil, fun text htext => ?_, .inl (List.cons_ne_nil _ _), fun h => by cases h⟩
    obtain rfl : text = path := by simpa [Layout.pieces] using htext
    rintro rfl
    exact hroot rfl
  · have hdynamic : isDynamic path = true := by simpa using hstatic
    cases hread : readLayout path with
    | error e => rw [analyze, hread] at h; cases h
    | ok found =>
      rw [analyze, hread] at h
      cases h
      have hgrammatical := grammatical_of_readLayout hread
      refine ⟨hgrammatical.names, fun text htext => ?_, pieces_of_dynamic hdynamic hread, fun hstart => ?_⟩
      · rcases List.mem_append.1 htext with htext | htext
        · exact (hgrammatical.base.each _ htext).1
        · obtain ⟨segment, hsegment, htext⟩ := List.mem_flatten.1 htext
          exact ((hgrammatical.segments segment hsegment).2.each _ htext).1
      · obtain ⟨hempty, hne⟩ := optionalStart_iff.1 hstart
        obtain ⟨first, rest, hsegments⟩ := List.exists_cons_of_ne_nil hne
        obtain ⟨text, pieces, rfl⟩ := hgrammatical.slash hempty first (by rw [hsegments]; rfl)
        exact ⟨text, pieces, rest, hsegments⟩

end UrlRouter.Pattern
