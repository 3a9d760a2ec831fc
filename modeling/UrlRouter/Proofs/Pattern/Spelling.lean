/-
Which texts the pieces of a pattern spell.

A text is spelled by pieces when it is the pieces with every token replaced by some non-empty text without a slash.
`ways` lists all the ways to spell a beginning of a text in order of preference, longer values first and the first
token counting most; `reading?` is the first of them that spells the whole text. No regular expression is involved.

Results:
- `reading?_eq_some`: the reading is the spelling whose values are lexicographically longest.
- `ways_head_full`: where some way spells the whole text, the most preferred way of all does.
- `first_nested`: taking optional segments greedily, as deep as they go, gives the values of the first variant that
  spells the text: depth comes last in the order of preference, yet the shallowest variant wins.
-/
import Mathlib.Tactic
import UrlRouter.Pattern.Layout
import UrlRouter.Proofs.Text.Cuts

namespace UrlRouter.Pattern

open Text (cuts mem_cuts cuts_pairwise exists_first_cut)

/-! ## Ways to spell a beginning of a text -/

/-- the values of the tokens and the text that is left -/
abbrev Way := List (List Char) × List Char

/-- the way with one more value in front -/
def Way.withValue (v : List Char) (way : Way) : Way := (v :: way.1, way.2)

/-- The ways to spell the pieces and then go on with `next`, the most preferred first. -/
def waysThen (next : List Char → List Way) : List Piece → List Char → List Way
  | [], text => next text
  | .literal t :: rest, text =>
    if t.toList <+: text then waysThen next rest (text.drop t.toList.length) else []
  | .token _ :: rest, text => (cuts text).flatMap fun (v, left) => (waysThen next rest left).map (Way.withValue v)

/-- nothing more to spell -/
def stop (text : List Char) : List Way := [([], text)]

def ways : List Piece → List Char → List Way := waysThen stop

/-- the values of the first way that leaves nothing -/
def firstFull (found : List Way) : Option (List (List Char)) := (found.find? (·.2.isEmpty)).map (·.1)

/-- the values of the preferred way to spell the whole text -/
def reading? (pieces : List Piece) (text : List Char) : Option (List (List Char)) := firstFull (ways pieces text)

theorem waysThen_append (next : List Char → List Way) (a b : List Piece) :
    waysThen next (a ++ b) = waysThen (waysThen next b) a := by
  funext text
  induction a generalizing text with
  | nil => rfl
  | cons piece rest ih => cases piece <;> simp only [List.cons_append, waysThen, ih]

theorem waysThen_eq_flatMap (next : List Char → List Way) (pieces : List Piece) (text : List Char) :
    waysThen next pieces text =
      (ways pieces text).flatMap fun (vs, left) => (next left).map fun (ws, left) => (vs ++ ws, left) := by
  induction pieces generalizing text with
  | nil => simp [ways, waysThen, stop]
  | cons piece rest ih =>
    cases piece with
    | literal t =>
      simp only [ways, waysThen]
      split_ifs
      · exact ih _
      · rfl
    | token t =>
      simp only [ways, waysThen, List.flatMap_assoc]
      refine List.flatMap_congr fun ⟨v, left⟩ _ => ?_
      rw [ih left, List.map_flatMap, List.flatMap_map]
      refine List.flatMap_congr fun ⟨vs, left⟩ _ => ?_
      simp [Way.withValue, Function.comp_def]

theorem mem_ways_literal {t : String} {rest : List Piece} {text : List Char} {way : Way} :
    way ∈ ways (.literal t :: rest) text ↔ t.toList <+: text ∧ way ∈ ways rest (text.drop t.toList.length) := by
  simp only [ways, waysThen]
  split_ifs with hp
  · exact ⟨fun h => ⟨hp, h⟩, fun h => h.2⟩
  · exact ⟨fun h => absurd h List.not_mem_nil, fun h => absurd h.1 hp⟩

theorem mem_ways_token {t : Token} {rest : List Piece} {text : List Char} {way : Way} :
    way ∈ ways (.token t :: rest) text ↔
      ∃ v left vs, (v, left) ∈ cuts text ∧ (vs, way.2) ∈ ways rest left ∧ way.1 = v :: vs := by
  simp only [ways, waysThen, List.mem_flatMap, List.mem_map, Prod.exists]
  constructor
  · rintro ⟨v, left, hcut, vs, end', hw, rfl⟩
    exact ⟨v, left, vs, hcut, hw, rfl⟩
  · rintro ⟨v, left, vs, hcut, hw, he⟩
    exact ⟨v, left, hcut, vs, way.2, hw, Prod.ext he.symm rfl⟩

/-! ## The preferred way spells the whole text if any way does -/

/-- Where the pieces spell all of a text, they spell all of any end of it that they begin to spell and that has as
many slashes. -/
theorem full_of_suffix {pieces : List Piece} {text whole : List Char} (hsuffix : text <:+ whole)
    (hcount : text.count '/' = whole.count '/') (hwhole : ∃ vs, (vs, []) ∈ ways pieces whole)
    (hsome : ∃ way, way ∈ ways pieces text) : ∃ vs, (vs, []) ∈ ways pieces text := by
  induction pieces generalizing text whole with
  | nil =>
    obtain ⟨vs, h⟩ := hwhole
    obtain ⟨-, rfl⟩ : vs = [] ∧ [] = whole := by simpa [ways, waysThen, stop] using h
    obtain rfl := List.suffix_nil.1 hsuffix
    exact ⟨[], by simp [ways, waysThen, stop]⟩
  | cons piece rest ih =>
    obtain ⟨vs, hvs⟩ := hwhole
    obtain ⟨way, hway⟩ := hsome
    cases piece with
    | literal t =>
      obtain ⟨⟨whole, rfl⟩, hvs⟩ := mem_ways_literal.1 hvs
      obtain ⟨⟨text, rfl⟩, hway⟩ := mem_ways_literal.1 hway
      rw [List.drop_left] at hvs hway
      suffices h : ∃ vs, (vs, []) ∈ ways rest text by
        obtain ⟨vs, h⟩ := h
        exact ⟨vs, mem_ways_literal.2 ⟨⟨text, rfl⟩, by rwa [List.drop_left]⟩⟩
      refine ih ?_ ?_ ⟨vs, hvs⟩ ⟨way, hway⟩
      · refine List.suffix_of_suffix_length_le ((List.suffix_append _ _).trans hsuffix) (List.suffix_append _ _) ?_
        have := hsuffix.length_le
        simpa using this
      · simpa using hcount
    | token t =>
      obtain ⟨v0, whole', vs', hcut0, hvs', -⟩ := mem_ways_token.1 hvs
      obtain ⟨v, text', ws, hcut, hws, -⟩ := mem_ways_token.1 hway
      suffices h : ∃ v left us, (v, left) ∈ cuts text ∧ (us, []) ∈ ways rest left by
        obtain ⟨v, left, us, hcut, hus⟩ := h
        exact ⟨v :: us, mem_ways_token.2 ⟨v, left, us, hcut, hus, rfl⟩⟩
      obtain ⟨rfl, -, hv0⟩ := mem_cuts.1 hcut0
      obtain ⟨rfl, hne, hv⟩ := mem_cuts.1 hcut
      rw [List.count_append, List.count_append, List.count_eq_zero_of_not_mem hv,
        List.count_eq_zero_of_not_mem hv0, Nat.zero_add, Nat.zero_add] at hcount
      have htext : text' <:+ v0 ++ whole' := (List.suffix_append v text').trans hsuffix
      have hwhole' : whole' <:+ v0 ++ whole' := List.suffix_append v0 whole'
      rcases Nat.le_total text'.length whole'.length with hle | hle
      · -- the value reaches far enough: the rest of the pieces spells what is left
        obtain ⟨us, hus⟩ := ih (List.suffix_of_suffix_length_le htext hwhole' hle) hcount ⟨vs', hvs'⟩ ⟨_, hws⟩
        exact ⟨v, text', us, hcut, hus⟩
      · -- otherwise a longer value leaves what the rest is known to spell
        obtain ⟨u, rfl⟩ := List.suffix_of_suffix_length_le hwhole' htext hle
        have hu : '/' ∉ u := by
          rw [List.count_append] at hcount
          exact List.count_eq_zero.1 (by omega)
        have hcut' : (v ++ u, whole') ∈ cuts (v ++ (u ++ whole')) :=
          mem_cuts.2 ⟨by simp, by simp [hne], by simp [hv, hu]⟩
        exact ⟨v ++ u, whole', vs', hcut', hvs'⟩

/-- **Where some way spells the whole text, the most preferred way of all does.** -/
theorem ways_head_full {pieces : List Piece} {text : List Char} (h : ∃ vs, (vs, []) ∈ ways pieces text) :
    ∃ vs rest, ways pieces text = (vs, []) :: rest := by
  induction pieces generalizing text with
  | nil =>
    obtain ⟨vs, h⟩ := h
    obtain ⟨-, rfl⟩ : vs = [] ∧ [] = text := by simpa [ways, waysThen, stop] using h
    exact ⟨[], [], rfl⟩
  | cons piece rest ih =>
    obtain ⟨vs, hvs⟩ := h
    cases piece with
    | literal t =>
      obtain ⟨hp, hvs⟩ := mem_ways_literal.1 hvs
      obtain ⟨us, tail, hus⟩ := ih ⟨vs, hvs⟩
      exact ⟨us, tail, (if_pos hp).trans hus⟩
    | token t =>
      obtain ⟨v0, left0, vs', hcut0, hvs', -⟩ := mem_ways_token.1 hvs
      -- the first cut behind which the rest of the pieces can go on
      obtain ⟨v, left, before, after, hsplit, hgo, hbefore, hsuffix, hcount⟩ :=
        @exists_first_cut _ _ _ hcut0 (fun cut => !(ways rest cut.2).isEmpty)
          (by simpa using List.ne_nil_of_mem hvs')
      have hsome : ∃ way, way ∈ ways rest left := List.exists_mem_of_ne_nil _ (by simpa using hgo)
      obtain ⟨us, tail, hus⟩ := ih (full_of_suffix hsuffix hcount ⟨vs', hvs'⟩ hsome)
      have hnil : before.flatMap (fun x => (waysThen stop rest x.2).map (Way.withValue x.1)) = [] := by
        rw [List.flatMap_eq_nil_iff]
        intro x hx
        have hempty := hbefore x hx
        rw [Bool.not_eq_false', List.isEmpty_iff] at hempty
        rw [show waysThen stop rest x.2 = [] from hempty]
        rfl
      refine ⟨v :: us, tail.map (Way.withValue v) ++ after.flatMap fun x => (waysThen stop rest x.2).map
        (Way.withValue x.1), ?_⟩
      show (cuts text).flatMap (fun x => (waysThen stop rest x.2).map (Way.withValue x.1)) = _
      rw [hsplit, List.flatMap_append, hnil, List.nil_append, List.flatMap_cons,
        show waysThen stop rest left = _ from hus]
      rfl

/-! ## Optional segments taken greedily -/

/-- the ways through a chain of optional segments, each inside the one before, the deepest first -/
def nestedWays : List (List Piece) → List Char → List Way
  | [], text => stop text
  | segment :: rest, text => waysThen (nestedWays rest) segment text ++ stop text

theorem waysThen_nil (next : List Char → List Way) (pieces : List Piece) :
    waysThen next pieces [] = [] ∨ waysThen next pieces [] = next [] := by
  induction pieces with
  | nil => exact Or.inr rfl
  | cons piece rest ih =>
    cases piece with
    | literal t =>
      simp only [waysThen, List.drop_nil]
      split_ifs
      · exact ih
      · exact Or.inl rfl
    | token t => exact Or.inl rfl

/-- Where nothing is left, optional segments add no values. -/
theorem nestedWays_nil (segments : List (List Piece)) : ∀ way ∈ nestedWays segments [], way = ([], []) := by
  induction segments with
  | nil => intro way h; exact List.mem_singleton.1 h
  | cons segment rest ih =>
    intro way h
    rcases List.mem_append.1 h with h | h
    · rcases waysThen_nil (nestedWays rest) segment with h0 | h0
      · rw [h0] at h; exact absurd h List.not_mem_nil
      · rw [h0] at h; exact ih way h
    · exact List.mem_singleton.1 h

theorem firstFull_append (a b : List Way) : firstFull (a ++ b) = (firstFull a).or (firstFull b) := by
  unfold firstFull
  rw [List.find?_append]
  cases a.find? (·.2.isEmpty) <;> rfl

theorem firstFull_eq_none {found : List Way} : firstFull found = none ↔ ∀ way ∈ found, way.2 ≠ [] := by
  simp [firstFull, List.find?_eq_none]

/-- Ways that leave something may stand between others. -/
theorem firstFull_flatMap_append (found : List Way) (f : Way → List Way) (g : Way → List Way)
    (hg : ∀ way ∈ found, firstFull (g way) = none) :
    firstFull (found.flatMap fun way => f way ++ g way) = firstFull (found.flatMap f) := by
  induction found with
  | nil => rfl
  | cons way rest ih =>
    rw [List.flatMap_cons, List.flatMap_cons, firstFull_append, firstFull_append, firstFull_append,
      hg way List.mem_cons_self, Option.or_none, ih fun w hw => hg w (List.mem_cons_of_mem way hw)]

theorem exists_full_of_reading {pieces : List Piece} {text : List Char} {vs : List (List Char)}
    (h : reading? pieces text = some vs) : (vs, []) ∈ ways pieces text := by
  obtain ⟨⟨ws, left⟩, hfind, rfl⟩ := Option.map_eq_some_iff.1 h
  have hleft : left = [] := by simpa using List.find?_some hfind
  rw [← hleft]
  exact List.mem_of_find?_eq_some hfind

/-- **The deepest way first, the shallowest variant after all.** Optional segments are tried as deep as they go, yet
the values found are those of the first variant that spells the text: a variant that spells all of it leaves nothing
for further segments. -/
theorem first_nested (base : List Piece) (segments : List (List Piece)) (text : List Char) :
    firstFull (waysThen (nestedWays segments) base text) =
      (base :: Layout.extensions base segments).findSome? (reading? · text) := by
  induction segments generalizing base with
  | nil =>
    rw [Layout.extensions, List.findSome?_singleton]
    rfl
  | cons segment rest ih =>
    rw [Layout.extensions, List.findSome?_cons]
    have hsplit : waysThen (nestedWays (segment :: rest)) base text =
        (ways base text).flatMap fun way => ((waysThen (nestedWays rest) segment way.2).map
          fun next => (way.1 ++ next.1, next.2)) ++ [way] := by
      rw [waysThen_eq_flatMap]
      refine List.flatMap_congr fun way _ => ?_
      simp [nestedWays, stop]
    cases hbase : reading? base text with
    | none =>
      -- no way through the base is complete, so the chain has to be entered
      rw [hsplit, firstFull_flatMap_append, ← ih (base ++ segment), waysThen_append, waysThen_eq_flatMap _ base]
      intro way hway
      exact firstFull_eq_none.2 fun w hw => (List.mem_singleton.1 hw) ▸ firstFull_eq_none.1 hbase way hway
    | some vs =>
      obtain ⟨us, others, hhead⟩ := ways_head_full ⟨vs, exists_full_of_reading hbase⟩
      obtain rfl : us = vs := by
        rw [reading?, hhead] at hbase
        simpa [firstFull] using hbase
      rw [hsplit, hhead, List.flatMap_cons, firstFull_append]
      -- whatever the segments find in the empty rest, the values are those of the base
      have hsame : ∀ way ∈ waysThen (nestedWays rest) segment [], way = ([], []) := by
        rcases waysThen_nil (nestedWays rest) segment with h0 | h0
        · simp [h0]
        · rw [h0]; exact nestedWays_nil rest
      cases hfound : waysThen (nestedWays rest) segment [] with
      | nil => simp [firstFull]
      | cons way tail =>
        obtain rfl := hsame way (by rw [hfound]; exact List.mem_cons_self)
        simp [firstFull]

/-! ## Slashes on their own -/

/-- A literal may be cut in two. -/
theorem waysThen_literal_append (next : List Char → List Way) (a b : String) (pieces : List Piece) :
    waysThen next (.literal a :: .literal b :: pieces) = waysThen next (.literal (a ++ b) :: pieces) := by
  funext text
  simp only [waysThen, String.toList_append, List.length_append]
  by_cases ha : a.toList <+: text
  · obtain ⟨tail, rfl⟩ := ha
    rw [if_pos (List.prefix_append _ _)]
    simp only [List.prefix_append_right_inj, ← List.drop_drop, List.drop_left]
  · rw [if_neg ha, if_neg fun h => ha ((List.prefix_append _ _).trans h)]

theorem findSome?_extensions_congr (a b : List Piece) (h : ∀ next, waysThen next a = waysThen next b)
    (segments : List (List Piece)) (text : List Char) :
    (Layout.extensions a segments).findSome? (reading? · text) =
      (Layout.extensions b segments).findSome? (reading? · text) := by
  induction segments generalizing a b with
  | nil => rfl
  | cons segment rest ih =>
    have hnext : ∀ next, waysThen next (a ++ segment) = waysThen next (b ++ segment) := by
      intro next
      rw [waysThen_append, waysThen_append, h]
    rw [Layout.extensions, Layout.extensions, List.findSome?_cons, List.findSome?_cons, ih _ _ hnext]
    simp only [reading?, ways, hnext stop]

/-! ## Which values are chosen -/

/-- the values with which the pieces make up the text -/
inductive Spells : List Piece → List (List Char) → List Char → Prop where
  | nil : Spells [] [] []
  | literal (t : String) {pieces values text} (h : Spells pieces values text) :
    Spells (.literal t :: pieces) values (t.toList ++ text)
  | token (t : Token) {v pieces values text} (hne : v ≠ []) (hslash : '/' ∉ v) (h : Spells pieces values text) :
    Spells (.token t :: pieces) (v :: values) (v ++ text)

theorem spells_literal {t : String} {pieces : List Piece} {values : List (List Char)} {text : List Char} :
    Spells (.literal t :: pieces) values text ↔ ∃ rest, text = t.toList ++ rest ∧ Spells pieces values rest := by
  constructor
  · rintro (_ | ⟨_, h⟩)
    exact ⟨_, rfl, h⟩
  · rintro ⟨rest, rfl, h⟩
    exact .literal t h

theorem spells_token {t : Token} {pieces : List Piece} {values : List (List Char)} {text : List Char} :
    Spells (.token t :: pieces) values text ↔
      ∃ v vs rest, values = v :: vs ∧ text = v ++ rest ∧ v ≠ [] ∧ '/' ∉ v ∧ Spells pieces vs rest := by
  constructor
  · rintro (_ | _ | ⟨_, hne, hslash, h⟩)
    exact ⟨_, _, _, rfl, rfl, hne, hslash, h⟩
  · rintro ⟨v, vs, rest, rfl, rfl, hne, hslash, h⟩
    exact .token t hne hslash h

theorem Spells.ne_nil {pieces : List Piece} {values : List (List Char)} {text : List Char}
    (h : Spells pieces values text) : ∀ v ∈ values, v ≠ [] := by
  induction h with
  | nil => intro v hv; exact absurd hv List.not_mem_nil
  | literal t h ih => exact ih
  | token t hne hslash h ih =>
    intro v hv
    rcases List.mem_cons.1 hv with rfl | hv
    · exact hne
    · exact ih v hv

/-- The values of pieces stand in the text that they spell. -/
theorem Spells.infix_of_mem {pieces : List Piece} {values : List (List Char)} {text : List Char}
    (h : Spells pieces values text) {value : List Char} (hvalue : value ∈ values) : value <:+: text ∧ '/' ∉ value := by
  induction h with
  | nil => exact absurd hvalue List.not_mem_nil
  | literal t _ ih => exact ⟨(ih hvalue).1.trans (List.suffix_append _ _).isInfix, (ih hvalue).2⟩
  | token t _ hslash _ ih =>
    rcases List.mem_cons.1 hvalue with rfl | hvalue
    · exact ⟨(List.prefix_append _ _).isInfix, hslash⟩
    · exact ⟨(ih hvalue).1.trans (List.suffix_append _ _).isInfix, (ih hvalue).2⟩

theorem Spells.length_eq {pieces : List Piece} {values : List (List Char)} {text : List Char}
    (h : Spells pieces values text) : values.length = (pieces.filterMap Piece.token?).length := by
  induction h with
  | nil => rfl
  | literal t h ih => exact ih
  | token t hne hslash h ih => simp [Piece.token?, ih]

theorem spells_iff_mem_ways {pieces : List Piece} {values : List (List Char)} {text : List Char} :
    Spells pieces values text ↔ (values, []) ∈ ways pieces text := by
  induction pieces generalizing values text with
  | nil =>
    constructor
    · rintro ⟨⟩; exact List.mem_singleton_self _
    · intro h
      obtain ⟨rfl, rfl⟩ : values = [] ∧ [] = text := by simpa [ways, waysThen, stop] using h
      exact .nil
  | cons piece rest ih =>
    cases piece with
    | literal t =>
      rw [mem_ways_literal]
      constructor
      · rintro (_ | ⟨_, h⟩)
        exact ⟨List.prefix_append _ _, by rw [List.drop_left]; exact ih.1 h⟩
      · rintro ⟨⟨left, rfl⟩, h⟩
        rw [List.drop_left] at h
        exact .literal t (ih.2 h)
    | token t =>
      rw [mem_ways_token]
      constructor
      · rintro (_ | _ | ⟨_, hne, hslash, h⟩)
        exact ⟨_, _, _, mem_cuts.2 ⟨rfl, hne, hslash⟩, ih.1 h, rfl⟩
      · rintro ⟨v, left, vs, hcut, h, rfl⟩
        obtain ⟨rfl, hne, hslash⟩ := mem_cuts.1 hcut
        exact .token t hne hslash (ih.2 h)

/-- Values are compared from the left; the first that differs in length decides. -/
def LongerFirst : List (List Char) → List (List Char) → Prop
  | v :: vs, w :: ws => w.length < v.length ∨ (v = w ∧ LongerFirst vs ws)
  | _, _ => False

theorem LongerFirst.asymm {vs ws : List (List Char)} (h : LongerFirst vs ws) : ¬LongerFirst ws vs := by
  induction vs generalizing ws with
  | nil => exact h.elim
  | cons v vs ih =>
    cases ws with
    | nil => exact h.elim
    | cons w ws =>
      rcases h with h | ⟨rfl, h⟩
      · rintro (h' | ⟨rfl, -⟩)
        · omega
        · exact lt_irrefl _ h
      · rintro (h' | ⟨-, h'⟩)
        · exact lt_irrefl _ h'
        · exact ih h h'

theorem ways_pairwise (pieces : List Piece) (text : List Char) :
    (ways pieces text).Pairwise fun a b => LongerFirst a.1 b.1 := by
  induction pieces generalizing text with
  | nil => exact List.pairwise_singleton _ _
  | cons piece rest ih =>
    cases piece with
    | literal t =>
      simp only [ways, waysThen]
      split_ifs
      · exact ih _
      · exact List.Pairwise.nil
    | token t =>
      simp only [ways, waysThen]
      rw [List.pairwise_flatMap]
      refine ⟨fun cut _ => List.pairwise_map.2 ((ih cut.2).imp fun h => Or.inr ⟨rfl, h⟩), ?_⟩
      refine (cuts_pairwise text).imp fun h x hx y hy => ?_
      obtain ⟨_, -, rfl⟩ := List.mem_map.1 hx
      obtain ⟨_, -, rfl⟩ := List.mem_map.1 hy
      exact Or.inl h

/-- **The reading of a text is its lexicographically longest spelling.** -/
theorem reading?_eq_some {pieces : List Piece} {text : List Char} {vs : List (List Char)} :
    reading? pieces text = some vs ↔
      Spells pieces vs text ∧ ∀ ws, Spells pieces ws text → ws = vs ∨ LongerFirst vs ws := by
  have hforward : ∀ us, reading? pieces text = some us →
      Spells pieces us text ∧ ∀ ws, Spells pieces ws text → ws = us ∨ LongerFirst us ws := by
    intro us h
    refine ⟨spells_iff_mem_ways.2 (exists_full_of_reading h), fun ws hws => ?_⟩
    obtain ⟨⟨us, left⟩, hfind, rfl⟩ := Option.map_eq_some_iff.1 h
    obtain ⟨-, before, after, hsplit, hbefore⟩ := List.find?_eq_some_iff_append.1 hfind
    have hmem := spells_iff_mem_ways.1 hws
    have hpair := ways_pairwise pieces text
    rw [hsplit] at hmem hpair
    rcases List.mem_append.1 hmem with hb | hb
    · exact absurd (hbefore _ hb) (by simp)
    · rcases List.mem_cons.1 hb with hb | hb
      · exact Or.inl (congrArg Prod.fst hb)
      · exact Or.inr (List.rel_of_pairwise_cons (List.pairwise_append.1 hpair).2.1 hb)
  refine ⟨hforward vs, fun ⟨hvs, hlongest⟩ => ?_⟩
  cases hus : reading? pieces text with
  | none => exact absurd rfl (firstFull_eq_none.1 hus _ (spells_iff_mem_ways.1 hvs))
  | some us =>
    obtain ⟨h, hle⟩ := hforward us hus
    rcases hlongest us h with rfl | h1
    · rfl
    · rcases hle vs hvs with rfl | h2
      · rfl
      · exact absurd h2 h1.asymm

theorem reading?_eq_none {pieces : List Piece} {text : List Char} :
    reading? pieces text = none ↔ ∀ vs, ¬Spells pieces vs text := by
  constructor
  · intro h vs hvs
    exact firstFull_eq_none.1 h _ (spells_iff_mem_ways.1 hvs) rfl
  · intro h
    refine firstFull_eq_none.2 fun ⟨vs, left⟩ hway hleft => ?_
    obtain rfl : left = [] := hleft
    exact h vs (spells_iff_mem_ways.2 hway)

end UrlRouter.Pattern
