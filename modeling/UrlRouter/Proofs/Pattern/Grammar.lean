/-
The grammar of route patterns.

Every layout can be written: its base, and its segments in brackets with semicolons between them. Reading and writing
are inverse to each other up to blanks. What is written for a layout that keeps to the grammar is read as that layout,
whatever braces, brackets and semicolons its constraints hold. And a pattern that can be read has a layout that keeps
to the grammar, whose written form differs from the pattern in blanks only. A chain that is read may begin with a blank
and an exclamation mark; written again it would be marked, so that this layout alone is no longer read.

Results:
- `readLayout_eq_ok`: what it is to read a pattern.
- `readLayout_written`: what is written is read back.
- `grammatical_of_readLayout`, `withoutBlanks_of_readLayout`: what is read keeps to the grammar and to the text.
- `analyze_written`, `written_of_analyze`: the same for the analysis of a pattern.
-/
import Mathlib.Tactic
import UrlRouter.Proofs.Pattern.Cutting

namespace UrlRouter.Pattern

/-! ## Written layouts -/

/-- the pattern that the layout is written as -/
def Layout.written (layout : Layout) : String :=
  render (·.text) layout.base ++
    if layout.segments.isEmpty then "" else "[" ++ ";".intercalate (layout.segments.map (render (·.text))) ++ "]"

/-- the grammar of layouts -/
structure Layout.Grammatical (layout : Layout) : Prop where
  base : Pattern.Grammatical inBase layout.base
  segments : ∀ segment ∈ layout.segments, segment ≠ [] ∧ Pattern.Grammatical inSegment segment
  names : layout.names.Nodup
  slash : layout.base = [] → ∀ first ∈ layout.segments.head?, ∃ text rest, first = .literal ("/" ++ text) :: rest

/-- The chain does not begin with the exclamation mark that was once its sign. -/
def Layout.Unmarked (layout : Layout) : Prop :=
  ∀ first ∈ layout.segments.head?, (render (·.text) first).toList.head? ≠ some '!'

theorem toList_render (pieces : List Piece) : (render (·.text) pieces).toList = writtenText pieces := by
  rw [render, String.toList_join, List.flatMap_map, writtenText]
  rfl

/-- the chain of the segments -/
def writtenChain : List (List Piece) → Option (List Char)
  | [] => none
  | segments => some ('[' :: ([';'].intercalate (segments.map writtenText) ++ [']']))

theorem toList_written (layout : Layout) :
    layout.written.toList = writtenText layout.base ++ (writtenChain layout.segments).getD [] := by
  rw [Layout.written, String.toList_append, toList_render]
  congr 1
  cases layout.segments with
  | nil => rfl
  | cons first rest =>
    have hrender : String.toList ∘ render (·.text) = writtenText := funext toList_render
    simp [writtenChain, String.toList_intercalate, hrender, toList_render]

theorem optionalStart_iff {layout : Layout} :
    layout.optionalStart = true ↔ layout.base = [] ∧ layout.segments ≠ [] := by
  simp [Layout.optionalStart]

/-! ## Reading a pattern -/

theorem firstRepeated?_eq_none {seen names : List String} :
    firstRepeated? seen names = none ↔ names.Nodup ∧ ∀ name ∈ names, name ∉ seen := by
  induction names generalizing seen with
  | nil => simp [firstRepeated?]
  | cons name rest ih =>
    rw [firstRepeated?, List.nodup_cons, List.forall_mem_cons]
    split_ifs with hseen
    · have hmem : name ∈ seen := by simpa using hseen
      exact ⟨fun h => (by cases h), fun h => absurd hmem h.2.1⟩
    · have hmem : name ∉ seen := by simpa using hseen
      rw [ih]
      simp only [List.mem_cons, not_or]
      constructor
      · rintro ⟨hnodup, hfresh⟩
        exact ⟨⟨fun h => (hfresh name h).1 rfl, hnodup⟩, hmem, fun other hother => (hfresh other hother).2⟩
      · rintro ⟨⟨hname, hnodup⟩, -, hfresh⟩
        exact ⟨hnodup, fun other hother => ⟨fun heq => hname (heq ▸ hother), hfresh other hother⟩⟩

theorem startsWithSlash_iff {pieces : List Piece} :
    startsWithSlash pieces = true ↔ ∃ text rest, pieces = .literal ("/" ++ text) :: rest := by
  constructor
  · intro h
    match pieces, h with
    | .literal text :: rest, h =>
      have hhead : text.toList.head? = some '/' := by simpa [startsWithSlash] using h
      refine ⟨String.ofList text.toList.tail, rest, ?_⟩
      congr 2
      apply String.toList_injective
      simpa using (List.cons_head?_tail hhead).symm
  · rintro ⟨text, rest, rfl⟩
    simp [startsWithSlash]

/-- The segments that are read from a chain, if there is one. -/
def readSegments : Option (List Char) → Except Fault (List (List Piece))
  | none => .ok []
  | some chain => readChain chain >>= List.mapM (readPieces 0 [])

/-- A pattern is read when base and chain are, a chain that opens the pattern starts with a slash, and no name is used
twice. -/
theorem readLayout_eq_ok {pattern : String} {layout : Layout} :
    readLayout pattern = .ok layout ↔
      ∃ base chain, splitChain 0 pattern.toList = .ok (base, chain) ∧
        readPieces 0 [] (Text.trim base) = .ok layout.base ∧ readSegments chain = .ok layout.segments ∧
        (Text.trim base = [] → ∀ first ∈ layout.segments.head?, startsWithSlash first = true) ∧
        layout.names.Nodup := by
  cases hsplit : splitChain 0 pattern.toList with
  | error fault => simp [readLayout, hsplit]
  | ok split =>
    obtain ⟨base, chain⟩ := split
    simp only [Except.ok.injEq, Prod.mk.injEq, and_assoc, exists_and_left, exists_eq_left']
    unfold readLayout
    rw [hsplit, ok_bind]
    dsimp -zeta only
    extract_lets trimmed finish
    -- from the inside out: base and names, then the slash of a leading chain, then the segments
    have hfinish : ∀ segments, finish segments = .ok layout ↔
        readPieces 0 [] trimmed = .ok layout.base ∧ segments = layout.segments ∧
          (trimmed = [] → ∀ first ∈ segments.head?, startsWithSlash first = true) ∧ layout.names.Nodup := by
      intro segments
      dsimp -zeta only [finish]
      extract_lets finish'
      have hfinish' : finish' () = .ok layout ↔
          readPieces 0 [] trimmed = .ok layout.base ∧ segments = layout.segments ∧ layout.names.Nodup := by
        dsimp only [finish']
        rw [bind_eq_ok]
        constructor
        · rintro ⟨pieces, hpieces, h⟩
          split at h
          · cases h
          · rename_i hrepeated
            cases h
            exact ⟨hpieces, rfl, (firstRepeated?_eq_none.1 hrepeated).1⟩
        · rintro ⟨hpieces, rfl, hnodup⟩
          refine ⟨layout.base, hpieces, ?_⟩
          rw [firstRepeated?_eq_none.2 ⟨hnodup, by simp⟩]
          rfl
      split_ifs with hempty
      · have htrimmed : trimmed = [] := List.isEmpty_iff.1 hempty
        cases segments with
        | nil => simp [hfinish']
        | cons first rest =>
          dsimp only
          split_ifs with hslash
          · simp [hfinish', hslash]
          · exact ⟨fun h => (by cases h), fun h => absurd (h.2.2.1 htrimmed first rfl) hslash⟩
      · have htrimmed : trimmed ≠ [] := fun h => hempty (List.isEmpty_iff.2 h)
        simp [hfinish', htrimmed]
    have hsegments : (readSegments chain >>= finish) = .ok layout ↔
        readPieces 0 [] trimmed = .ok layout.base ∧ readSegments chain = .ok layout.segments ∧
          (trimmed = [] → ∀ first ∈ layout.segments.head?, startsWithSlash first = true) ∧ layout.names.Nodup := by
      rw [bind_eq_ok]
      constructor
      · rintro ⟨segments, hread, h⟩
        obtain ⟨hbase, rfl, hslash, hnodup⟩ := (hfinish segments).1 h
        exact ⟨hbase, hread, hslash, hnodup⟩
      · rintro ⟨hbase, hread, hslash, hnodup⟩
        exact ⟨layout.segments, hread, (hfinish _).2 ⟨hbase, rfl, hslash, hnodup⟩⟩
    refine Iff.trans ?_ hsegments
    cases chain with
    | none => rfl
    | some chain => rw [readSegments, bind_assoc]

/-! ## What is written is read back -/

section

variable {segments : List (List Piece)} {layout : Layout}

theorem writtenText_ne_nil {plain : Char → Bool} {pieces : List Piece} (h : Pattern.Grammatical plain pieces)
    (hne : pieces ≠ []) : writtenText pieces ≠ [] := by
  intro hnil
  have hread := readPieces_eq_ok.2 h.cut
  rw [hnil] at hread
  exact hne (Except.ok.inj hread).symm

theorem readSegments_writtenChain
    (hsegments : ∀ segment ∈ segments, segment ≠ [] ∧ Pattern.Grammatical inSegment segment)
    (hmark : ∀ first ∈ segments.head?, (writtenText first).head? ≠ some '!') :
    readSegments (writtenChain segments) = .ok segments := by
  cases segments with
  | nil => rfl
  | cons first rest =>
    have hchain : readChain ('[' :: ([';'].intercalate ((first :: rest).map writtenText) ++ [']'])) =
        .ok ((first :: rest).map writtenText) := by
      refine readChain_intercalate (by simp) (by simpa using hmark) fun part hpart => ?_
      obtain ⟨segment, hsegment, rfl⟩ := List.mem_map.1 hpart
      obtain ⟨hne, hgrammatical⟩ := hsegments segment hsegment
      exact ⟨writtenText_ne_nil hgrammatical hne, hgrammatical.tight, hgrammatical.depthAfter_eq⟩
    rw [writtenChain, readSegments, hchain, ok_bind, mapM_eq_ok, List.forall₂_map_left_iff, List.forall₂_same]
    · exact fun segment hsegment => readPieces_eq_ok.2 (hsegments segment hsegment).2.cut
    · exact fun h => List.cons_ne_nil _ _ h

theorem splitChain_written (h : layout.Grammatical) :
    splitChain 0 layout.written.toList = .ok (writtenText layout.base, writtenChain layout.segments) := by
  rw [toList_written, splitChain_append h.base.depthAfter_eq]
  cases layout.segments with
  | nil => simp [writtenChain, splitChain, Except.map]
  | cons first rest =>
    rw [writtenChain, Option.getD_some, splitChain_cons]
    · show Except.ok (writtenText layout.base ++ [], _) = _
      rw [List.append_nil]
    · exact fun h => List.cons_ne_nil _ _ h

/-- A layout that keeps to the grammar is read back from what is written for it. -/
theorem readLayout_written (h : layout.Grammatical) (hmark : layout.Unmarked) :
    readLayout layout.written = .ok layout := by
  refine readLayout_eq_ok.2 ⟨_, _, splitChain_written h, ?_, readSegments_writtenChain h.segments ?_, ?_, h.names⟩
  · rw [h.base.tight.trim_eq]
    exact readPieces_eq_ok.2 h.base.cut
  · exact fun first hfirst => toList_render first ▸ hmark first hfirst
  · intro hempty first hfirst
    rw [h.base.tight.trim_eq] at hempty
    have hbase : layout.base = [] := by
      by_contra hne
      exact writtenText_ne_nil h.base hne hempty
    exact startsWithSlash_iff.2 (h.slash hbase first hfirst)

-- a chain that opens with a blank and an exclamation mark is read, but the blank is not written
example : (readLayout "/a[ !b]").toOption.map (fun layout => (readLayout layout.written).toOption) = some none := by
  decide +kernel

end

/-! ## What is read keeps to the grammar and to the text -/

section

variable {pattern : String} {chain : Option (List Char)} {segments : List (List Piece)} {layout : Layout}

theorem readSegments_ne_nil {found : List Char} (h : readSegments (some found) = .ok segments) : segments ≠ [] := by
  rintro rfl
  obtain ⟨texts, htexts, hpieces⟩ := bind_eq_ok.1 h
  obtain ⟨-, -, parts, hparts, rfl, -⟩ := readChain_eq_ok.1 htexts
  obtain ⟨first, others, rfl, -⟩ := exists_of_cutChain hparts
  exact List.cons_ne_nil _ _ (List.forall₂_nil_right_iff.1 (mapM_eq_ok.1 hpieces))

/-- The segments that are read from a chain are cut from parts that are joined to it. -/
theorem exists_parts_of_readSegments {found : List Char} (h : readSegments (some found) = .ok segments)
    (hbracket : found.head? = some '[') :
    ∃ parts, Text.withoutBlanks found = Text.withoutBlanks ('[' :: ([';'].intercalate parts ++ [']'])) ∧
      List.Forall₂ (fun part segment => Cut (Text.trim part) segment) parts segments ∧
      ∀ part ∈ parts, Text.trim part ≠ [] ∧ depthAfter inSegment 0 part = some 0 := by
  obtain ⟨texts, htexts, hpieces⟩ := bind_eq_ok.1 h
  obtain ⟨inner, parts, htrim, hparts, rfl, hne⟩ := exists_inner_of_readChain htexts hbracket
  have hmatch : ∀ part ∈ parts, depthAfter anywhere 0 part = some 0 := by
    intro part hpart
    obtain ⟨segment, -, hsegment⟩ := exists_of_mem_mapM' hpieces (List.mem_map_of_mem hpart)
    exact (depthAfter_trim fun _ => rfl).1 (readPieces_eq_ok.1 hsegment).depthAfter_eq
  have hplain := plain_of_cutChain (d := 0) hparts rfl hmatch
  rw [mapM_eq_ok, List.forall₂_map_left_iff] at hpieces
  refine ⟨parts, ?_, hpieces.imp fun part segment => readPieces_eq_ok.1,
    fun part hpart => ⟨hne _ (List.mem_map_of_mem hpart), hplain part hpart⟩⟩
  rw [join_of_cutChain hparts, ← htrim, Text.withoutBlanks_trimEnd]

theorem grammatical_of_readSegments (h : readSegments chain = .ok segments)
    (hbracket : ∀ found ∈ chain, found.head? = some '[') :
    ∀ segment ∈ segments, segment ≠ [] ∧ Pattern.Grammatical inSegment segment := by
  cases chain with
  | none =>
    obtain rfl := Except.ok.inj h
    simp
  | some found =>
    obtain ⟨parts, -, hcuts, hparts⟩ := exists_parts_of_readSegments h (hbracket found rfl)
    clear h
    induction hcuts with
    | nil => simp
    | @cons part segment parts segments hcut _ ih =>
      obtain ⟨hne, hdepth⟩ := hparts part List.mem_cons_self
      refine List.forall_mem_cons.2 ⟨⟨?_, ?_⟩, ih fun part hpart => hparts part (List.mem_cons_of_mem _ hpart)⟩
      · rintro rfl
        exact hne hcut.eq_nil
      · exact hcut.grammatical ((depthAfter_trim inSegment_of_blank).2 hdepth) (Text.tight_trim part)

theorem withoutBlanks_of_readSegments (h : readSegments chain = .ok segments)
    (hbracket : ∀ found ∈ chain, found.head? = some '[') :
    Text.withoutBlanks ((writtenChain segments).getD []) = Text.withoutBlanks (chain.getD []) := by
  cases chain with
  | none =>
    obtain rfl := Except.ok.inj h
    rfl
  | some found =>
    obtain ⟨parts, htext, hcuts, -⟩ := exists_parts_of_readSegments h (hbracket found rfl)
    have hparts : (segments.map writtenText).map Text.withoutBlanks = parts.map Text.withoutBlanks := by
      clear htext h
      induction hcuts with
      | nil => rfl
      | cons hcut _ ih => rw [List.map_cons, List.map_cons, List.map_cons, ih, hcut.withoutBlanks_eq,
          Text.withoutBlanks_trim]
    have hchain : (writtenChain segments).getD [] = '[' :: ([';'].intercalate (segments.map writtenText) ++ [']']) := by
      obtain ⟨first, rest, rfl⟩ := List.exists_cons_of_ne_nil (readSegments_ne_nil h)
      rfl
    have hbrackets : ∀ inner, Text.withoutBlanks ('[' :: (inner ++ [']'])) = '[' :: (Text.withoutBlanks inner ++ [']']) :=
      fun inner => by
        rw [← List.singleton_append, Text.withoutBlanks_append, Text.withoutBlanks_append]
        rfl
    rw [hchain, Option.getD_some, htext, hbrackets, hbrackets, Text.withoutBlanks_intercalate, hparts,
      Text.withoutBlanks_intercalate]

/-- The layout of a pattern keeps to the grammar. -/
theorem grammatical_of_readLayout (h : readLayout pattern = .ok layout) : layout.Grammatical := by
  obtain ⟨base, chain, hsplit, hbase, hsegments, hslash, hnodup⟩ := readLayout_eq_ok.1 h
  obtain ⟨-, e, hdepth, hbracket⟩ := splitChain_eq_ok hsplit
  have hcut := readPieces_eq_ok.1 hbase
  refine ⟨hcut.grammatical ((depthAfter_trim inBase_of_blank).2 hdepth) (Text.tight_trim base),
    grammatical_of_readSegments hsegments fun found hfound => (hbracket found hfound).2, hnodup, ?_⟩
  intro hnil first hfirst
  rw [hnil] at hcut
  exact startsWithSlash_iff.1 (hslash hcut.eq_nil first hfirst)

/-- But for blanks, the layout of a pattern holds what the pattern holds, in its order. -/
theorem withoutBlanks_of_readLayout (h : readLayout pattern = .ok layout) :
    Text.withoutBlanks layout.written.toList = Text.withoutBlanks pattern.toList := by
  obtain ⟨base, chain, hsplit, hbase, hsegments, -, -⟩ := readLayout_eq_ok.1 h
  obtain ⟨hjoin, e, -, hbracket⟩ := splitChain_eq_ok hsplit
  calc Text.withoutBlanks layout.written.toList
      = Text.withoutBlanks (writtenText layout.base) ++
          Text.withoutBlanks ((writtenChain layout.segments).getD []) := by
        rw [toList_written, Text.withoutBlanks_append]
    _ = Text.withoutBlanks base ++ Text.withoutBlanks (chain.getD []) := by
        rw [(readPieces_eq_ok.1 hbase).withoutBlanks_eq, Text.withoutBlanks_trim,
          withoutBlanks_of_readSegments hsegments fun found hfound => (hbracket found hfound).2]
    _ = Text.withoutBlanks pattern.toList := by rw [hjoin, Text.withoutBlanks_append]

end

instance (layout : Layout) : Decidable layout.Grammatical :=
  decidable_of_iff (Pattern.Grammatical inBase layout.base ∧
      (∀ segment ∈ layout.segments, segment ≠ [] ∧ Pattern.Grammatical inSegment segment) ∧ layout.names.Nodup ∧
      (layout.base = [] → ∀ first ∈ layout.segments.head?, startsWithSlash first = true))
    ⟨fun h => ⟨h.1, h.2.1, h.2.2.1, fun hbase first hfirst => startsWithSlash_iff.1 (h.2.2.2 hbase first hfirst)⟩,
      fun h => ⟨h.base, h.segments, h.names, fun hbase first hfirst =>
        startsWithSlash_iff.2 (h.slash hbase first hfirst)⟩⟩

instance (layout : Layout) : Decidable layout.Unmarked :=
  inferInstanceAs (Decidable (∀ first ∈ layout.segments.head?, (render (·.text) first).toList.head? ≠ some '!'))

/-! ## The analysis of a pattern -/

theorem analyze_eq_ok {pattern : String} {layout : Layout} :
    analyze pattern = .ok layout ↔ readLayout pattern = .ok layout := mapError_eq_ok

/-- **The analysis is complete.** Whatever layout keeps to the grammar, and is not marked, is what the analysis of its
written form returns; the chain opens the pattern just when there is a chain and no base. -/
theorem analyze_written {layout : Layout} (h : layout.Grammatical) (hmark : layout.Unmarked) :
    ∃ found, analyze layout.written = .ok found ∧ found.base = layout.base ∧ found.segments = layout.segments ∧
      (found.optionalStart = true ↔ layout.base = [] ∧ layout.segments ≠ []) :=
  ⟨layout, analyze_eq_ok.2 (readLayout_written h hmark), rfl, rfl, optionalStart_iff⟩

/-- the layout of an archive whose constraints hold brackets, braces and semicolons -/
def archive : Layout where
  base := [.literal "/a;b]/", .token ⟨"\x7byear: [0-9]\x7b4\x7d \x7d", "year", some "[0-9]\x7b4\x7d"⟩]
  segments := [
    [.literal "/", .token ⟨"\x7bslug:[a-z;]\x7b1,9\x7d\x7d", "slug", some "[a-z;]\x7b1,9\x7d"⟩],
    [.literal "-", .token ⟨"\x7b page-no \x7d", "page-no", none⟩]]

theorem archive_analyzed :
    archive.Grammatical ∧ archive.Unmarked ∧
      archive.written = "/a;b]/\x7byear: [0-9]\x7b4\x7d \x7d[/\x7bslug:[a-z;]\x7b1,9\x7d\x7d;-\x7b page-no \x7d]" ∧
      ∃ found, analyze archive.written = .ok found ∧ found.base = archive.base ∧ found.segments = archive.segments ∧
        (found.optionalStart = true ↔ archive.base = [] ∧ archive.segments ≠ []) := by
  have hgrammatical : archive.Grammatical :=
    ⟨by decide +kernel, by decide +kernel, by decide +kernel, fun hbase => absurd hbase (List.cons_ne_nil _ _)⟩
  have hunmarked : archive.Unmarked := by decide +kernel
  exact ⟨hgrammatical, hunmarked, by decide +kernel, analyze_written hgrammatical hunmarked⟩

/-- **The analysis is sound.** The layout of a pattern, written again, is the pattern but for blanks, and the layout
keeps to the grammar. -/
theorem written_of_analyze {pattern : String} {layout : Layout} (h : analyze pattern = .ok layout) :
    Text.withoutBlanks layout.written.toList = Text.withoutBlanks pattern.toList ∧ layout.Grammatical :=
  ⟨withoutBlanks_of_readLayout (analyze_eq_ok.1 h), grammatical_of_readLayout (analyze_eq_ok.1 h)⟩

/-- the archive, written with blanks wherever they are dropped -/
def spacedArchive : String :=
  " /a;b]/ \x7byear: [0-9]\x7b4\x7d \x7d\n[ / \x7bslug:[a-z;]\x7b1,9\x7d\x7d ; -\x7b page-no \x7d ] "

theorem spacedArchive_analyzed :
    analyze spacedArchive = .ok archive ∧
      Text.withoutBlanks archive.written.toList = Text.withoutBlanks spacedArchive.toList ∧ archive.Grammatical := by
  have hread : analyze spacedArchive = .ok archive := toOption_eq_some.1 (by decide +kernel)
  exact ⟨hread, written_of_analyze hread⟩

end UrlRouter.Pattern
