/-
Blanks at the ends of a text, and texts with all blanks deleted.

Trimming takes a run of blanks off each end. What is left is tight: it neither begins nor ends with a blank. A tight
text is what trimming leaves alone, and trimming changes nothing that deleting all blanks would keep.

Results:
- `tight_trim`, `Tight.trim_eq`: a trimmed text is tight, and a tight text is already trimmed.
- `withoutBlanks_trim`, `withoutBlanks_trimEnd`: only blanks are trimmed.
-/
import Mathlib.Data.List.DropRight
import Mathlib.Data.List.TakeWhile
import UrlRouter.Text.Blank

namespace UrlRouter.Text

/-- the text neither begins nor ends with a blank -/
structure Tight (text : List Char) : Prop where
  head : ∀ c ∈ text.head?, isBlank c = false
  last : ∀ c ∈ text.getLast?, isBlank c = false

-- the instances are named, since one for all characters would try them all
instance (text : List Char) : Decidable (Tight text) :=
  @decidable_of_iff _ ((∀ c ∈ text.head?, isBlank c = false) ∧ ∀ c ∈ text.getLast?, isBlank c = false)
    ⟨fun h => ⟨h.1, h.2⟩, fun h => ⟨h.head, h.last⟩⟩
    (@instDecidableAnd _ _ (Option.decidableForallMem _) (Option.decidableForallMem _))

/-- the text with all its blanks deleted -/
def withoutBlanks (text : List Char) : List Char := text.filter fun c => !isBlank c

@[simp] theorem withoutBlanks_append (left right : List Char) :
    withoutBlanks (left ++ right) = withoutBlanks left ++ withoutBlanks right := List.filter_append ..

theorem withoutBlanks_eq_nil_iff {text : List Char} : withoutBlanks text = [] ↔ ∀ c ∈ text, isBlank c = true := by
  simp [withoutBlanks, List.filter_eq_nil_iff]

/-! ## The end of a text -/

theorem trimEnd_prefix (text : List Char) : trimEnd text <+: text := List.rdropWhile_prefix isBlank text

theorem last_trimEnd (text : List Char) : ∀ c ∈ (trimEnd text).getLast?, isBlank c = false := by
  intro c hc
  obtain ⟨hne, rfl⟩ := List.mem_getLast?_eq_getLast hc
  exact Bool.eq_false_iff.2 (List.rdropWhile_last_not isBlank text hne)

theorem trimEnd_eq_self {text : List Char} (h : ∀ c ∈ text.getLast?, isBlank c = false) : trimEnd text = text :=
  List.rdropWhile_eq_self_iff.2 fun hne => Bool.eq_false_iff.1 (h _ (List.getLast?_eq_some_getLast hne))

@[simp] theorem withoutBlanks_trimEnd (text : List Char) : withoutBlanks (trimEnd text) = withoutBlanks text := by
  have hblanks : withoutBlanks (text.rtakeWhile isBlank) = [] :=
    withoutBlanks_eq_nil_iff.2 fun c hc => List.mem_rtakeWhile_imp hc
  conv_rhs => rw [← List.rdropWhile_append_rtakeWhile (p := isBlank) (l := text), withoutBlanks_append, hblanks,
    List.append_nil]
  rfl

/-- Trimming the end keeps a first character that is no blank. -/
theorem trimEnd_cons {c : Char} (rest : List Char) (h : isBlank c = false) :
    ∃ rest', trimEnd (c :: rest) = c :: rest' := by
  obtain ⟨dropped, hdropped⟩ := trimEnd_prefix (c :: rest)
  cases htrim : trimEnd (c :: rest) with
  | nil => exact absurd (List.rdropWhile_eq_nil_iff.1 htrim c List.mem_cons_self) (by simp [h])
  | cons d rest' =>
    rw [htrim] at hdropped
    obtain rfl := (List.cons.inj hdropped).1
    exact ⟨rest', rfl⟩

/-! ## Both ends -/

theorem trimStart_eq_self {text : List Char} (h : ∀ c ∈ text.head?, isBlank c = false) : trimStart text = text := by
  cases text with
  | nil => rfl
  | cons c rest => exact trimStart_cons_of_not_blank c rest (h c rfl)

theorem head_trimStart (text : List Char) : ∀ c ∈ (trimStart text).head?, isBlank c = false := by
  intro c hc
  have hfound := List.head?_dropWhile_not isBlank text
  rw [Option.mem_def] at hc
  rw [show text.dropWhile isBlank = trimStart text from rfl, hc] at hfound
  simpa using hfound

theorem withoutBlanks_trimStart (text : List Char) : withoutBlanks (trimStart text) = withoutBlanks text := by
  have hblanks : withoutBlanks (text.takeWhile isBlank) = [] :=
    withoutBlanks_eq_nil_iff.2 fun c hc => List.mem_takeWhile_imp hc
  conv_rhs => rw [← List.takeWhile_append_dropWhile (p := isBlank) (l := text), withoutBlanks_append, hblanks]
  rfl

theorem withoutBlanks_intercalate (separator : List Char) (parts : List (List Char)) :
    withoutBlanks (separator.intercalate parts) =
      (withoutBlanks separator).intercalate (parts.map withoutBlanks) := by
  induction parts with
  | nil => rfl
  | cons part rest ih =>
    cases rest with
    | nil => simp [List.intercalate]
    | cons next rest =>
      rw [List.map_cons, List.map_cons, List.intercalate_cons_cons, List.intercalate_cons_cons, withoutBlanks_append,
        withoutBlanks_append, ih, List.map_cons]

@[simp] theorem withoutBlanks_trim (text : List Char) : withoutBlanks (trim text) = withoutBlanks text := by
  rw [trim, withoutBlanks_trimEnd, withoutBlanks_trimStart]

/-- Trimming takes a run of blanks off each end. -/
theorem exists_trim (text : List Char) : ∃ before after, text = before ++ (trim text ++ after) ∧
    (∀ c ∈ before, isBlank c = true) ∧ ∀ c ∈ after, isBlank c = true := by
  refine ⟨text.takeWhile isBlank, (trimStart text).rtakeWhile isBlank, ?_, fun c hc => List.mem_takeWhile_imp hc,
    fun c hc => List.mem_rtakeWhile_imp hc⟩
  have hend : trim text ++ (trimStart text).rtakeWhile isBlank = trimStart text := List.rdropWhile_append_rtakeWhile
  rw [hend]
  exact List.takeWhile_append_dropWhile.symm

theorem tight_nil : Tight [] := ⟨by simp, by simp⟩

theorem tight_trim (text : List Char) : Tight (trim text) := by
  refine ⟨?_, last_trimEnd _⟩
  have hhead := head_trimStart text
  unfold trim
  cases hstart : trimStart text with
  | nil => exact tight_nil.head
  | cons c rest =>
    rw [hstart] at hhead
    have hc : isBlank c = false := hhead c rfl
    obtain ⟨rest', htrim⟩ := trimEnd_cons rest hc
    rw [htrim]
    rintro d ⟨⟩
    exact hc

theorem Tight.trim_eq {text : List Char} (h : Tight text) : trim text = text := by
  rw [trim, trimStart_eq_self h.head, trimEnd_eq_self h.last]

end UrlRouter.Text
