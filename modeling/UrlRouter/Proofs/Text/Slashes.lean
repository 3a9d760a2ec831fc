/-
What decoding does to slashes.

A value that is cut out of a path holds no slash, but its decoded form may. No slash is lost in decoding, and none comes
up but where one was encoded, however broken the UTF-8 of the other bytes is.

Results:
- `decodesFirst_decodeUtf8`: some bytes at the front are decoded as one character, then the others.
- `slash_mem_percentDecode`: a decoded text holds a slash where the text holds one, plain or encoded.
- `percentDecode_ne_empty`: something is decoded as something.
-/
import Mathlib.Tactic
import UrlRouter.Proofs.Text.Percent

namespace UrlRouter.Text

/-! ## One character of a text -/

/-- Leading and following bytes are no ASCII, and what they say together is none either. -/
theorem followed_bounds {a b more low high : Nat} (hlead : leadingByte? a = some (more, low, high))
    (hb : ¬(decide (b < low) || decide (high < b)) = true) :
    0x80 ≤ b ∧ b < 0xc0 ∧ (more = 1 ∧ 0xc2 ≤ a ∧ a < 0xe0 ∨
      more = 2 ∧ 0xe0 ≤ a ∧ a < 0xf0 ∧ (a = 0xe0 → 0xa0 ≤ b) ∨
      more = 3 ∧ 0xf0 ≤ a ∧ a < 0xf5 ∧ (a = 0xf0 → 0x90 ≤ b)) := by
  unfold leadingByte? at hlead
  split_ifs at hlead
  all_goals
    simp only [Option.some.injEq, Prod.mk.injEq] at hlead
    simp only [Bool.and_eq_true, Bool.or_eq_true, decide_eq_true_eq] at *
    omega

theorem continuation_bounds {b : Nat} (h : ¬(!isContinuation b) = true) : 0x80 ≤ b := by
  simp only [isContinuation, Bool.not_eq_true, Bool.not_eq_false', Bool.and_eq_true, decide_eq_true_eq] at h
  exact h.1

theorem slash_eq_ofNat {n : Nat} : '/' = Char.ofNat n ↔ 0x2f = n := by
  constructor
  · intro h
    by_cases hn : n.isValidChar
    · have hvalue : Char.ofNat n = Char.ofNatAux n hn := dif_pos hn
      exact congrArg Char.toNat (h.trans hvalue)
    · have hvalue : Char.ofNat n = Char.ofNat 0 := dif_neg hn
      exact absurd (h.trans hvalue) (by decide)
  · rintro rfl
    rfl

/-- The first character is decoded from the first bytes; it is a slash if they are the byte of a slash. -/
def DecodesFirst (bytes : List Nat) (chars : List Char) : Prop :=
  ∃ c consumed left, bytes = consumed ++ left ∧ consumed ≠ [] ∧ chars = c :: decodeUtf8 left ∧
    ('/' = c ↔ 0x2f ∈ consumed)

theorem decodesFirst_of_ne {c : Char} (consumed left : List Nat) (hne : consumed ≠ []) (hc : '/' ≠ c)
    (hconsumed : ∀ b ∈ consumed, 0x80 ≤ b) : DecodesFirst (consumed ++ left) (c :: decodeUtf8 left) := by
  have hnone : 0x2f ∉ consumed := fun hmem => absurd (hconsumed _ hmem) (by decide)
  exact ⟨c, consumed, left, rfl, hne, rfl, iff_of_false hc hnone⟩

/-- Some bytes are decoded as one character, and then the others. -/
theorem decodesFirst_decodeUtf8 {bytes : List Nat} (h : bytes ≠ []) : DecodesFirst bytes (decodeUtf8 bytes) := by
  have hreplacement : '/' ≠ replacement := by decide
  fun_cases decodeUtf8 bytes with
  | case1 => exact absurd rfl h
  | case2 a rest ha => exact ⟨_, [a], rest, rfl, by simp, rfl, by rw [slash_eq_ofNat, List.mem_singleton]⟩
  | case3 a rest ha hlead => exact decodesFirst_of_ne [a] rest (by simp) hreplacement (by simp; omega)
  | case4 a ha more low high hlead => exact decodesFirst_of_ne [a] [] (by simp) hreplacement (by simp; omega)
  | case5 a ha more low high hlead b rest hb =>
    exact decodesFirst_of_ne [a] (b :: rest) (by simp) hreplacement (by simp; omega)
  | case6 a ha low high b rest hb hlead =>
    obtain ⟨hlow, hhigh, hbounds⟩ := followed_bounds hlead hb
    exact decodesFirst_of_ne [a, b] rest (by simp) (mt slash_eq_ofNat.1 (by omega)) (by simp; omega)
  | case7 a ha more low high hlead b hb hmore =>
    obtain ⟨hlow, hhigh, hbounds⟩ := followed_bounds hlead hb
    exact decodesFirst_of_ne [a, b] [] (by simp) hreplacement (by simp; omega)
  | case8 a ha more low high hlead b hb hmore c rest hc =>
    obtain ⟨hlow, hhigh, hbounds⟩ := followed_bounds hlead hb
    exact decodesFirst_of_ne [a, b] (c :: rest) (by simp) hreplacement (by simp; omega)
  | case9 a ha low high b hb c rest hc hlead hmore =>
    have hc := continuation_bounds hc
    obtain ⟨hlow, hhigh, hbounds⟩ := followed_bounds hlead hb
    exact decodesFirst_of_ne [a, b, c] rest (by simp) (mt slash_eq_ofNat.1 (by omega)) (by simp; omega)
  | case10 a ha more low high hlead b hb hmore c hc hmore' =>
    have hc := continuation_bounds hc
    obtain ⟨hlow, hhigh, hbounds⟩ := followed_bounds hlead hb
    exact decodesFirst_of_ne [a, b, c] [] (by simp) hreplacement (by simp; omega)
  | case11 a ha more low high hlead b hb hmore c hc hmore' d rest hd =>
    have hc := continuation_bounds hc
    obtain ⟨hlow, hhigh, hbounds⟩ := followed_bounds hlead hb
    exact decodesFirst_of_ne [a, b, c] (d :: rest) (by simp) hreplacement (by simp; omega)
  | case12 a ha more low high hlead b hb hmore c hc hmore' d rest hd =>
    have hc := continuation_bounds hc
    have hd := continuation_bounds hd
    obtain ⟨hlow, hhigh, hbounds⟩ := followed_bounds hlead hb
    exact decodesFirst_of_ne [a, b, c, d] rest (by simp) (mt slash_eq_ofNat.1 (by omega)) (by simp; omega)

theorem decodeUtf8_ne_nil {bytes : List Nat} (h : bytes ≠ []) : decodeUtf8 bytes ≠ [] := by
  obtain ⟨c, consumed, left, -, -, hchars, -⟩ := decodesFirst_decodeUtf8 h
  rw [hchars]
  exact List.cons_ne_nil _ _

/-- **A slash is decoded from its own byte** and from no longer form. -/
theorem slash_mem_decodeUtf8 (bytes : List Nat) : '/' ∈ decodeUtf8 bytes ↔ 0x2f ∈ bytes := by
  induction hlength : bytes.length using Nat.strong_induction_on generalizing bytes with
  | _ n ih =>
    by_cases hbytes : bytes = []
    · rw [hbytes, decodeUtf8]
      exact iff_of_false List.not_mem_nil List.not_mem_nil
    · obtain ⟨c, consumed, left, rfl, hne, hchars, hc⟩ := decodesFirst_decodeUtf8 hbytes
      have hshorter : left.length < n := by
        have := List.length_pos_of_ne_nil hne
        rw [List.length_append] at hlength
        omega
      rw [hchars, List.mem_cons, List.mem_append, hc, ih _ hshorter left rfl]

/-! ## Slashes of a text -/

/-- the ways to encode a slash -/
def encodedSlashes : List (List Char) := [['%', '2', 'F'], ['%', '2', 'f']]

def slashForms : List (List Char) := ['/'] :: encodedSlashes

/-- whether a text holds a slash, plain or encoded -/
def HoldsSlash (text : List Char) : Prop := ∃ form ∈ slashForms, form <:+: text

theorem holdsSlash_iff {text : List Char} :
    HoldsSlash text ↔ '/' ∈ text ∨ ∃ form ∈ encodedSlashes, form <:+: text := by
  simp only [HoldsSlash, slashForms, List.exists_mem_cons_iff, List.singleton_infix_iff]

theorem holdsSlash_cons {c : Char} {text : List Char} :
    HoldsSlash (c :: text) ↔ c = '/' ∨ c = '%' ∧ (['2', 'F'] <+: text ∨ ['2', 'f'] <+: text) ∨ HoldsSlash text := by
  simp only [HoldsSlash, slashForms, encodedSlashes, List.infix_cons_iff, List.mem_cons, List.not_mem_nil, or_false,
    or_and_right, exists_or, exists_eq_left, List.cons_prefix_cons, List.nil_prefix, and_true, eq_comm (b := c)]
  tauto

theorem prefix_append_cons_iff {form before after : List Char} {c : Char} (hc : c ∉ form) :
    form <+: before ++ c :: after ↔ form <+: before := by
  refine ⟨fun h => ?_, fun h => h.trans (List.prefix_append _ _)⟩
  rcases List.prefix_or_prefix_of_prefix h (List.prefix_append before (c :: after)) with hshort | ⟨more, rfl⟩
  · exact hshort
  · cases more with
    | nil => rw [List.append_nil]
    | cons d more =>
      obtain ⟨rfl, -⟩ := List.cons_prefix_cons.1 ((List.prefix_append_right_inj before).1 h)
      exact absurd (List.mem_append_right before List.mem_cons_self) hc

theorem infix_append_cons_iff {form before after : List Char} {c : Char} (hc : c ∉ form) :
    form <:+: before ++ c :: after ↔ form <:+: before ∨ form <:+: after := by
  induction before with
  | nil =>
    have hstart := (@prefix_append_cons_iff form [] after c hc).trans List.prefix_nil
    rw [List.nil_append, List.infix_cons_iff, List.infix_nil]
    exact or_congr_left hstart
  | cons d before ih =>
    rw [List.cons_append, List.infix_cons_iff, List.infix_cons_iff, ih, ← List.cons_append,
      prefix_append_cons_iff hc, or_assoc]

/-- A character that occurs in no form of a slash separates the slashes before it from those behind it. -/
theorem holdsSlash_append_cons {before after : List Char} {c : Char} (hc : ∀ form ∈ slashForms, c ∉ form) :
    HoldsSlash (before ++ c :: after) ↔ HoldsSlash before ∨ HoldsSlash after := by
  have hsplit : ∀ form, form ∈ slashForms ∧ form <:+: before ++ c :: after ↔
      form ∈ slashForms ∧ form <:+: before ∨ form ∈ slashForms ∧ form <:+: after := by
    intro form
    rw [← and_or_left]
    exact and_congr_right fun hform => infix_append_cons_iff (hc form hform)
  unfold HoldsSlash
  rw [← exists_or]
  exact exists_congr hsplit

/-! ## Decoding -/

theorem hexDigitValue?_eq_some {c : Char} {n : Nat} (h : hexDigitValue? c = some n) :
    n < 16 ∧ c ≠ '%' ∧ c ≠ '/' ∧ (n = 2 ↔ c = '2') ∧ (n = 15 ↔ c = 'F' ∨ c = 'f') := by
  have hle : ∀ a b : Char, a ≤ b ↔ a.toNat ≤ b.toNat := fun _ _ => Iff.rfl
  have heq : ∀ d : Char, c = d ↔ c.toNat = d.toNat := fun d => Char.toNat_inj.symm
  unfold hexDigitValue? at h
  simp only [Bool.and_eq_true, decide_eq_true_eq, hle] at h
  simp only [ne_eq, heq]
  split_ifs at h with hdigit hlower hupper
  all_goals
    simp only [Option.some.injEq, Char.reduceToNat] at *
    omega

/-- The byte of a slash is read from a slash, or from an encoded one. -/
theorem slash_mem_percentBytes (text : List Char) : 0x2f ∈ percentBytes text ↔ HoldsSlash text := by
  fun_induction percentBytes text with
  | case1 => simp [HoldsSlash, slashForms, encodedSlashes]
  | case2 a b rest high low hb ha ih =>
    obtain ⟨-, ha', ha'', htwo, -⟩ := hexDigitValue?_eq_some ha
    obtain ⟨hlow, hb', hb'', -, hf⟩ := hexDigitValue?_eq_some hb
    have hvalue : 0x2f = 16 * high + low ↔ high = 2 ∧ low = 15 := by omega
    rw [List.mem_cons, ih, hvalue, htwo, hf]
    simp [holdsSlash_cons, ha', ha'', hb', hb'', eq_comm, and_or_left]
  | case3 a b rest hnone ih =>
    have hpercent : ¬0x2f = '%'.toNat := by decide
    have hencoded : ¬(['2', 'F'] <+: a :: b :: rest ∨ ['2', 'f'] <+: a :: b :: rest) := by
      simp only [List.cons_prefix_cons, List.nil_prefix, and_true]
      rintro (⟨rfl, rfl⟩ | ⟨rfl, rfl⟩)
      · exact hnone 2 15 rfl rfl
      · exact hnone 2 15 rfl rfl
    rw [List.mem_cons, ih, @holdsSlash_cons '%', or_iff_right hpercent, or_iff_right (by decide),
      or_iff_right fun h => hencoded h.2]
  | case4 c rest hform ih =>
    have hslash : 0x2f = c.toNat ↔ c = '/' := by
      rw [← Char.toNat_inj, eq_comm]
      rfl
    have hencoded : ¬(c = '%' ∧ (['2', 'F'] <+: rest ∨ ['2', 'f'] <+: rest)) := by
      rintro ⟨hc, ⟨after, hafter⟩ | ⟨after, hafter⟩⟩
      · exact hform _ _ after hc hafter.symm
      · exact hform _ _ after hc hafter.symm
    rw [List.mem_cons, ih, hslash, holdsSlash_cons, or_iff_right hencoded]

theorem slash_mem_percentDecodeFrom (run text : List Char) :
    '/' ∈ percentDecodeFrom run text ↔ HoldsSlash (run.reverse ++ text) := by
  induction text generalizing run with
  | nil =>
    rw [percentDecodeFrom, decodeRun, slash_mem_decodeUtf8, slash_mem_percentBytes, List.append_nil]
  | cons c rest ih =>
    rw [percentDecodeFrom]
    split_ifs with hc
    · rw [ih, List.reverse_cons, List.append_assoc, List.singleton_append]
    · have hascii : ∀ form ∈ slashForms, ∀ d ∈ form, isAscii d = true := by
        simp [slashForms, encodedSlashes, isAscii]
      have hforms : ∀ form ∈ slashForms, c ∉ form := fun form hform hmem => hc (hascii form hform c hmem)
      have hslash : '/' ≠ c := fun h => hforms ['/'] List.mem_cons_self (List.mem_singleton.2 h.symm)
      rw [List.mem_append, List.mem_cons, ih, decodeRun, slash_mem_decodeUtf8, slash_mem_percentBytes,
        or_iff_right hslash, holdsSlash_append_cons hforms]
      rfl

/-- **A decoded text holds a slash** where the text holds one, plain or encoded. -/
theorem slash_mem_percentDecode (text : String) : '/' ∈ (percentDecode text).toList ↔ HoldsSlash text.toList := by
  rw [percentDecode, String.toList_ofList, slash_mem_percentDecodeFrom]
  rfl

theorem percentBytes_ne_nil {text : List Char} (h : text ≠ []) : percentBytes text ≠ [] := by
  fun_cases percentBytes text with
  | case1 => exact absurd rfl h
  | _ => exact List.cons_ne_nil _ _

theorem decodeRun_ne_nil {run : List Char} (h : run ≠ []) : decodeRun run ≠ [] :=
  decodeUtf8_ne_nil (percentBytes_ne_nil (by simpa using h))

theorem percentDecodeFrom_ne_nil {run text : List Char} (h : run ≠ [] ∨ text ≠ []) :
    percentDecodeFrom run text ≠ [] := by
  induction text generalizing run with
  | nil => exact decodeRun_ne_nil (h.resolve_right (not_not.2 rfl))
  | cons c rest ih =>
    rw [percentDecodeFrom]
    split_ifs
    · exact ih (.inl (List.cons_ne_nil _ _))
    · simp

/-- **Something is decoded as something.** -/
theorem percentDecode_ne_empty {text : String} (h : text ≠ "") : percentDecode text ≠ "" := by
  have hchars : text.toList ≠ [] := fun hnil => h (String.toList_eq_nil_iff.1 hnil)
  have hdecoded := @percentDecodeFrom_ne_nil [] _ (.inr hchars)
  rw [ne_eq, ← String.toList_eq_nil_iff, percentDecode, String.toList_ofList]
  exact hdecoded

end UrlRouter.Text
