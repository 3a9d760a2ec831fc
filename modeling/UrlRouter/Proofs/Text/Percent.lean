/-
Decoding what was encoded.

Every character is encoded as itself or as the bytes of its UTF-8 form, and the bytes of a character are decoded
without looking at what comes behind them. An encoded text is ASCII, so that it is decoded in one run.

Results:
- `decodeUtf8_codeBytes`: the bytes of a character are decoded as the character.
- `percentBytes_encode`: the bytes of an encoded text are those of its characters.
- `percentDecode_encode`: decoding undoes encoding.
- `slash_not_mem_encode`: an encoded text holds no slash.
-/
import Mathlib.Tactic
import UrlRouter.Text.Percent

namespace UrlRouter.Text

/-! ## The bytes of a character -/

/-- the bytes of the UTF-8 form of a code point -/
def codeBytes (n : Nat) : List Nat :=
  if n < 0x80 then [n]
  else if n < 0x800 then [n / 64 + 0xc0, n % 64 + 0x80]
  else if n < 0x10000 then [n / 4096 + 0xe0, n / 64 % 64 + 0x80, n % 64 + 0x80]
  else [n / 262144 + 0xf0, n / 4096 % 64 + 0x80, n / 64 % 64 + 0x80, n % 64 + 0x80]

theorem codePoint_bounds (c : Char) : c.toNat < 0xd800 ∨ 0xdfff < c.toNat ∧ c.toNat < 0x110000 := c.valid

theorem map_utf8EncodeChar (c : Char) : (String.utf8EncodeChar c).map UInt8.toNat = codeBytes c.toNat := by
  have hbounds := codePoint_bounds c
  have hvalue : c.val.toNat = c.toNat := rfl
  unfold String.utf8EncodeChar codeBytes
  simp only [hvalue, ← Nat.lt_succ_iff]
  split_ifs
  · simp only [List.map_cons, List.map_nil, UInt8.toNat_ofNat', List.cons.injEq, and_true]
    omega
  · simp only [List.map_cons, List.map_nil, UInt8.toNat_ofNat', List.cons.injEq, and_true]
    omega
  · simp only [List.map_cons, List.map_nil, UInt8.toNat_ofNat', List.cons.injEq, and_true]
    omega
  · simp only [List.map_cons, List.map_nil, UInt8.toNat_ofNat', List.cons.injEq, and_true]
    omega

/-! ## Decoding bytes -/

theorem leadingByte_two {a : Nat} (h : 0xc2 ≤ a ∧ a < 0xe0) : leadingByte? a = some (1, 0x80, 0xbf) := by
  simp [leadingByte?, h]

/-- The first of the bytes that follow is bounded more closely where a shorter form or a surrogate would begin. -/
theorem leadingByte_three {n : Nat} (h : 0x800 ≤ n ∧ n < 0x10000) (hvalid : n < 0xd800 ∨ 0xdfff < n) :
    ∃ low high, leadingByte? (n / 4096 + 0xe0) = some (2, low, high) ∧
      low ≤ n / 64 % 64 + 0x80 ∧ n / 64 % 64 + 0x80 ≤ high := by
  unfold leadingByte?
  rw [if_neg (by simp)]
  by_cases hfirst : n / 4096 + 0xe0 = 0xe0
  · rw [if_pos hfirst]
    exact ⟨_, _, rfl, by omega, by omega⟩
  by_cases hsurrogate : n / 4096 + 0xe0 = 0xed
  · rw [if_neg hfirst, if_pos hsurrogate]
    exact ⟨_, _, rfl, by omega, by omega⟩
  · rw [if_neg hfirst, if_neg hsurrogate, if_pos (by simp; omega)]
    exact ⟨_, _, rfl, by omega, by omega⟩

theorem leadingByte_four {n : Nat} (h : 0x10000 ≤ n ∧ n < 0x110000) :
    ∃ low high, leadingByte? (n / 262144 + 0xf0) = some (3, low, high) ∧
      low ≤ n / 4096 % 64 + 0x80 ∧ n / 4096 % 64 + 0x80 ≤ high := by
  unfold leadingByte?
  rw [if_neg (by simp), if_neg (by omega), if_neg (by omega), if_neg (by simp)]
  by_cases hfirst : n / 262144 + 0xf0 = 0xf0
  · rw [if_pos hfirst]
    exact ⟨_, _, rfl, by omega, by omega⟩
  by_cases hlast : n / 262144 + 0xf0 = 0xf4
  · rw [if_neg hfirst, if_neg (by simp; omega), if_pos hlast]
    exact ⟨_, _, rfl, by omega, by omega⟩
  · rw [if_neg hfirst, if_pos (by simp; omega)]
    exact ⟨_, _, rfl, by omega, by omega⟩

theorem isContinuation_low (n : Nat) : isContinuation (n % 64 + 0x80) = true := by
  simp only [isContinuation, Bool.and_eq_true, decide_eq_true_eq]
  omega

section Bytes

variable {a b c d low high : Nat} (rest : List Nat)

theorem in_range (hlow : low ≤ b) (hhigh : b ≤ high) : (decide (b < low) || decide (high < b)) = false := by
  simp
  omega

theorem decodeUtf8_one (ha : a < 0x80) : decodeUtf8 (a :: rest) = Char.ofNat a :: decodeUtf8 rest := by
  rw [decodeUtf8.eq_def]
  simp only [if_pos ha]

theorem decodeUtf8_two (ha : ¬a < 0x80) (hlead : leadingByte? a = some (1, low, high)) (hlow : low ≤ b)
    (hhigh : b ≤ high) : decodeUtf8 (a :: b :: rest) = Char.ofNat (a % 32 * 64 + b % 64) :: decodeUtf8 rest := by
  rw [decodeUtf8.eq_def]
  simp only [if_neg ha, hlead, in_range hlow hhigh]
  rfl

theorem decodeUtf8_three (ha : ¬a < 0x80) (hlead : leadingByte? a = some (2, low, high)) (hlow : low ≤ b)
    (hhigh : b ≤ high) (hc : isContinuation c = true) :
    decodeUtf8 (a :: b :: c :: rest) = Char.ofNat (a % 16 * 4096 + b % 64 * 64 + c % 64) :: decodeUtf8 rest := by
  rw [decodeUtf8.eq_def]
  simp only [if_neg ha, hlead, in_range hlow hhigh, hc]
  rfl

theorem decodeUtf8_four (ha : ¬a < 0x80) (hlead : leadingByte? a = some (3, low, high)) (hlow : low ≤ b)
    (hhigh : b ≤ high) (hc : isContinuation c = true) (hd : isContinuation d = true) :
    decodeUtf8 (a :: b :: c :: d :: rest) =
      Char.ofNat (a % 8 * 262144 + b % 64 * 4096 + c % 64 * 64 + d % 64) :: decodeUtf8 rest := by
  rw [decodeUtf8.eq_def]
  simp only [if_neg ha, hlead, in_range hlow hhigh, hc, hd]
  rfl

end Bytes

/-- **The bytes of a character are decoded as the character**, whatever comes behind them. -/
theorem decodeUtf8_codeBytes (c : Char) (rest : List Nat) :
    decodeUtf8 (codeBytes c.toNat ++ rest) = c :: decodeUtf8 rest := by
  have hbounds := codePoint_bounds c
  have hback := Char.ofNat_toNat c
  generalize c.toNat = n at hbounds hback
  subst hback
  unfold codeBytes
  split_ifs with h1 h2 h3
  · exact decodeUtf8_one rest h1
  · refine (decodeUtf8_two rest (by omega) (leadingByte_two (by omega)) (by omega) (by omega)).trans ?_
    congr 2
    omega
  · obtain ⟨low, high, hlead, hlow, hhigh⟩ := @leadingByte_three n (by omega) (by omega)
    refine (decodeUtf8_three rest (by omega) hlead hlow hhigh (isContinuation_low n)).trans ?_
    congr 2
    omega
  · obtain ⟨low, high, hlead, hlow, hhigh⟩ := @leadingByte_four n (by omega)
    refine (decodeUtf8_four rest (by omega) hlead hlow hhigh (isContinuation_low _) (isContinuation_low n)).trans ?_
    congr 2
    omega

/-! ## Encoded texts -/

/-- the bytes of the UTF-8 form of a text -/
def textBytes (text : List Char) : List Nat := text.flatMap fun c => codeBytes c.toNat

theorem decodeUtf8_textBytes (text : List Char) : decodeUtf8 (textBytes text) = text := by
  induction text with
  | nil => rfl
  | cons c text ih =>
    rw [textBytes, List.flatMap_cons, decodeUtf8_codeBytes, ← textBytes, ih]

theorem hexDigitValue?_upperHexDigit {n : Nat} (h : n < 16) : hexDigitValue? (upperHexDigit n) = some n := by
  interval_cases n <;> rfl

theorem percentBytes_percentByte (b : UInt8) (rest : List Char) :
    percentBytes (percentByte b ++ rest) = b.toNat :: percentBytes rest := by
  have hsize : b.toNat < 256 := b.toNat_lt
  have hhigh := @hexDigitValue?_upperHexDigit (b.toNat / 16) (by omega)
  have hlow := @hexDigitValue?_upperHexDigit (b.toNat % 16) (by omega)
  have hvalue : 16 * (b.toNat / 16) + b.toNat % 16 = b.toNat := by omega
  rw [percentByte, List.cons_append, List.cons_append, List.cons_append, List.nil_append, percentBytes, hhigh, hlow]
  simp only [hvalue]

theorem isUnreserved_bounds {c : Char} (h : isUnreserved c = true) : c.toNat < 128 ∧ c ≠ '%' ∧ c ≠ '/' := by
  refine ⟨?_, by rintro rfl; revert h; decide, by rintro rfl; revert h; decide⟩
  have hle : ∀ a b : Char, a ≤ b ↔ a.toNat ≤ b.toNat := fun _ _ => Iff.rfl
  simp only [isUnreserved, Bool.or_eq_true, Bool.and_eq_true, decide_eq_true_eq, hle] at h
  rcases h with (((((h | h) | h) | rfl) | rfl) | rfl) | rfl
  · exact lt_of_le_of_lt h.2 (by decide)
  · exact lt_of_le_of_lt h.2 (by decide)
  · exact lt_of_le_of_lt h.2 (by decide)
  all_goals decide

theorem percentBytes_plain {c : Char} (h : c ≠ '%') (rest : List Char) :
    percentBytes (c :: rest) = c.toNat :: percentBytes rest := by
  rw [percentBytes]
  intro a b tail hc
  exact absurd hc h

theorem percentBytes_encodeChar (c : Char) (rest : List Char) :
    percentBytes (percentEncodeChar c ++ rest) = codeBytes c.toNat ++ percentBytes rest := by
  unfold percentEncodeChar
  split_ifs with h
  · obtain ⟨hascii, hpercent, -⟩ := isUnreserved_bounds h
    rw [List.singleton_append, percentBytes_plain hpercent, codeBytes, if_pos hascii]
    rfl
  · rw [← map_utf8EncodeChar]
    induction String.utf8EncodeChar c with
    | nil => rfl
    | cons b bytes ih => rw [List.flatMap_cons, List.append_assoc, percentBytes_percentByte, ih]; rfl

/-- The bytes of an encoded text are those of the text. -/
theorem percentBytes_encode (text : List Char) : percentBytes (text.flatMap percentEncodeChar) = textBytes text := by
  induction text with
  | nil => rfl
  | cons c text ih => rw [List.flatMap_cons, percentBytes_encodeChar, ih]; rfl

theorem upperHexDigit_ascii {n : Nat} (h : n < 16) : (upperHexDigit n).toNat < 128 ∧ upperHexDigit n ≠ '/' := by
  interval_cases n <;> decide

/-- What a character is encoded as is ASCII without a slash. -/
theorem mem_percentEncodeChar (c : Char) : ∀ d ∈ percentEncodeChar c, d.toNat < 128 ∧ d ≠ '/' := by
  intro d hd
  unfold percentEncodeChar at hd
  split_ifs at hd with h
  · obtain rfl := List.mem_singleton.1 hd
    obtain ⟨hascii, -, hslash⟩ := isUnreserved_bounds h
    exact ⟨hascii, hslash⟩
  · obtain ⟨b, -, hb⟩ := List.mem_flatMap.1 hd
    have hsize : b.toNat < 256 := b.toNat_lt
    simp only [percentByte, List.mem_cons, List.not_mem_nil, or_false] at hb
    rcases hb with rfl | rfl | rfl
    · exact ⟨by decide, by decide⟩
    · exact upperHexDigit_ascii (by omega)
    · exact upperHexDigit_ascii (by omega)

theorem percentEncodeChar_ne_nil (c : Char) : percentEncodeChar c ≠ [] := by
  unfold percentEncodeChar
  split_ifs
  · exact List.cons_ne_nil _ _
  · obtain ⟨b, bytes, hbytes⟩ := List.exists_cons_of_ne_nil (@String.utf8EncodeChar_ne_nil c)
    rw [hbytes, List.flatMap_cons]
    exact List.cons_ne_nil _ _

/-! ## Whole texts -/

/-- An ASCII text is decoded in one run. -/
theorem percentDecodeFrom_ascii {text : List Char} (h : ∀ c ∈ text, c.toNat < 128) (run : List Char) :
    percentDecodeFrom run text = decodeUtf8 (percentBytes (run.reverse ++ text)) := by
  induction text generalizing run with
  | nil => rw [percentDecodeFrom, decodeRun, List.append_nil]
  | cons c text ih =>
    have hc : isAscii c = true := by simpa [isAscii] using h c List.mem_cons_self
    rw [percentDecodeFrom, if_pos hc, ih fun d hd => h d (List.mem_cons_of_mem c hd), List.reverse_cons,
      List.append_assoc, List.singleton_append]

theorem toList_percentEncode (text : String) :
    (percentEncode text).toList = text.toList.flatMap percentEncodeChar := String.toList_ofList

/-- **Decoding undoes encoding.** -/
theorem percentDecode_encode (text : String) : percentDecode (percentEncode text) = text := by
  have hascii : ∀ c ∈ text.toList.flatMap percentEncodeChar, c.toNat < 128 := by
    intro c hc
    obtain ⟨d, -, hd⟩ := List.mem_flatMap.1 hc
    exact (mem_percentEncodeChar d c hd).1
  apply String.toList_injective
  rw [percentDecode, String.toList_ofList, toList_percentEncode, percentDecodeFrom_ascii hascii, List.reverse_nil,
    List.nil_append, percentBytes_encode, decodeUtf8_textBytes]

/-- **An encoded text holds no slash.** -/
theorem slash_not_mem_encode (text : String) : '/' ∉ (percentEncode text).toList := by
  rw [toList_percentEncode]
  intro h
  obtain ⟨c, -, hc⟩ := List.mem_flatMap.1 h
  exact (mem_percentEncodeChar c '/' hc).2 rfl

theorem encode_ne_nil {text : String} (h : text ≠ "") : (percentEncode text).toList ≠ [] := by
  have hne : text.toList ≠ [] := fun hnil => h (String.toList_eq_nil_iff.1 hnil)
  obtain ⟨c, rest, hchars⟩ := List.exists_cons_of_ne_nil hne
  rw [toList_percentEncode, hchars, List.flatMap_cons]
  exact fun hnil => percentEncodeChar_ne_nil c (List.append_eq_nil_iff.1 hnil).1

end UrlRouter.Text
