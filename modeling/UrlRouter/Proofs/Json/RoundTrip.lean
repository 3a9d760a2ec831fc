/-
Reading back what was written.

The compact text of a value without fractions is read as that value. Every token is read up to its last character, so
that what follows a value is left as it was; only a number must know that no digit follows it.

Results:
- `readChars_writeChars`: a string is read up to its closing quote.
- `readNumber_writeInt`: a whole number is read up to the first character that cannot continue it.
- `ofText?_text`: the text of a value without fractions is read as the value.
-/
import Mathlib.Tactic
import UrlRouter.Json.Reader
import UrlRouter.Json.Writer

namespace UrlRouter.Json

/-! ## Strings -/

theorem hexValue?_escapeDigit {n : Nat} (h : n < 16) : hexValue? (escapeDigit n) = some n := by
  interval_cases n <;> rfl

theorem hexFour?_escapeDigits {n : Nat} (h : n < 32) :
    hexFour? '0' '0' (escapeDigit (n / 16)) (escapeDigit (n % 16)) = some n := by
  have hzero : hexValue? '0' = some 0 := rfl
  simp only [hexFour?, hzero, hexValue?_escapeDigit (show n / 16 < 16 by omega),
    hexValue?_escapeDigit (show n % 16 < 16 by omega), Option.bind_eq_bind, Option.bind_some, Option.pure_def]
  congr 1
  omega

/-- A character is read back from what is written for it. -/
theorem readChars_escapedChar (c : Char) (rest : List Char) :
    readChars (escapedChar c ++ rest) = (readChars rest).map fun read => (c :: read.1, read.2) := by
  unfold escapedChar
  split_ifs with hquote hslash hfeed htab hreturn hback hform hcontrol
  · subst hquote
    simp [readChars, simpleEscape?]
  · subst hslash
    simp [readChars, simpleEscape?]
  · subst hfeed
    simp [readChars, simpleEscape?]
  · subst htab
    simp [readChars, simpleEscape?]
  · subst hreturn
    simp [readChars, simpleEscape?]
  · subst hback
    simp [readChars, simpleEscape?]
  · subst hform
    simp [readChars, simpleEscape?]
  · have hhigh : isHighSurrogate c.toNat = false := by
      simp only [isHighSurrogate, Bool.and_eq_false_iff, decide_eq_false_iff_not]
      omega
    have hlow : isLowSurrogate c.toNat = false := by
      simp only [isLowSurrogate, Bool.and_eq_false_iff, decide_eq_false_iff_not]
      omega
    simp [readChars, hexFour?_escapeDigits hcontrol, hhigh, hlow]
  · rw [List.singleton_append, readChars]
    · rw [if_neg (by simp [hslash, hcontrol])]
    · exact hquote
    · rintro a b c' d tail rfl
      exact absurd rfl hslash
    · rintro d tail rfl
      exact absurd rfl hslash

theorem readChars_writeChars (text rest : List Char) : readChars (writeChars text ++ '"' :: rest) = some (text, rest) := by
  induction text with
  | nil => rfl
  | cons c text ih =>
    rw [writeChars, List.flatMap_cons, List.append_assoc, readChars_escapedChar, ← writeChars, ih]
    rfl

/-! ## Numbers -/

/-- what follows cannot continue a number -/
def Stops (rest : List Char) : Prop := ∀ c, rest.head? = some c → isDigit c = false ∧ c ≠ '.' ∧ c ≠ 'e' ∧ c ≠ 'E'

theorem stops_cons {c : Char} {rest : List Char} (h : isDigit c = false ∧ c ≠ '.' ∧ c ≠ 'e' ∧ c ≠ 'E') :
    Stops (c :: rest) := by
  intro d hd
  cases hd
  exact h

theorem isDigit_toDigits (n : Nat) : ∀ c ∈ Nat.toDigits 10 n, isDigit c = true := by
  intro c hc
  have h := Nat.isDigit_of_mem_toDigits (by omega) (by omega) hc
  simp only [Char.isDigit, Bool.and_eq_true, decide_eq_true_eq] at h
  simp only [isDigit, Bool.and_eq_true, decide_eq_true_eq]
  exact h

theorem digitsValue_toDigits (n : Nat) : digitsValue (Nat.toDigits 10 n) = n := Nat.ofDigitChars_ten_toDigits

/-- Only zero starts with a zero. -/
theorem toDigits_head {n : Nat} (hn : 0 < n) : (Nat.toDigits 10 n).head? ≠ some '0' := by
  induction n using Nat.strong_induction_on with
  | _ n ih =>
    by_cases hsmall : n < 10
    · rw [Nat.toDigits_of_lt_base hsmall]
      interval_cases n <;> decide
    · rw [Nat.toDigits_of_base_le (by omega) (by omega), List.head?_append_of_ne_nil _ Nat.toDigits_ne_nil]
      exact ih (n / 10) (by omega) (by omega)

theorem takeWhile_digits {digits rest : List Char} (hdigits : ∀ c ∈ digits, isDigit c = true) (hrest : Stops rest) :
    (digits ++ rest).takeWhile isDigit = digits ∧ (digits ++ rest).dropWhile isDigit = rest := by
  rw [List.takeWhile_append_of_pos hdigits, List.dropWhile_append_of_pos hdigits]
  cases rest with
  | nil => simp
  | cons c rest =>
    have hc := (hrest c rfl).1
    simp [hc]

theorem readUnsigned_toDigits (negative : Bool) (n : Nat) {rest : List Char} (hrest : Stops rest) :
    readUnsigned negative (Nat.toDigits 10 n ++ rest) = some (.int (if negative then -(n : Int) else n), rest) := by
  obtain ⟨htake, hdrop⟩ := takeWhile_digits (isDigit_toDigits n) hrest
  have hfront : ((Nat.toDigits 10 n).isEmpty ||
      (decide ((Nat.toDigits 10 n).head? = some '0') && decide (1 < (Nat.toDigits 10 n).length))) = false := by
    have hne : (Nat.toDigits 10 n).isEmpty = false := List.isEmpty_eq_false_iff.2 Nat.toDigits_ne_nil
    rcases Nat.eq_zero_or_pos n with rfl | hn
    · rfl
    · simp [hne, toDigits_head hn]
  unfold readUnsigned
  simp only [htake, hdrop, hfront]
  cases rest with
  | nil => simp [digitsValue_toDigits]
  | cons c rest =>
    obtain ⟨-, hpoint, hsmall, hlarge⟩ := hrest c rfl
    simp [hpoint, hsmall, hlarge, digitsValue_toDigits]

theorem readNumber_writeInt (n : Int) {rest : List Char} (hrest : Stops rest) :
    readNumber (writeInt n ++ rest) = some (.int n, rest) := by
  unfold writeInt
  split_ifs with hn
  · rw [List.cons_append, readNumber, readUnsigned_toDigits true _ hrest, if_pos rfl]
    congr 3
    omega
  · obtain ⟨c, digits, hdigits⟩ := List.exists_cons_of_ne_nil (Nat.toDigits_ne_nil (b := 10) (n := n.natAbs))
    have hc : c ≠ '-' := by
      rintro rfl
      exact absurd (isDigit_toDigits n.natAbs '-' (by simp [hdigits])) (by decide)
    have hread : readNumber (Nat.toDigits 10 n.natAbs ++ rest) = readUnsigned false (Nat.toDigits 10 n.natAbs ++ rest) := by
      rw [hdigits, List.cons_append, readNumber]
      intro tail heq
      exact hc (List.cons.inj heq).1
    rw [hread, readUnsigned_toDigits false _ hrest, if_neg (by simp)]
    congr 3
    omega

/-! ## Values -/

/-- The value is made without fractions. -/
inductive Fractionless : Json → Prop where
  | null : Fractionless .null
  | bool (b : Bool) : Fractionless (.bool b)
  | int (n : Int) : Fractionless (.int n)
  | string (text : String) : Fractionless (.string text)
  | array {items : List Json} (h : ∀ item ∈ items, Fractionless item) : Fractionless (.array items)
  | object {fields : List (String × Json)} (h : ∀ field ∈ fields, Fractionless field.2) : Fractionless (.object fields)

/-- With a limit that suits its length the text of the value is read as the value. -/
def ReadsBack (value : Json) : Prop :=
  ∀ limit rest, 2 * (write value).length ≤ limit → Stops rest → readValue limit (write value ++ rest) = some (value, rest)

theorem skipSpaces_cons {c : Char} (h : isSpace c = false) (rest : List Char) : skipSpaces (c :: rest) = c :: rest :=
  List.dropWhile_cons_of_neg (by simp [h])

theorem writeInt_head (n : Int) : ∃ c tail, writeInt n = c :: tail ∧ (c = '-' ∨ isDigit c = true) := by
  obtain ⟨c, digits, hdigits⟩ := List.exists_cons_of_ne_nil (Nat.toDigits_ne_nil (b := 10) (n := n.natAbs))
  unfold writeInt
  split_ifs
  · exact ⟨'-', _, rfl, .inl rfl⟩
  · exact ⟨c, digits, hdigits, .inr (isDigit_toDigits n.natAbs c (by simp [hdigits]))⟩

/-- No value starts with a blank or a closing bracket. -/
theorem write_head {value : Json} (h : value.Fractionless) :
    ∃ c tail, write value = c :: tail ∧ isSpace c = false ∧ c ≠ ']' := by
  cases h with
  | null => exact ⟨'n', _, rfl, by decide, by decide⟩
  | bool b => cases b with
    | true => exact ⟨'t', _, rfl, by decide, by decide⟩
    | false => exact ⟨'f', _, rfl, by decide, by decide⟩
  | int n =>
    obtain ⟨c, tail, htail, hc⟩ := writeInt_head n
    refine ⟨c, tail, htail, ?_⟩
    rcases hc with rfl | hc
    · exact ⟨by decide, by decide⟩
    · refine ⟨?_, by rintro rfl; revert hc; decide⟩
      simp only [isSpace, Bool.or_eq_false_iff, decide_eq_false_iff_not]
      refine ⟨⟨⟨?_, ?_⟩, ?_⟩, ?_⟩ <;> (rintro rfl; revert hc; decide)
  | string text => exact ⟨'"', _, rfl, by decide, by decide⟩
  | @array items h => cases items with
    | nil => exact ⟨'[', _, rfl, by decide, by decide⟩
    | cons item items => exact ⟨'[', _, rfl, by decide, by decide⟩
  | @object fields h => cases fields with
    | nil => exact ⟨'\x7b', _, rfl, by decide, by decide⟩
    | cons field fields => exact ⟨'\x7b', _, rfl, by decide, by decide⟩

theorem write_length_pos {value : Json} (h : value.Fractionless) : 0 < (write value).length := by
  obtain ⟨c, tail, htail, -⟩ := write_head h
  simp [htail]

theorem readsBack_int (n : Int) : ReadsBack (.int n) := by
  intro limit rest hlimit hrest
  obtain ⟨limit, rfl⟩ : ∃ l, limit = l + 1 := by
    have hpos := write_length_pos (.int n)
    exact ⟨limit - 1, by omega⟩
  obtain ⟨c, tail, htail, hc⟩ := writeInt_head n
  have hnumber := readNumber_writeInt n hrest
  rw [htail, List.cons_append] at hnumber
  rw [write, htail, List.cons_append]
  have hspace : isSpace c = false := by
    obtain ⟨d, tail', hd, hspace, -⟩ := write_head (.int n)
    rw [write, htail] at hd
    cases hd
    exact hspace
  have hne : ∀ d ∈ ['n', 't', 'f', '"', '[', '\x7b'], c ≠ d := by
    intro d hd heq
    subst heq
    rcases hc with rfl | hc
    · revert hd
      decide
    · revert hd
      simp only [List.mem_cons, List.not_mem_nil, or_false]
      rintro (rfl | rfl | rfl | rfl | rfl | rfl) <;> (revert hc; decide)
  simp only [List.mem_cons, List.not_mem_nil, or_false, forall_eq_or_imp, forall_eq] at hne
  obtain ⟨hn, ht, hf, hquote, harray, hobject⟩ := hne
  rw [readValue, skipSpaces_cons hspace]
  simp [hn, ht, hf, hquote, harray, hobject, hnumber]

theorem stops_writeItems (items : List Json) (rest : List Char) : Stops (writeItems items ++ rest) := by
  cases items with
  | nil => exact stops_cons (by decide)
  | cons item items => exact stops_cons (by decide)

theorem stops_writeFields (fields : List (String × Json)) (rest : List Char) : Stops (writeFields fields ++ rest) := by
  cases fields with
  | nil => exact stops_cons (by decide)
  | cons field fields => exact stops_cons (by decide)

theorem readItems_writeItems {items : List Json} (h : ∀ item ∈ items, ReadsBack item) (limit : Nat) (rest : List Char)
    (hlimit : 2 * (writeItems items).length ≤ limit) :
    readItems limit (writeItems items ++ rest) = some (items, rest) := by
  induction items generalizing limit with
  | nil =>
    obtain ⟨limit, rfl⟩ : ∃ l, limit = l + 1 := ⟨limit - 1, by simp [writeItems] at hlimit; omega⟩
    rfl
  | cons item items ih =>
    simp only [writeItems, List.length_cons, List.length_append] at hlimit
    obtain ⟨limit, rfl⟩ : ∃ l, limit = l + 1 := ⟨limit - 1, by omega⟩
    have hitem := h item List.mem_cons_self limit (writeItems items ++ rest) (by omega) (stops_writeItems items rest)
    have hitems := ih (fun other hother => h other (List.mem_cons_of_mem item hother)) limit (by omega)
    rw [writeItems, List.cons_append, List.append_assoc, readItems, skipSpaces_cons (by decide)]
    simp [hitem, hitems]

theorem readField_writeField (key : String) {value : Json} (h : ReadsBack value) (limit : Nat) (rest : List Char)
    (hlimit : 2 * (write value).length + 1 ≤ limit) (hrest : Stops rest) :
    readField limit (writeString key ++ ':' :: (write value ++ rest)) = some ((key, value), rest) := by
  obtain ⟨limit, rfl⟩ : ∃ l, limit = l + 1 := ⟨limit - 1, by omega⟩
  have hvalue := h limit rest (by omega) hrest
  have hkey := readChars_writeChars key.toList (':' :: (write value ++ rest))
  rw [writeString, List.cons_append, List.cons_append, List.append_assoc, List.singleton_append, readField,
    skipSpaces_cons (by decide)]
  simp [hkey, skipSpaces_cons, isSpace, hvalue]

theorem readFields_writeFields {fields : List (String × Json)} (h : ∀ field ∈ fields, ReadsBack field.2) (limit : Nat)
    (rest : List Char) (hlimit : 2 * (writeFields fields).length ≤ limit) :
    readFields limit (writeFields fields ++ rest) = some (fields, rest) := by
  induction fields generalizing limit with
  | nil =>
    obtain ⟨limit, rfl⟩ : ∃ l, limit = l + 1 := ⟨limit - 1, by simp [writeFields] at hlimit; omega⟩
    rfl
  | cons field fields ih =>
    obtain ⟨key, value⟩ := field
    simp only [writeFields, List.length_cons, List.length_append] at hlimit
    obtain ⟨limit, rfl⟩ : ∃ l, limit = l + 1 := ⟨limit - 1, by omega⟩
    have hvalue : ReadsBack value := h (key, value) List.mem_cons_self
    have hfield := readField_writeField key hvalue limit (writeFields fields ++ rest) (by omega)
      (stops_writeFields fields rest)
    have hfields := ih (fun other hother => h other (List.mem_cons_of_mem _ hother)) limit (by omega)
    rw [writeFields, List.cons_append, List.append_assoc, List.cons_append, List.append_assoc, readFields,
      skipSpaces_cons (by decide)]
    simp [hfield, hfields]

theorem readsBack_null : ReadsBack .null := by
  intro limit rest hlimit _
  obtain ⟨limit, rfl⟩ : ∃ l, limit = l + 1 := ⟨limit - 1, by simp [write] at hlimit; omega⟩
  rfl

theorem readsBack_bool (b : Bool) : ReadsBack (.bool b) := by
  intro limit rest hlimit _
  cases b
  all_goals
    obtain ⟨limit, rfl⟩ : ∃ l, limit = l + 1 := ⟨limit - 1, by simp [write] at hlimit; omega⟩
    rfl

theorem readsBack_string (text : String) : ReadsBack (.string text) := by
  intro limit rest hlimit _
  obtain ⟨limit, rfl⟩ : ∃ l, limit = l + 1 := ⟨limit - 1, by simp [write, writeString] at hlimit; omega⟩
  have htext := readChars_writeChars text.toList rest
  rw [write, writeString, List.cons_append, List.cons_append, List.append_assoc, List.singleton_append, readValue,
    skipSpaces_cons (by decide)]
  simp [htext]

theorem readsBack_array {items : List Json} (hitems : ∀ item ∈ items, item.Fractionless)
    (ih : ∀ item ∈ items, ReadsBack item) : ReadsBack (.array items) := by
  intro limit rest hlimit _
  cases items with
  | nil =>
    obtain ⟨limit, rfl⟩ : ∃ l, limit = l + 1 := ⟨limit - 1, by simp [write] at hlimit; omega⟩
    rfl
  | cons item items =>
    simp only [write, List.length_cons, List.length_append] at hlimit
    obtain ⟨limit, rfl⟩ : ∃ l, limit = l + 1 := ⟨limit - 1, by omega⟩
    have hitem := ih item List.mem_cons_self limit (writeItems items ++ rest) (by omega) (stops_writeItems items rest)
    have hrest := readItems_writeItems (fun other hother => ih other (List.mem_cons_of_mem item hother)) limit rest
      (by omega)
    obtain ⟨c, tail, hhead, hspace, hbracket⟩ := write_head (hitems item List.mem_cons_self)
    rw [hhead, List.cons_append] at hitem
    rw [write, List.cons_append, List.append_assoc, hhead, List.cons_append, readValue, skipSpaces_cons (by decide)]
    simp [skipSpaces_cons hspace, hbracket, hitem, hrest]

theorem readsBack_object {fields : List (String × Json)} (ih : ∀ field ∈ fields, ReadsBack field.2) :
    ReadsBack (.object fields) := by
  intro limit rest hlimit _
  cases fields with
  | nil =>
    obtain ⟨limit, rfl⟩ : ∃ l, limit = l + 1 := ⟨limit - 1, by simp [write] at hlimit; omega⟩
    rfl
  | cons field fields =>
    obtain ⟨key, value⟩ := field
    simp only [write, List.length_cons, List.length_append] at hlimit
    obtain ⟨limit, rfl⟩ : ∃ l, limit = l + 1 := ⟨limit - 1, by omega⟩
    have hvalue : ReadsBack value := ih (key, value) List.mem_cons_self
    have hfield := readField_writeField key hvalue limit (writeFields fields ++ rest) (by omega)
      (stops_writeFields fields rest)
    have hrest := readFields_writeFields (fun other hother => ih other (List.mem_cons_of_mem _ hother)) limit rest
      (by omega)
    have hquote : writeString key = '"' :: (writeChars key.toList ++ ['"']) := rfl
    rw [hquote, List.cons_append, List.append_assoc, List.singleton_append] at hfield
    rw [write, List.cons_append, List.append_assoc, List.cons_append, List.append_assoc, hquote, List.cons_append,
      List.append_assoc, List.singleton_append, readValue, skipSpaces_cons (by decide)]
    simp only [skipSpaces_cons (show isSpace '"' = false by decide)]
    simp [hfield, hrest]

/-- **Every value without fractions is read back.** -/
theorem readsBack_of_fractionless {value : Json} (h : value.Fractionless) : ReadsBack value := by
  induction h with
  | int n => exact readsBack_int n
  | null => exact readsBack_null
  | bool b => exact readsBack_bool b
  | string text => exact readsBack_string text
  | array hitems ih => exact readsBack_array hitems ih
  | object _ ih => exact readsBack_object ih

/-- **The text of a value without fractions is read as the value.** -/
theorem ofText?_text {value : Json} (h : value.Fractionless) : ofText? value.text = some value := by
  have hread := readsBack_of_fractionless h (2 * (write value).length + 1) [] (by omega) (fun c hc => by cases hc)
  rw [List.append_nil] at hread
  unfold ofText? text
  rw [String.toList_ofList]
  show (readValue (2 * (write value).length + 1) (write value)).bind _ = _
  rw [hread]
  rfl

end UrlRouter.Json
