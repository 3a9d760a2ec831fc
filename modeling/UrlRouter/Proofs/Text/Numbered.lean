/-
Names that end in a number.

Groups of generated expressions are called by a fixed word and a running number. Such names are identifiers and differ
when their numbers do.
-/
import Mathlib.Tactic
import UrlRouter.Text.Identifier

namespace UrlRouter.Text

theorem toString_toList (n : Nat) : (toString n).toList = Nat.toDigits 10 n := Nat.toList_repr

theorem toDigits_inj {m n : Nat} (h : Nat.toDigits 10 m = Nat.toDigits 10 n) : m = n := by
  have hm := Nat.ofDigitChars_toDigits (b := 10) (n := m) (by omega) (by omega)
  rw [h, Nat.ofDigitChars_toDigits (by omega) (by omega)] at hm
  exact hm.symm

/-- A digit is an ASCII character and a word character. -/
theorem isAsciiWord_of_isDigit {c : Char} (h : c.isDigit = true) : c.toNat < 128 ∧ isAsciiWord c = true := by
  simp only [Char.isDigit, Bool.and_eq_true, decide_eq_true_eq] at h
  obtain ⟨h1, h2⟩ := h
  have h1' : 48 ≤ c.toNat := h1
  have h2' : c.toNat ≤ 57 := h2
  refine ⟨by omega, ?_⟩
  have hdigit : isAsciiDigit c = true := by
    simp only [isAsciiDigit, Bool.and_eq_true, decide_eq_true_eq]
    exact ⟨h1, h2⟩
  simp [isAsciiWord, hdigit]

/-- An underscore with ASCII word characters behind it is an identifier. -/
theorem isIdentifier_underscore {name : String} {rest : List Char} (hname : name.toList = '_' :: rest)
    (hrest : ∀ c ∈ rest, c.toNat < 128 ∧ isAsciiWord c = true) : isIdentifier name = true := by
  unfold isIdentifier
  rw [hname]
  simp only [Bool.and_eq_true, List.all_eq_true]
  refine ⟨by decide, fun c hc => ?_⟩
  obtain ⟨hlt, hword⟩ := hrest c hc
  rw [isIdentifierPart, if_pos hlt, hword]

theorem asciiWord_digits (n : Nat) : ∀ c ∈ Nat.toDigits 10 n, c.toNat < 128 ∧ isAsciiWord c = true :=
  fun _ hc => isAsciiWord_of_isDigit (Nat.isDigit_of_mem_toDigits (by omega) (by omega) hc)

/-- Two numbers with an underscore between them can be told apart. -/
theorem digits_pair_inj {i j k l : Nat}
    (h : Nat.toDigits 10 i ++ '_' :: Nat.toDigits 10 j = Nat.toDigits 10 k ++ '_' :: Nat.toDigits 10 l) :
    i = k ∧ j = l := by
  have hsplit : ∀ n m : Nat, (Nat.toDigits 10 n ++ '_' :: Nat.toDigits 10 m).takeWhile (· ≠ '_') =
      Nat.toDigits 10 n := by
    intro n m
    rw [List.takeWhile_append_of_pos, List.takeWhile_cons_of_neg (by simp), List.append_nil]
    intro c hc
    have hne : c ≠ '_' := by rintro rfl; exact Nat.underscore_not_in_toDigits hc
    simpa using hne
  have hi := congrArg (List.takeWhile (· ≠ '_')) h
  rw [hsplit, hsplit] at hi
  rw [hi] at h
  exact ⟨toDigits_inj hi, toDigits_inj (List.cons.inj (List.append_cancel_left h)).2⟩

end UrlRouter.Text
