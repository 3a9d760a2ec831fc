/-
What a cache holds after a text was stored.

A text that was stored under a key is what the cache gives for it, in memory and in a store. A file is read with the line
ends of other systems as line feeds, which makes no difference to the text of dispatch data: it holds no control
characters at all.

Results:
- `Json.printable_write`: the text of a value without fractions holds no control characters.
- `plainLineEnds_eq_self`: a file gives a text back as it was exactly when it has no carriage return.
- `Cache.get?_insert`: a text that could be stored is read back, up to line ends.
- `Cache.get?_insert_data`: the text of dispatch data is read back as it was.
-/
import Mathlib.Tactic
import UrlRouter.Cache.Basic
import UrlRouter.Proofs.Dispatch.DataText
import UrlRouter.Proofs.Storage.Files

namespace UrlRouter

/-! ## Texts without control characters -/

namespace Json

/-- no character is a control character -/
def Printable (text : List Char) : Prop := ∀ c ∈ text, 32 ≤ c.toNat

@[simp] theorem printable_nil : Printable [] := fun _ hc => absurd hc List.not_mem_nil

@[simp] theorem printable_cons {c : Char} {text : List Char} : Printable (c :: text) ↔ 32 ≤ c.toNat ∧ Printable text :=
  List.forall_mem_cons

@[simp] theorem printable_append {first rest : List Char} :
    Printable (first ++ rest) ↔ Printable first ∧ Printable rest :=
  List.forall_mem_append

theorem printable_escapeDigit {n : Nat} (h : n < 16) : 32 ≤ (escapeDigit n).toNat := by
  interval_cases n <;> decide

theorem printable_escape {c : Char} (h : 32 ≤ c.toNat) : Printable ['\\', c] := by
  simp only [printable_cons, printable_nil, and_true]
  exact ⟨by decide, h⟩

/-- Control characters are escaped. -/
theorem printable_escapedChar (c : Char) : Printable (escapedChar c) := by
  unfold escapedChar
  split_ifs with hquote hslash hfeed htab hreturn hback hform hcontrol
  · exact printable_escape (by decide)
  · exact printable_escape (by decide)
  · exact printable_escape (by decide)
  · exact printable_escape (by decide)
  · exact printable_escape (by decide)
  · exact printable_escape (by decide)
  · exact printable_escape (by decide)
  · have hhigh := printable_escapeDigit (show c.toNat / 16 < 16 by omega)
    have hlow := printable_escapeDigit (show c.toNat % 16 < 16 by omega)
    simp only [printable_cons, printable_nil, and_true]
    exact ⟨by decide, by decide, by decide, by decide, hhigh, hlow⟩
  · simp only [printable_cons, printable_nil, and_true]
    omega

theorem printable_writeString (text : String) : Printable (writeString text) := by
  have hchars : Printable (writeChars text.toList) := by
    intro c hc
    obtain ⟨original, -, hescaped⟩ := List.mem_flatMap.1 hc
    exact printable_escapedChar original c hescaped
  rw [writeString]
  simp only [printable_cons, printable_append, printable_nil, and_true]
  exact ⟨⟨by decide, hchars⟩, by decide⟩

theorem printable_writeInt (n : Int) : Printable (writeInt n) := by
  have hdigits : Printable (Nat.toDigits 10 n.natAbs) := by
    intro c hc
    have hdigit := isDigit_toDigits n.natAbs c hc
    simp only [isDigit, Bool.and_eq_true, decide_eq_true_eq] at hdigit
    have hlow : '0'.toNat ≤ c.toNat := hdigit.1
    exact le_trans (by decide) hlow
  unfold writeInt
  split_ifs
  · rw [printable_cons]
    exact ⟨by decide, hdigits⟩
  · exact hdigits

theorem printable_writeItems {items : List Json} (h : ∀ item ∈ items, Printable (write item)) :
    Printable (writeItems items) := by
  induction items with
  | nil => simp [writeItems]
  | cons item items ih =>
    obtain ⟨hitem, hitems⟩ := List.forall_mem_cons.1 h
    rw [writeItems]
    simp only [printable_cons, printable_append]
    exact ⟨by decide, hitem, ih hitems⟩

theorem printable_writeFields {fields : List (String × Json)} (h : ∀ field ∈ fields, Printable (write field.2)) :
    Printable (writeFields fields) := by
  induction fields with
  | nil => simp [writeFields]
  | cons field fields ih =>
    obtain ⟨key, value⟩ := field
    obtain ⟨hvalue, hfields⟩ := List.forall_mem_cons.1 h
    rw [writeFields]
    simp only [printable_cons, printable_append]
    exact ⟨by decide, printable_writeString key, by decide, hvalue, ih hfields⟩

/-- **The text of a value without fractions** holds no control characters. -/
theorem printable_write {value : Json} (h : value.Fractionless) : Printable (write value) := by
  induction h with
  | null => simp [write]
  | bool b => cases b <;> simp [write]
  | int n => exact printable_writeInt n
  | string text => exact printable_writeString text
  | @array items _ ih =>
    cases items with
    | nil => simp [write]
    | cons item items =>
      obtain ⟨hitem, hitems⟩ := List.forall_mem_cons.1 ih
      rw [write]
      simp only [printable_cons, printable_append]
      exact ⟨by decide, hitem, printable_writeItems hitems⟩
  | @object fields _ ih =>
    cases fields with
    | nil => simp [write]
    | cons field fields =>
      obtain ⟨key, value⟩ := field
      obtain ⟨hvalue, hfields⟩ := List.forall_mem_cons.1 ih
      rw [write]
      simp only [printable_cons, printable_append]
      exact ⟨by decide, printable_writeString key, by decide, hvalue, printable_writeFields hfields⟩

end Json

/-! ## Line ends -/

theorem return_not_mem_plainLineEnds (text : List Char) : '\r' ∉ plainLineEnds text := by
  fun_induction plainLineEnds text with
  | case1 => exact List.not_mem_nil
  | case2 rest ih => exact List.not_mem_cons_of_ne_of_not_mem (by decide) ih
  | case3 rest hnext ih => exact List.not_mem_cons_of_ne_of_not_mem (by decide) ih
  | case4 c rest hboth hreturn ih => exact List.not_mem_cons_of_ne_of_not_mem (fun h => hreturn h.symm) ih

/-- **A text is read as it was written** exactly when it has no carriage return. -/
theorem plainLineEnds_eq_self {text : List Char} : plainLineEnds text = text ↔ '\r' ∉ text := by
  constructor
  · intro h
    rw [← h]
    exact return_not_mem_plainLineEnds text
  · intro h
    fun_induction plainLineEnds text with
    | case1 => rfl
    | case2 rest ih => exact absurd List.mem_cons_self h
    | case3 rest hnext ih => exact absurd List.mem_cons_self h
    | case4 c rest hboth hreturn ih => rw [ih fun hmem => h (List.mem_cons_of_mem c hmem)]

/-- A text without control characters has no line ends that could be changed. -/
theorem plainLineEnds_of_printable {text : List Char} (h : Json.Printable text) : plainLineEnds text = text :=
  plainLineEnds_eq_self.2 fun hmem => absurd (h _ hmem) (by decide)

/-! ## Storing and reading -/

namespace Cache

/-- a text as the cache gives it back -/
def readBack (cache : Cache) (text : String) : String :=
  match cache with
  | .file _ => String.ofList (plainLineEnds text.toList)
  | _ => text

theorem writeFile_eq_ok {files after : FileTree} {folder : Location} {key text : String}
    (h : writeFile files folder key text = (after, .ok ())) : after.read (fileOf folder key) = .ok text := by
  unfold writeFile at h
  split at h
  · cases h
  dsimp only at h
  split at h
  · cases h
  rename_i hdrafted
  split at h
  · cases h
  rename_i hmoved
  cases h
  have hname : ∀ suffix : String, 2 < suffix.length → Digest.md5Hex key ++ suffix ≠ ".." := by
    intro suffix hsuffix heq
    have hlength := congrArg String.length heq
    rw [String.length_append] at hlength
    have htwo : "..".length = 2 := rfl
    omega
  apply FileTree.read_of_moved (hname ".tmp" (by decide)) (hname cacheSuffix (by decide)) ?_ hdrafted hmoved
  intro heq
  have hsuffix := congrArg String.toList heq
  rw [String.toList_append, String.toList_append] at hsuffix
  exact absurd (List.append_cancel_left hsuffix) (by decide)

/-- **A text that could be stored is read back**, up to line ends where it is kept in a file. -/
theorem get?_insert {cache : Cache} {files : FileTree} {key text : String}
    (h : (cache.insert files key text).result = .ok ()) :
    (cache.insert files key text).cache.get? (cache.insert files key text).files key =
      .ok (some (cache.readBack text)) := by
  cases cache with
  | memory entries =>
    have hlookup := lookup_insertValue key key text entries
    rw [if_pos rfl] at hlookup
    exact congrArg Except.ok hlookup
  | file folder =>
    rw [insert] at h ⊢
    rcases hwritten : writeFile files folder key text with ⟨after, result⟩
    rw [hwritten] at h
    obtain rfl : result = .ok () := h
    have hread := writeFile_eq_ok hwritten
    simp [get?, FileTree.status?_of_read hread, hread, readBack]
  | remote keyPrefix lifetime store =>
    rw [insert] at h ⊢
    cases hrefusal : store.refusal with
    | some reason =>
      rw [hrefusal] at h
      cases h
    | none =>
      have hlookup := lookup_insertValue (keyPrefix ++ key) (keyPrefix ++ key) text store.data
      rw [if_pos rfl] at hlookup
      simp [get?, asking, hlookup, readBack]

/-- **The text of dispatch data** is read back as it was. -/
theorem get?_insert_data {cache : Cache} {files : FileTree} {key : String} {data : DispatchData}
    (h : (cache.insert files key data.text).result = .ok ()) :
    (cache.insert files key data.text).cache.get? (cache.insert files key data.text).files key =
      .ok (some data.text) := by
  rw [get?_insert h]
  cases cache with
  | memory entries => rfl
  | remote keyPrefix lifetime store => rfl
  | file folder =>
    have hplain := plainLineEnds_of_printable (Json.printable_write (fractionless_data data))
    show Except.ok (some (String.ofList (plainLineEnds (String.ofList data.toJson.write).toList))) = _
    rw [String.toList_ofList, hplain]
    rfl

end Cache

end UrlRouter
