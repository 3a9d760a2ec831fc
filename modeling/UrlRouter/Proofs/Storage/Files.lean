/-
What a file holds after it was written.

An operation on files changes one entry, and never one that is a folder. So every location that led somewhere leads to
the same place afterwards, and the text of a file is the one that was written there last.

Results:
- `FileTree.find?_put`, `FileTree.find?_drop`: one entry changes.
- `FileTree.resolveFrom_keeps`: where the folders stay, locations lead to the same names.
- `FileTree.read_of_moved`: a text that was written beside a file and moved there is what the file holds.
-/
import Mathlib.Tactic
import UrlRouter.Mapping
import UrlRouter.Proofs.Except
import UrlRouter.Storage.FileTree

namespace UrlRouter.FileTree

variable {tree after : FileTree} {name : FullName} {location : Location} {text : String}

/-! ## Entries -/

theorem find?_put (hname : tree.find? name ≠ some .folder) (entry : FileEntry) (other : FullName) :
    (tree.put name entry).find? other = if other = name then some entry else tree.find? other := by
  unfold find? at hname ⊢
  by_cases hother : (other.isEmpty || other = ["/"]) = true
  · -- the roots are folders, so that the name is none of them
    have hne : other ≠ name := by
      rintro rfl
      rw [if_pos hother] at hname
      exact hname rfl
    rw [if_pos hother, if_pos hother, if_neg hne]
  · rw [if_neg hother, if_neg hother]
    simp only [put, List.lookup_cons, lookup_filter_ne]
    by_cases h : other = name
    · simp [h]
    · have hb : (other == name) = false := beq_eq_false_iff_ne.2 h
      simp [hb, h]

theorem find?_drop (hname : tree.find? name ≠ some .folder) (other : FullName) :
    (tree.drop name).find? other = if other = name then none else tree.find? other := by
  unfold find? at hname ⊢
  by_cases hother : (other.isEmpty || other = ["/"]) = true
  · have hne : other ≠ name := by
      rintro rfl
      rw [if_pos hother] at hname
      exact hname rfl
    rw [if_pos hother, if_pos hother, if_neg hne]
  · rw [if_neg hother, if_neg hother]
    exact lookup_filter_ne name other tree.entries

/-! ## Names of locations -/

/-- what is a folder stays one -/
def Keeps (tree after : FileTree) : Prop := ∀ name, tree.find? name = some .folder → after.find? name = some .folder

theorem keeps_put (hname : tree.find? name ≠ some .folder) (entry : FileEntry) : tree.Keeps (tree.put name entry) := by
  intro other hother
  have hne : other ≠ name := fun heq => hname (heq ▸ hother)
  rw [find?_put hname, if_neg hne]
  exact hother

theorem keeps_drop (hname : tree.find? name ≠ some .folder) : tree.Keeps (tree.drop name) := by
  intro other hother
  have hne : other ≠ name := fun heq => hname (heq ▸ hother)
  rw [find?_drop hname, if_neg hne]
  exact hother

/-- **Where the folders stay**, locations lead to the same names. -/
theorem resolveFrom_keeps (h : tree.Keeps after) {here : FullName} {parts : List String}
    (hname : tree.resolveFrom here parts = .ok name) : after.resolveFrom here parts = .ok name := by
  induction parts generalizing here with
  | nil => exact hname
  | cons part parts ih =>
    rw [resolveFrom] at hname ⊢
    split at hname
    · cases hname
    · cases hname
    · rename_i hfolder
      rw [h here hfolder]
      exact ih hname

theorem resolve_keeps (h : tree.Keeps after) (hname : tree.resolve location = .ok name) :
    after.resolve location = .ok name :=
  resolveFrom_keeps h hname

theorem resolveFrom_concat {here : FullName} {parts : List String} {part : String} (hpart : part ≠ "..")
    (hname : tree.resolveFrom here (parts ++ [part]) = .ok name) : ∃ folder, name = folder ++ [part] ∧
      tree.resolveFrom here parts = .ok folder := by
  induction parts generalizing here with
  | nil =>
    rw [List.nil_append, resolveFrom] at hname
    split at hname
    · cases hname
    · cases hname
    · rw [if_neg hpart, resolveFrom] at hname
      exact ⟨here, (Except.ok.inj hname).symm, rfl⟩
  | cons first parts ih =>
    rw [List.cons_append, resolveFrom] at hname
    rw [resolveFrom]
    split at hname
    · cases hname
    · cases hname
    · exact ih hname

/-- Entries of one folder lie side by side. -/
theorem resolve_entry {folder : Location} {part : String} (hpart : part ≠ "..")
    (hname : tree.resolve (folder.entry part) = .ok name) :
    ∃ place, name = place ++ [part] ∧ tree.resolve folder = .ok place :=
  resolveFrom_concat hpart hname

/-! ## Reading and writing -/

theorem read_eq_ok : tree.read location = .ok text ↔
    ∃ name, tree.resolve location = .ok name ∧ tree.find? name = some (.file text) := by
  unfold read
  rw [bind_eq_ok]
  constructor
  · rintro ⟨name, hname, h⟩
    split at h
    · cases h
    · cases h
    · rename_i found hfound
      cases h
      exact ⟨name, hname, hfound⟩
  · rintro ⟨name, hname, hfound⟩
    refine ⟨name, hname, ?_⟩
    rw [hfound]
    rfl

theorem status?_of_read (h : tree.read location = .ok text) : tree.status? location = some (.file text) := by
  obtain ⟨name, hname, hfound⟩ := read_eq_ok.1 h
  rw [status?, hname]
  exact hfound

theorem write_eq_ok (h : tree.write location text = .ok after) : ∃ name, tree.resolve location = .ok name ∧
    tree.find? name ≠ some .folder ∧ after = tree.put name (.file text) := by
  obtain ⟨name, hname, h⟩ := bind_eq_ok.1 h
  split at h
  · cases h
  · rename_i hfound
    exact ⟨name, hname, hfound, (Except.ok.inj h).symm⟩

theorem move_eq_ok {source target : Location} (h : tree.move source target = .ok after) : ∃ text written name,
    tree.read source = .ok text ∧ tree.write target text = .ok written ∧ tree.resolve source = .ok name ∧
      after = written.drop name := by
  obtain ⟨text, hread, h⟩ := bind_eq_ok.1 h
  obtain ⟨written, hwritten, h⟩ := bind_eq_ok.1 h
  obtain ⟨name, hname, h⟩ := bind_eq_ok.1 h
  exact ⟨text, written, name, hread, hwritten, hname, (Except.ok.inj h).symm⟩

/-- **A text that was written beside a file and moved there** is what the file holds. -/
theorem read_of_moved {written : FileTree} {folder : Location} {draft place : String} (hdraft : draft ≠ "..")
    (hplace : place ≠ "..") (hne : draft ≠ place) (hwritten : tree.write (folder.entry draft) text = .ok written)
    (hafter : written.move (folder.entry draft) (folder.entry place) = .ok after) :
    after.read (folder.entry place) = .ok text := by
  obtain ⟨source, hsource, hfree, rfl⟩ := write_eq_ok hwritten
  obtain ⟨found, moved, name, hread, hmoved, hname, rfl⟩ := move_eq_ok hafter
  obtain ⟨target, htarget, hfree', rfl⟩ := write_eq_ok hmoved
  -- the draft holds the text
  obtain rfl : source = name := Except.ok.inj ((resolve_keeps (keeps_put hfree _) hsource).symm.trans hname)
  have htext : found = text := by
    obtain ⟨other, hother, hfound⟩ := read_eq_ok.1 hread
    obtain rfl : source = other := Except.ok.inj (hname.symm.trans hother)
    rw [find?_put hfree, if_pos rfl] at hfound
    cases hfound
    rfl
  subst htext
  -- and the file is another one
  have hapart : target ≠ source := by
    obtain ⟨here, rfl, -⟩ := resolve_entry hdraft hsource
    obtain ⟨there, rfl, -⟩ := resolve_entry hplace htarget
    intro heq
    have hlast := congrArg List.getLast? heq
    rw [List.getLast?_concat, List.getLast?_concat] at hlast
    exact hne (Option.some.inj hlast).symm
  have hfile : ((tree.put source (.file found)).put target (.file found)).find? source ≠ some .folder := by
    rw [find?_put hfree', if_neg hapart.symm, find?_put hfree, if_pos rfl]
    intro h
    cases h
  apply read_eq_ok.2
  refine ⟨target, resolve_keeps (keeps_drop hfile) (resolve_keeps (keeps_put hfree' _) htarget), ?_⟩
  rw [find?_drop hfile, if_neg hapart, find?_put hfree', if_pos rfl]

end UrlRouter.FileTree
