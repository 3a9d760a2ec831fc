/-
Files side by side in one folder.

A folder that holds files only is worked on by name: every operation on one of its files succeeds, or fails because the
file is missing, and leaves a folder that holds files only. A folder that could be made is either there, or nothing can
be found in it.

Results:
- `FileTree.isFolder_of_makeFolders`, `FileTree.makeFolders_of_isFolder`: folders are made once.
- `FileTree.resolve_of_makeFolders`: in a folder that was yet to be made, nothing is found.
- `FileTree.FilesOnly`: a folder that holds files only, and what writing, moving and removing its files does.
-/
import Mathlib.Tactic
import UrlRouter.Proofs.Storage.Files

namespace UrlRouter.FileTree

variable {tree after : FileTree} {location folder : Location} {place : FullName} {part text : String}

/-! ## Making folders -/

theorem resolveFrom_append (here : FullName) (parts rest : List String) :
    tree.resolveFrom here (parts ++ rest) = tree.resolveFrom here parts >>= (tree.resolveFrom · rest) := by
  induction parts generalizing here with
  | nil => rfl
  | cons part parts ih =>
    rw [List.cons_append, resolveFrom, resolveFrom]
    cases tree.find? here with
    | none => rfl
    | some entry =>
      cases entry with
      | file text => rfl
      | folder => exact ih _

theorem resolve_append (root : String) (parts rest : List String) :
    tree.resolve ⟨root, parts ++ rest⟩ = tree.resolve ⟨root, parts⟩ >>= (tree.resolveFrom · rest) :=
  resolveFrom_append _ parts rest

theorem isFolder_iff : tree.isFolder location = true ↔
    ∃ place, tree.resolve location = .ok place ∧ tree.find? place = some .folder := by
  unfold isFolder status?
  cases hplace : tree.resolve location with
  | error fault => simp
  | ok place => simp

/-- Where a longer location leads to a folder, its beginning does. -/
theorem isFolder_of_append {root : String} {parts rest : List String}
    (h : tree.isFolder ⟨root, parts ++ rest⟩ = true) : tree.isFolder ⟨root, parts⟩ = true := by
  cases rest with
  | nil => rwa [List.append_nil] at h
  | cons part rest =>
    obtain ⟨place, hplace, -⟩ := isFolder_iff.1 h
    rw [resolve_append, bind_eq_ok] at hplace
    obtain ⟨here, hhere, hrest⟩ := hplace
    refine isFolder_iff.2 ⟨here, hhere, ?_⟩
    rw [resolveFrom] at hrest
    split at hrest
    · cases hrest
    · cases hrest
    · assumption

theorem isFolder_start (root : String) : tree.isFolder ⟨root, []⟩ = true := by
  refine isFolder_iff.2 ⟨if root.isEmpty then [] else ["/"], rfl, ?_⟩
  split <;> rfl

theorem makeFolder_eq_ok (h : tree.makeFolder location = .ok after) : ∃ name, tree.resolve location = .ok name ∧
    tree.find? name = none ∧ after = tree.put name .folder := by
  obtain ⟨name, hname, h⟩ := bind_eq_ok.1 h
  split at h
  · rename_i hfree
    exact ⟨name, hname, hfree, (Except.ok.inj h).symm⟩
  · cases h

theorem isFolder_of_makeFolder (h : tree.makeFolder location = .ok after) : after.isFolder location = true := by
  obtain ⟨name, hname, hfree, rfl⟩ := makeFolder_eq_ok h
  have hfolder : tree.find? name ≠ some .folder := by
    rw [hfree]
    exact nofun
  refine isFolder_iff.2 ⟨name, resolve_keeps (keeps_put hfolder _) hname, ?_⟩
  rw [find?_put hfolder, if_pos rfl]

theorem isFolder_of_makeFoldersFrom {root : String} {parts rest : List String}
    (h : tree.makeFoldersFrom ⟨root, parts⟩ rest = .ok after) (hparts : tree.isFolder ⟨root, parts⟩ = true) :
    after.isFolder ⟨root, parts ++ rest⟩ = true := by
  induction rest generalizing tree parts with
  | nil =>
    cases h
    rwa [List.append_nil]
  | cons part rest ih =>
    rw [makeFoldersFrom] at h
    rw [List.append_cons]
    split at h
    · exact ih h ‹_›
    · split at h
      · exact ih h (isFolder_of_makeFolder ‹_›)
      · cases h

/-- **A folder that was made** is there. -/
theorem isFolder_of_makeFolders (h : tree.makeFolders folder = .ok after) : after.isFolder folder = true :=
  isFolder_of_makeFoldersFrom h (isFolder_start folder.root)

theorem makeFoldersFrom_of_isFolder {root : String} (parts : List String) {rest : List String}
    (h : tree.isFolder ⟨root, parts ++ rest⟩ = true) : tree.makeFoldersFrom ⟨root, parts⟩ rest = .ok tree := by
  induction rest generalizing parts with
  | nil => rfl
  | cons part rest ih =>
    rw [List.append_cons] at h
    rw [makeFoldersFrom]
    exact (if_pos (isFolder_of_append h)).trans (ih (parts ++ [part]) h)

/-- A folder that is there is not made again. -/
theorem makeFolders_of_isFolder (h : tree.isFolder folder = true) : tree.makeFolders folder = .ok tree :=
  makeFoldersFrom_of_isFolder [] h

theorem resolve_of_makeFoldersFrom {root : String} (parts : List String) {rest further : List String}
    (h : tree.makeFoldersFrom ⟨root, parts⟩ rest = .ok after) (habsent : tree.isFolder ⟨root, parts ++ rest⟩ = false)
    (hparts : tree.isFolder ⟨root, parts⟩ = true) (hfurther : further ≠ []) :
    tree.resolve ⟨root, parts ++ rest ++ further⟩ = .error .notFound := by
  induction rest generalizing parts with
  | nil =>
    rw [List.append_nil, hparts] at habsent
    cases habsent
  | cons part rest ih =>
    rw [makeFoldersFrom] at h
    rw [List.append_cons] at habsent ⊢
    split at h
    · exact ih (parts ++ [part]) h habsent ‹_›
    -- the first folder that is missing: its name is free, so that nothing lies below it
    · split at h
      · rename_i hmade
        obtain ⟨name, hname, hfree, -⟩ := makeFolder_eq_ok hmade
        have hname : tree.resolve ⟨root, parts ++ [part]⟩ = .ok name := hname
        obtain ⟨first, below, hbelow⟩ := List.exists_cons_of_ne_nil
          (List.append_ne_nil_of_right_ne_nil rest hfurther)
        rw [List.append_assoc, resolve_append, hname, hbelow, ok_bind, resolveFrom, hfree]
      · cases h

/-- **In a folder that was yet to be made**, nothing is found. -/
theorem resolve_of_makeFolders (h : tree.makeFolders folder = .ok after) (habsent : tree.isFolder folder = false)
    (part : String) : tree.resolve (folder.entry part) = .error .notFound :=
  resolve_of_makeFoldersFrom [] h habsent (isFolder_start folder.root) (List.cons_ne_nil part [])

/-! ## Listing a folder -/

/-- What is found in a folder is listed. -/
theorem mem_list {entry : FileEntry} (hplace : tree.resolve folder = .ok place) (hpart : part ≠ "/")
    (hfound : tree.find? (place ++ [part]) = some entry) : part ∈ tree.list folder := by
  have hroot : ((place ++ [part]).isEmpty || place ++ [part] = ["/"]) = false := by
    cases place <;> simp [hpart]
  rw [find?, hroot, if_neg Bool.false_ne_true] at hfound
  obtain ⟨before, behind, hsplit, -⟩ := List.lookup_eq_some_iff.1 hfound
  rw [list, hplace]
  refine List.mem_mergeSort.2 (List.mem_filterMap.2 ⟨(place ++ [part], entry), ?_, ?_⟩)
  · rw [hsplit]
    exact List.mem_append_right before List.mem_cons_self
  · simp

/-! ## Folders that hold files only -/

/-- what a file of a folder may be called -/
def IsFileName (part : String) : Prop := part ≠ "/" ∧ part ≠ ".."

/-- The folder leads to that place, and nothing in it is a folder. -/
structure FilesOnly (tree : FileTree) (folder : Location) (place : FullName) : Prop where
  leads : tree.resolve folder = .ok place
  isThere : tree.find? place = some .folder
  -- the root is the one entry that is a folder in every tree
  flat : ∀ part, part ≠ "/" → tree.find? (place ++ [part]) ≠ some .folder

namespace FilesOnly

/-- A folder that was made, and in which nothing is listed. -/
theorem of_makeFolders (h : tree.makeFolders folder = .ok after) (hempty : after.list folder = []) :
    ∃ place, after.FilesOnly folder place ∧ ∀ part, part ≠ "/" → after.find? (place ++ [part]) = none := by
  obtain ⟨place, hplace, hthere⟩ := isFolder_iff.1 (isFolder_of_makeFolders h)
  have hnone : ∀ part, part ≠ "/" → after.find? (place ++ [part]) = none := by
    intro part hpart
    by_contra hfound
    obtain ⟨entry, hentry⟩ := Option.ne_none_iff_exists'.1 hfound
    have hmem := mem_list hplace hpart hentry
    rw [hempty] at hmem
    exact List.not_mem_nil hmem
  refine ⟨place, ⟨hplace, hthere, fun part hpart => ?_⟩, hnone⟩
  rw [hnone part hpart]
  exact nofun

theorem isFolder (h : tree.FilesOnly folder place) : tree.isFolder folder = true :=
  isFolder_iff.2 ⟨place, h.leads, h.isThere⟩

theorem resolve_entry (h : tree.FilesOnly folder place) (hpart : part ≠ "..") :
    tree.resolve (folder.entry part) = .ok (place ++ [part]) := by
  have happend : tree.resolve (folder.entry part) = _ := resolve_append folder.root folder.parts [part]
  have hleads : tree.resolve ⟨folder.root, folder.parts⟩ = .ok place := h.leads
  rw [happend, hleads, ok_bind, resolveFrom, h.isThere, if_neg hpart]
  rfl

theorem status?_entry (h : tree.FilesOnly folder place) (hpart : part ≠ "..") :
    tree.status? (folder.entry part) = tree.find? (place ++ [part]) := by
  rw [status?, h.resolve_entry hpart]

theorem read_entry (h : tree.FilesOnly folder place) (hpart : part ≠ "..")
    (hfound : tree.find? (place ++ [part]) = some (.file text)) : tree.read (folder.entry part) = .ok text :=
  read_eq_ok.2 ⟨place ++ [part], h.resolve_entry hpart, hfound⟩

/-- A change that makes no folder, and that reaches nothing but entries of this one. -/
theorem of_find? (h : tree.FilesOnly folder place) (hchange : ∀ name, after.find? name = tree.find? name ∨
    after.find? name ≠ some .folder ∧ ∃ part, part ≠ "/" ∧ name = place ++ [part]) :
    after.FilesOnly folder place := by
  have hkeeps : tree.Keeps after := by
    intro name hname
    rcases hchange name with hsame | ⟨-, part, hpart, rfl⟩
    · rw [hsame]
      exact hname
    · exact absurd hname (h.flat part hpart)
  refine ⟨resolve_keeps hkeeps h.leads, hkeeps place h.isThere, fun part hpart => ?_⟩
  rcases hchange (place ++ [part]) with hsame | ⟨hfile, -⟩
  · rw [hsame]
    exact h.flat part hpart
  · exact hfile

theorem put_file (h : tree.FilesOnly folder place) (hpart : part ≠ "/") (text : String) :
    (tree.put (place ++ [part]) (.file text)).FilesOnly folder place := by
  refine h.of_find? fun name => ?_
  rw [find?_put (h.flat part hpart)]
  split_ifs with hname
  · exact .inr ⟨nofun, part, hpart, hname⟩
  · exact .inl rfl

theorem drop_file (h : tree.FilesOnly folder place) (hpart : part ≠ "/") :
    (tree.drop (place ++ [part])).FilesOnly folder place := by
  refine h.of_find? fun name => ?_
  rw [find?_drop (h.flat part hpart)]
  split_ifs with hname
  · exact .inr ⟨nofun, part, hpart, hname⟩
  · exact .inl rfl

theorem find?_put_entry (h : tree.FilesOnly folder place) (hpart : part ≠ "/") (text other : String) :
    (tree.put (place ++ [part]) (.file text)).find? (place ++ [other]) =
      if other = part then some (.file text) else tree.find? (place ++ [other]) := by
  rw [find?_put (h.flat part hpart)]
  simp only [List.append_cancel_left_eq, List.cons.injEq, and_true]

theorem find?_drop_entry (h : tree.FilesOnly folder place) (hpart : part ≠ "/") (other : String) :
    (tree.drop (place ++ [part])).find? (place ++ [other]) =
      if other = part then none else tree.find? (place ++ [other]) := by
  rw [find?_drop (h.flat part hpart)]
  simp only [List.append_cancel_left_eq, List.cons.injEq, and_true]

/-- **A file of the folder is written.** -/
theorem write_entry (h : tree.FilesOnly folder place) (hpart : IsFileName part) (text : String) :
    tree.write (folder.entry part) text = .ok (tree.put (place ++ [part]) (.file text)) := by
  have hfree := h.flat part hpart.1
  rw [write, h.resolve_entry hpart.2, ok_bind]
  split
  · exact absurd ‹_› hfree
  · rfl

/-- **A file takes the name of another** of the folder. -/
theorem move_entry (h : tree.FilesOnly folder place) {source target : String} (hsource : IsFileName source)
    (htarget : IsFileName target) (hfound : tree.find? (place ++ [source]) = some (.file text)) :
    tree.move (folder.entry source) (folder.entry target) =
      .ok ((tree.put (place ++ [target]) (.file text)).drop (place ++ [source])) := by
  rw [move, h.read_entry hsource.2 hfound, ok_bind, h.write_entry htarget, ok_bind, h.resolve_entry hsource.2]
  rfl

/-- **A file of the folder is removed**, if there is one of that name. -/
theorem remove_entry (h : tree.FilesOnly folder place) (hpart : IsFileName part) :
    tree.remove (folder.entry part) = if tree.find? (place ++ [part]) = none then .error .notFound
      else .ok (tree.drop (place ++ [part])) := by
  have hfree := h.flat part hpart.1
  rw [remove, h.resolve_entry hpart.2, ok_bind]
  cases hfound : tree.find? (place ++ [part]) with
  | none => rfl
  | some entry =>
    cases entry with
    | file text => rfl
    | folder => exact absurd hfound hfree

end FilesOnly

end UrlRouter.FileTree
