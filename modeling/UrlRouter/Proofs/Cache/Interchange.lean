/-
One map behind every kind of cache.

Held against a plain map from keys to texts, a cache in memory and one in a store answer every sequence of calls as the
map does. The files of a folder do so up to line ends: a text with a carriage return comes back changed, and no other.

Results:
- `Cache.FolderHolds`: what a folder holds of the keys in use, and what writing, removing and clearing make of it.
- `CacheState.step_follows`: one call is answered by what the map holds, and the cache holds the new map.
- `CacheState.run_follows`: so is a sequence of calls.
- `backends_answer_alike`: the three kinds of cache against the plain map.
-/
import Mathlib.Tactic
import UrlRouter.Cache.Calls
import UrlRouter.Proofs.Cache.Stored
import UrlRouter.Proofs.Storage.Folders

namespace UrlRouter

open FileTree (FilesOnly IsFileName)

/-! ## Plain maps -/

/-- a text for some of the keys -/
abbrev PlainMap := String → Option String

namespace PlainMap

def empty : PlainMap := fun _ => none

def step (held : PlainMap) : CacheCall → PlainMap × CacheReply
  | .get key => (held, .value (held key))
  | .set key value => (Function.update held key (some value), .done)
  | .has key => (held, .presence (held key).isSome)
  | .delete key => (Function.update held key none, .done)
  | .clear => (empty, .done)

/-- the replies to calls made one after the other -/
def run (held : PlainMap) : List CacheCall → List CacheReply
  | [] => []
  | call :: rest => (held.step call).2 :: (held.step call).1.run rest

end PlainMap

def CacheCall.key? : CacheCall → Option String
  | get key | set key _ | has key | delete key => some key
  | clear => none

def keysOf (calls : List CacheCall) : List String := calls.filterMap CacheCall.key?

/-- a reply with another text in it -/
def CacheReply.mapText (f : String → String) : CacheReply → CacheReply
  | value text => value (text.map f)
  | reply => reply

namespace Cache

variable {files made : FileTree} {folder : Location} {place : FullName} {key value : String} {held : PlainMap}
  {keys : Set String}

/-! ## Texts as they are given back -/

@[simp] theorem readBack_memory (entries : Mapping String) : (memory entries).readBack = id := rfl

@[simp] theorem readBack_remote (keyPrefix : String) (lifetime : Option Int) (store : RemoteStore) :
    (remote keyPrefix lifetime store).readBack = id := rfl

theorem readBack_file_eq_self {folder : Location} {text : String} :
    (file folder).readBack text = text ↔ '\r' ∉ text.toList := by
  rw [readBack, ← plainLineEnds_eq_self, ← String.toList_inj, String.toList_ofList]

/-! ## The files of a folder -/

/-- the name of the file of a key -/
def fileName (key : String) : String := Digest.md5Hex key ++ cacheSuffix

def draftName (key : String) : String := Digest.md5Hex key ++ ".tmp"

theorem isFileName_of_length {part : String} (h : 2 < part.length) : IsFileName part := by
  constructor
  · rintro rfl
    exact absurd h (by decide)
  · rintro rfl
    exact absurd h (by decide)

theorem isFileName_fileName (key : String) : IsFileName (fileName key) := by
  apply isFileName_of_length
  have hsuffix : cacheSuffix.length = 5 := rfl
  rw [fileName, String.length_append, hsuffix]
  omega

theorem isFileName_draftName (key : String) : IsFileName (draftName key) := by
  apply isFileName_of_length
  have hsuffix : ".tmp".length = 4 := rfl
  rw [draftName, String.length_append, hsuffix]
  omega

/-- A draft is never the file of a key. -/
theorem draftName_ne_fileName (key other : String) : draftName key ≠ fileName other := by
  intro h
  have hdraft : ".tmp".toList.getLast? = some 'p' := rfl
  have hfile : cacheSuffix.toList.getLast? = some 'n' := rfl
  have hlast := congrArg (fun text : String => text.toList.getLast?) h
  simp only [draftName, fileName, String.toList_append, List.getLast?_append, hdraft, hfile, Option.some_or] at hlast
  exact absurd (Option.some.inj hlast) (by decide)

theorem fileName_inj (hdigest : Set.InjOn Digest.md5Hex keys) {other : String} (hkey : key ∈ keys)
    (hother : other ∈ keys) (h : fileName key = fileName other) : key = other := by
  apply hdigest hkey hother
  have htext := congrArg String.toList h
  rw [fileName, fileName, String.toList_append, String.toList_append] at htext
  exact String.toList_injective (List.append_cancel_right htext)

theorem endsWith_iff {part suffix : String} : part.endsWith suffix = true ↔ suffix.toList <:+ part.toList := by
  rw [String.endsWith_eq_endsWith_toSlice, String.Slice.endsWith_string_iff, String.copy_toSlice]

theorem endsWith_fileName (key : String) : (fileName key).endsWith cacheSuffix = true := by
  rw [endsWith_iff, fileName, String.toList_append]
  exact List.suffix_append _ _

theorem isFileName_of_endsWith {part : String} (h : part.endsWith cacheSuffix = true) : IsFileName part := by
  apply isFileName_of_length
  have hlength := (endsWith_iff.1 h).length_le
  have hsuffix : cacheSuffix.toList.length = 5 := rfl
  rw [← String.length_toList]
  omega

/-! ## Writing and removing -/

/-- **The text of a key is written** where the folder holds files only. -/
theorem writeFile_filesOnly (hmade : files.makeFolders folder = .ok made) (h : made.FilesOnly folder place)
    (key value : String) : ∃ after, writeFile files folder key value = (after, .ok ()) ∧
      after.FilesOnly folder place ∧ ∀ part, after.find? (place ++ [part]) =
        if part = draftName key then none
        else if part = fileName key then some (.file value) else made.find? (place ++ [part]) := by
  have hdraft := isFileName_draftName key
  have hfile := isFileName_fileName key
  have hdrafted := h.put_file hdraft.1 value
  have hfound : (made.put (place ++ [draftName key]) (.file value)).find? (place ++ [draftName key]) =
      some (.file value) := by
    rw [h.find?_put_entry hdraft.1, if_pos rfl]
  have hmoved := hdrafted.put_file hfile.1 value
  refine ⟨_, ?_, hmoved.drop_file hdraft.1, fun part => ?_⟩
  · rw [writeFile, hmade]
    dsimp only
    rw [show draftOf folder key = folder.entry (draftName key) from rfl,
      show fileOf folder key = folder.entry (fileName key) from rfl, h.write_entry hdraft]
    dsimp only
    rw [hdrafted.move_entry hdraft hfile hfound]
  · rw [hmoved.find?_drop_entry hdraft.1, hdrafted.find?_put_entry hfile.1, h.find?_put_entry hdraft.1]
    split_ifs <;> rfl

/-- **A file is removed**, whether it is there or not. -/
theorem removeFile_filesOnly (h : files.FilesOnly folder place) {part : String} (hpart : IsFileName part) :
    ∃ after, removeFile files (folder.entry part) = (after, .ok ()) ∧ after.FilesOnly folder place ∧
      ∀ other, after.find? (place ++ [other]) =
        if other = part then none else files.find? (place ++ [other]) := by
  rw [removeFile, h.remove_entry hpart]
  by_cases hnone : files.find? (place ++ [part]) = none
  · rw [if_pos hnone]
    refine ⟨files, rfl, h, fun other => ?_⟩
    split_ifs with hother
    · rw [hother, hnone]
    · rfl
  · rw [if_neg hnone]
    exact ⟨_, rfl, h.drop_file hpart.1, h.find?_drop_entry hpart.1⟩

theorem removeFiles_filesOnly (h : files.FilesOnly folder place) {parts : List String}
    (hparts : ∀ part ∈ parts, IsFileName part) :
    ∃ after, removeFiles files (parts.map folder.entry) = (after, .ok ()) ∧ after.FilesOnly folder place ∧
      ∀ other, after.find? (place ++ [other]) =
        if other ∈ parts then none else files.find? (place ++ [other]) := by
  induction parts generalizing files with
  | nil => exact ⟨files, rfl, h, fun other => (if_neg List.not_mem_nil).symm⟩
  | cons part parts ih =>
    obtain ⟨hpart, hparts⟩ := List.forall_mem_cons.1 hparts
    obtain ⟨between, hremoved, hbetween, hfound⟩ := removeFile_filesOnly h hpart
    obtain ⟨after, hrest, hafter, hfound'⟩ := ih hbetween hparts
    refine ⟨after, ?_, hafter, fun other => ?_⟩
    · rw [List.map_cons, removeFiles, hremoved]
      exact hrest
    · rw [hfound', hfound]
      by_cases hlast : other ∈ parts
      · rw [if_pos hlast, if_pos (List.mem_cons_of_mem part hlast)]
      · simp only [List.mem_cons, hlast, or_false, if_false]

/-! ## What a folder holds -/

/-- **The files of a folder are those of a map**, or the folder is yet to be made and the map is empty. -/
inductive FolderHolds (keys : Set String) (held : PlainMap) (files : FileTree) (folder : Location) : Prop
  | present (place : FullName) (filesOnly : files.FilesOnly folder place)
      (found : ∀ key ∈ keys, files.find? (place ++ [fileName key]) = (held key).map .file)
  | absent (made : FileTree) (makes : files.makeFolders folder = .ok made) (missing : files.isFolder folder = false)
      (unused : made.list folder = []) (nothing : held = .empty)

theorem folderHolds_empty (hmade : files.makeFolders folder = .ok made) (hempty : made.list folder = []) :
    FolderHolds keys .empty files folder := by
  cases hfolder : files.isFolder folder with
  | false => exact .absent made hmade hfolder hempty rfl
  | true =>
    obtain rfl : files = made := Except.ok.inj ((FileTree.makeFolders_of_isFolder hfolder).symm.trans hmade)
    obtain ⟨place, hplace, hnone⟩ := FilesOnly.of_makeFolders hmade hempty
    exact .present place hplace fun key _ => hnone _ (isFileName_fileName key).1

/-- The folder as the next text finds it. -/
theorem exists_made (h : FolderHolds keys held files folder) : ∃ made place,
    files.makeFolders folder = .ok made ∧ made.FilesOnly folder place ∧
      ∀ key ∈ keys, made.find? (place ++ [fileName key]) = (held key).map .file := by
  cases h with
  | present place hplace hfound =>
    exact ⟨files, place, FileTree.makeFolders_of_isFolder hplace.isFolder, hplace, hfound⟩
  | absent made hmade _ hempty hnothing =>
    obtain ⟨place, hplace, hnone⟩ := FilesOnly.of_makeFolders hmade hempty
    refine ⟨made, place, hmade, hplace, fun key _ => ?_⟩
    rw [hnone _ (isFileName_fileName key).1, hnothing]
    rfl

theorem status?_fileOf (h : FolderHolds keys held files folder) (hkey : key ∈ keys) :
    files.status? (fileOf folder key) = (held key).map .file := by
  cases h with
  | present place hplace hfound => exact (hplace.status?_entry (isFileName_fileName key).2).trans (hfound key hkey)
  | absent made hmade hfolder _ hnothing =>
    rw [FileTree.status?, fileOf, FileTree.resolve_of_makeFolders hmade hfolder, hnothing]
    rfl

theorem read_fileOf (h : FolderHolds keys held files folder) (hkey : key ∈ keys) (hvalue : held key = some value) :
    files.read (fileOf folder key) = .ok value := by
  cases h with
  | present place hplace hfound =>
    refine hplace.read_entry (isFileName_fileName key).2 ((hfound key hkey).trans ?_)
    rw [hvalue]
    rfl
  | absent made _ _ _ hnothing =>
    rw [hnothing] at hvalue
    cases hvalue

/-- Where the file of one key changes, so does the text of that key alone. -/
theorem found_update {before after : FileTree} {value : Option String} (hdigest : Set.InjOn Digest.md5Hex keys)
    (hkey : key ∈ keys)
    (hfound : ∀ other ∈ keys, before.find? (place ++ [fileName other]) = (held other).map .file)
    (hchange : ∀ other, after.find? (place ++ [fileName other]) =
      if fileName other = fileName key then value.map .file else before.find? (place ++ [fileName other])) :
    ∀ other ∈ keys, after.find? (place ++ [fileName other]) = (Function.update held key value other).map .file := by
  intro other hother
  rw [hchange, Function.update_apply]
  by_cases heq : other = key
  · rw [if_pos heq, if_pos (congrArg fileName heq)]
  · rw [if_neg heq, if_neg fun h => heq (fileName_inj hdigest hother hkey h), hfound other hother]

theorem writeFile_holds (h : FolderHolds keys held files folder) (hdigest : Set.InjOn Digest.md5Hex keys)
    (hkey : key ∈ keys) (value : String) : ∃ after, writeFile files folder key value = (after, .ok ()) ∧
      FolderHolds keys (Function.update held key (some value)) after folder := by
  obtain ⟨made, place, hmade, hplace, hfound⟩ := exists_made h
  obtain ⟨after, hwritten, hafter, hnow⟩ := writeFile_filesOnly hmade hplace key value
  refine ⟨after, hwritten, .present place hafter (found_update hdigest hkey hfound fun other => ?_)⟩
  rw [hnow, if_neg (draftName_ne_fileName key other).symm]
  rfl

theorem removeFile_holds (h : FolderHolds keys held files folder) (hdigest : Set.InjOn Digest.md5Hex keys)
    (hkey : key ∈ keys) : ∃ after, removeFile files (fileOf folder key) = (after, .ok ()) ∧
      FolderHolds keys (Function.update held key none) after folder := by
  cases h with
  | present place hplace hfound =>
    obtain ⟨after, hremoved, hafter, hnow⟩ := removeFile_filesOnly hplace (isFileName_fileName key)
    exact ⟨after, hremoved, .present place hafter (found_update hdigest hkey hfound fun other => hnow _)⟩
  | absent made hmade hfolder hempty hnothing =>
    refine ⟨files, ?_, .absent made hmade hfolder hempty ?_⟩
    · rw [removeFile, FileTree.remove, fileOf, FileTree.resolve_of_makeFolders hmade hfolder]
      rfl
    · rw [hnothing]
      exact Function.update_eq_self key PlainMap.empty

/-- **Every file of the cache goes** when the folder is cleared. -/
theorem clear_holds (h : FolderHolds keys held files folder) : ∃ after,
    (file folder).clear files = { cache := file folder, files := after } ∧ FolderHolds keys .empty after folder := by
  cases h with
  | present place hplace hfound =>
    have hparts : ∀ part ∈ (files.list folder).filter (·.endsWith cacheSuffix), IsFileName part := fun part hpart =>
      isFileName_of_endsWith (List.mem_filter.1 hpart).2
    obtain ⟨after, hremoved, hafter, hnow⟩ := removeFiles_filesOnly hplace hparts
    refine ⟨after, ?_, .present place hafter fun key _ => ?_⟩
    · rw [clear, if_pos hplace.isFolder, hremoved]
    · rw [hnow]
      split_ifs with hlisted
      · rfl
      · -- what is not listed was not there before either
        by_contra hthere
        obtain ⟨entry, hentry⟩ := Option.ne_none_iff_exists'.1 hthere
        have hmem := FileTree.mem_list hplace.leads (isFileName_fileName key).1 hentry
        exact hlisted (List.mem_filter.2 ⟨hmem, endsWith_fileName key⟩)
  | absent made hmade hfolder hempty hnothing =>
    refine ⟨files, ?_, .absent made hmade hfolder hempty rfl⟩
    rw [clear, hfolder]
    rfl

end Cache

/-! ## One call and a sequence of calls -/

namespace CacheState

variable {keys : Set String} {held : PlainMap} {state : CacheState} {files : FileTree}

/-- **The cache holds the texts of the map.** -/
inductive Holds (keys : Set String) (held : PlainMap) : CacheState → Prop
  | memory (entries : Mapping String) (files : FileTree) (found : ∀ key, entries.lookup key = held key) :
    Holds keys held ⟨.memory entries, files⟩
  | file (folder : Location) (files : FileTree) (found : Cache.FolderHolds keys held files folder) :
    Holds keys held ⟨.file folder, files⟩
  | remote (keyPrefix : String) (lifetime : Option Int) (store : RemoteStore) (files : FileTree)
    (willing : store.refusal = none) (found : ∀ key, store.data.lookup (keyPrefix ++ key) = held key) :
    Holds keys held ⟨.remote keyPrefix lifetime store, files⟩

/-- the call is answered by what the map holds, and the cache holds what the map does afterwards -/
structure Follows (keys : Set String) (held : PlainMap) (state : CacheState) (call : CacheCall) : Prop where
  reply : (state.step call).2 = (held.step call).2.mapText state.cache.readBack
  holds : Holds keys (held.step call).1 (state.step call).1

theorem follows_memory {entries : Mapping String} (h : ∀ key, entries.lookup key = held key) (call : CacheCall) :
    Follows keys held ⟨.memory entries, files⟩ call := by
  cases call with
  | get key =>
    refine ⟨?_, .memory entries files h⟩
    simp [step, Cache.get?, h, PlainMap.step, CacheReply.mapText]
  | has key =>
    refine ⟨?_, .memory entries files h⟩
    simp [step, Cache.contains, h, PlainMap.step, CacheReply.mapText]
  | set key value =>
    refine ⟨rfl, .memory (insertValue key value entries) files fun other => ?_⟩
    rw [lookup_insertValue, h other]
    exact (Function.update_apply held key (some value) other).symm
  | delete key =>
    refine ⟨rfl, .memory (eraseValue key entries) files fun other => ?_⟩
    rw [lookup_eraseValue, h other]
    exact (Function.update_apply held key none other).symm
  | clear => exact ⟨rfl, .memory [] files fun _ => rfl⟩

/-- Keys stay apart behind a prefix. -/
theorem append_key_inj (keyPrefix key other : String) : keyPrefix ++ other = keyPrefix ++ key ↔ other = key := by
  rw [← String.toList_inj, String.toList_append, String.toList_append, List.append_cancel_left_eq, String.toList_inj]

theorem lookup_cleared (keyPrefix key : String) (data : Mapping String) :
    (data.filter fun (name, _) => !name.startsWith keyPrefix).lookup (keyPrefix ++ key) = none := by
  rw [List.lookup_eq_none_iff]
  rintro ⟨name, value⟩ hentry
  have hname : (!name.startsWith keyPrefix) = true := (List.mem_filter.1 hentry).2
  rw [bne_iff_ne]
  rintro rfl
  have hstarts : (keyPrefix ++ key).startsWith keyPrefix = true := by
    rw [String.startsWith_string_iff, String.toList_append]
    exact List.prefix_append _ _
  rw [hstarts] at hname
  cases hname

theorem follows_remote {keyPrefix : String} {lifetime : Option Int} {store : RemoteStore}
    (hwilling : store.refusal = none) (h : ∀ key, store.data.lookup (keyPrefix ++ key) = held key) (call : CacheCall) :
    Follows keys held ⟨.remote keyPrefix lifetime store, files⟩ call := by
  obtain ⟨data, lifetimes, refusal⟩ := store
  obtain rfl : refusal = none := hwilling
  cases call with
  | get key =>
    refine ⟨?_, .remote keyPrefix lifetime _ files rfl h⟩
    simp [step, Cache.get?, Cache.asking, h, PlainMap.step, CacheReply.mapText]
  | has key =>
    refine ⟨?_, .remote keyPrefix lifetime _ files rfl h⟩
    simp [step, Cache.contains, Cache.asking, h, PlainMap.step, CacheReply.mapText]
  | set key value =>
    refine ⟨rfl, .remote keyPrefix lifetime _ files rfl fun other => ?_⟩
    simp only [lookup_insertValue, append_key_inj, h other]
    exact (Function.update_apply held key (some value) other).symm
  | delete key =>
    refine ⟨rfl, .remote keyPrefix lifetime _ files rfl fun other => ?_⟩
    simp only [lookup_eraseValue, append_key_inj, h other]
    exact (Function.update_apply held key none other).symm
  | clear => exact ⟨rfl, .remote keyPrefix lifetime _ files rfl fun other => lookup_cleared keyPrefix other data⟩

theorem follows_file {folder : Location} (h : Cache.FolderHolds keys held files folder)
    (hdigest : Set.InjOn Digest.md5Hex keys) {call : CacheCall} (hcall : ∀ key, call.key? = some key → key ∈ keys) :
    Follows keys held ⟨.file folder, files⟩ call := by
  cases call with
  | get key =>
    refine ⟨?_, .file folder files h⟩
    have hstatus := Cache.status?_fileOf h (hcall key rfl)
    cases hvalue : held key with
    | none => simp [step, Cache.get?, hstatus, hvalue, PlainMap.step, CacheReply.mapText]
    | some value =>
      have hread := Cache.read_fileOf h (hcall key rfl) hvalue
      simp [step, Cache.get?, hstatus, hvalue, hread, PlainMap.step, CacheReply.mapText, Cache.readBack]
  | has key =>
    refine ⟨?_, .file folder files h⟩
    have hstatus := Cache.status?_fileOf h (hcall key rfl)
    simp [step, Cache.contains, hstatus, PlainMap.step, CacheReply.mapText]
  | set key value =>
    obtain ⟨after, hwritten, hafter⟩ := Cache.writeFile_holds h hdigest (hcall key rfl) value
    have hstep : (⟨.file folder, files⟩ : CacheState).step (.set key value) = (⟨.file folder, after⟩, .done) := by
      simp only [step, Cache.insert, hwritten, Cache.Outcome.reply]
    exact ⟨congrArg Prod.snd hstep, hstep ▸ .file folder after hafter⟩
  | delete key =>
    obtain ⟨after, hremoved, hafter⟩ := Cache.removeFile_holds h hdigest (hcall key rfl)
    have hstep : (⟨.file folder, files⟩ : CacheState).step (.delete key) = (⟨.file folder, after⟩, .done) := by
      simp only [step, Cache.erase, hremoved, Cache.Outcome.reply]
    exact ⟨congrArg Prod.snd hstep, hstep ▸ .file folder after hafter⟩
  | clear =>
    obtain ⟨after, hcleared, hafter⟩ := Cache.clear_holds h
    have hstep : (⟨.file folder, files⟩ : CacheState).step .clear = (⟨.file folder, after⟩, .done) := by
      simp only [step, hcleared, Cache.Outcome.reply]
    exact ⟨congrArg Prod.snd hstep, hstep ▸ .file folder after hafter⟩

/-- **One call** is answered by what the map holds. -/
theorem step_follows (h : Holds keys held state) (hdigest : Set.InjOn Digest.md5Hex keys) {call : CacheCall}
    (hcall : ∀ key, call.key? = some key → key ∈ keys) : Follows keys held state call := by
  cases h with
  | memory entries files found => exact follows_memory found call
  | file folder files found => exact follows_file found hdigest hcall
  | remote keyPrefix lifetime store files willing found => exact follows_remote willing found call

/-- A cache stays of its kind. -/
theorem readBack_step (state : CacheState) (call : CacheCall) :
    (state.step call).1.cache.readBack = state.cache.readBack := by
  obtain ⟨cache, files⟩ := state
  cases cache with
  | memory entries => cases call <;> rfl
  | file folder =>
    cases call with
    | clear =>
      simp only [step, Cache.clear, Cache.Outcome.reply]
      split_ifs <;> rfl
    | _ => rfl
  | remote keyPrefix lifetime store =>
    obtain ⟨data, lifetimes, refusal⟩ := store
    cases refusal <;> cases call <;> rfl

/-- **A sequence of calls** is answered by what the map holds at each of them. -/
theorem run_follows {calls : List CacheCall} (h : Holds keys held state) (hdigest : Set.InjOn Digest.md5Hex keys)
    (hcalls : ∀ call ∈ calls, ∀ key, call.key? = some key → key ∈ keys) :
    state.run calls = (held.run calls).map (·.mapText state.cache.readBack) := by
  induction calls generalizing state held with
  | nil => rfl
  | cons call calls ih =>
    obtain ⟨hcall, hcalls⟩ := List.forall_mem_cons.1 hcalls
    have hfirst := step_follows h hdigest hcall
    rw [run, PlainMap.run, List.map_cons, hfirst.reply, ih hfirst.holds hcalls, readBack_step]

end CacheState

/-! ## The three kinds of cache -/

@[simp] theorem CacheReply.mapText_id (reply : CacheReply) : reply.mapText id = reply := by
  cases reply <;> simp [mapText]

theorem map_eq_self_iff {α : Type} {f : α → α} {items : List α} :
    items.map f = items ↔ ∀ item ∈ items, f item = item := by
  have h := @List.map_inj_left α α items f id
  rwa [List.map_id] at h

/-- A reply stays as it is where its text does. -/
theorem CacheReply.mapText_eq_self {f : String → String} {reply : CacheReply} :
    reply.mapText f = reply ↔ ∀ text, reply = .value (some text) → f text = text := by
  cases reply with
  | value answer => cases answer <;> simp [mapText]
  | done => simp [mapText]
  | presence present => simp [mapText]
  | failed error => simp [mapText]

/-- **The kinds of cache answer alike.** Whatever is called, a cache in memory and one over an empty store give the
replies of a plain map. A cache in an empty folder, or in one that is yet to be made, gives them with plain line ends,
if no two of the keys have the same digest; these are the replies of the other two exactly when no text among them has a
carriage return. -/
theorem backends_answer_alike {calls : List CacheCall} {files made : FileTree} {folder : Location}
    (keyPrefix : String) (lifetime : Option Int) (lifetimes : Mapping (Option Int))
    (hdigest : Set.InjOn Digest.md5Hex {key | key ∈ keysOf calls}) (hmade : files.makeFolders folder = .ok made)
    (hempty : made.list folder = []) :
    CacheState.run ⟨.memory [], files⟩ calls = PlainMap.empty.run calls ∧
      CacheState.run ⟨.remote keyPrefix lifetime { lifetimes }, files⟩ calls = PlainMap.empty.run calls ∧
      CacheState.run ⟨.file folder, files⟩ calls =
        (PlainMap.empty.run calls).map (·.mapText (Cache.readBack (.file folder))) ∧
      (CacheState.run ⟨.file folder, files⟩ calls = CacheState.run ⟨.memory [], files⟩ calls ↔
        ∀ text, .value (some text) ∈ PlainMap.empty.run calls → '\r' ∉ text.toList) := by
  have hanswers : ∀ state, CacheState.Holds {key | key ∈ keysOf calls} .empty state →
      state.run calls = (PlainMap.empty.run calls).map (·.mapText state.cache.readBack) := fun state hstate =>
    CacheState.run_follows hstate hdigest fun call hcall key hkey => List.mem_filterMap.2 ⟨call, hcall, hkey⟩
  have hmemory := hanswers _ (.memory [] files fun _ => rfl)
  have hremote := hanswers _ (.remote keyPrefix lifetime { lifetimes } files rfl fun _ => rfl)
  have hfile := hanswers _ (.file folder files (Cache.folderHolds_empty hmade hempty))
  simp only [Cache.readBack_memory, Cache.readBack_remote, CacheReply.mapText_id, List.map_id'] at hmemory hremote
  refine ⟨hmemory, hremote, hfile, ?_⟩
  rw [hfile, hmemory, map_eq_self_iff]
  constructor
  · intro h text htext
    exact Cache.readBack_file_eq_self.1 (CacheReply.mapText_eq_self.1 (h _ htext) text rfl)
  · intro h reply hreply
    refine CacheReply.mapText_eq_self.2 fun text htext => ?_
    exact Cache.readBack_file_eq_self.2 (h text (htext ▸ hreply))

/-- Two keys in a folder that is made with the first of them; line feeds and the separators of other systems stay. -/
theorem notes_answered_alike :
    let calls : List CacheCall := [.get "notes", .set "notes" "a\nb", .set "" "\u2028", .get "notes", .has "",
      .delete "notes", .get "notes", .clear, .has ""]
    CacheState.run ⟨.file ⟨"", ["tmp", "cache"]⟩, {}⟩ calls = CacheState.run ⟨.memory [], {}⟩ calls := by
  intro calls
  have hdigest : ∀ a ∈ keysOf calls, ∀ b ∈ keysOf calls, Digest.md5Hex a = Digest.md5Hex b → a = b := by
    decide +kernel
  have hreplies : PlainMap.empty.run calls = [.value none, .done, .done, .value (some "a\nb"), .presence true, .done,
      .value none, .done, .presence false] := by decide +kernel
  have hmade : (({} : FileTree).makeFolders ⟨"", ["tmp", "cache"]⟩) =
      .ok ⟨[(["tmp", "cache"], .folder), (["tmp"], .folder)]⟩ := by decide +kernel
  obtain ⟨-, -, -, hsame⟩ := backends_answer_alike "" none [] (fun a ha b hb => hdigest a ha b hb) hmade
    (by decide +kernel)
  apply hsame.2
  intro text htext
  rw [hreplies] at htext
  simp only [List.mem_cons, CacheReply.value.injEq, reduceCtorEq, Option.some.injEq, List.not_mem_nil, false_or,
    or_false] at htext
  rw [htext]
  decide

/-- A carriage return that was put into a folder comes out as a line feed. -/
theorem carriage_return_lost :
    let calls : List CacheCall := [.set "k" "a\rb", .get "k"]
    CacheState.run ⟨.memory [], {}⟩ calls = [.done, .value (some "a\rb")] ∧
      CacheState.run ⟨.remote "" none {}, {}⟩ calls = [.done, .value (some "a\rb")] ∧
      CacheState.run ⟨.file ⟨"", ["cache"]⟩, {}⟩ calls = [.done, .value (some "a\nb")] := by
  decide +kernel

end UrlRouter
