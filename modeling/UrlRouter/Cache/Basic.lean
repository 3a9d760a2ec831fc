/-
Caches of compiled route data.

A cache keeps texts by key, in memory, in one file per key, or in a store that is shared over the network. The file of
a key is named by the digest of the key; a remote key carries the cache's prefix.
-/
import UrlRouter.Mapping
import UrlRouter.Digest.Md5
import UrlRouter.Storage.FileTree

namespace UrlRouter

/-- a shared store as one client sees it; with a refusal every request fails for that reason -/
structure RemoteStore where
  data : Mapping String := []
  /-- the lifetime that each key was last given -/
  lifetimes : Mapping (Option Int) := []
  refusal : Option String := none
  deriving DecidableEq, Repr

inductive Cache where
  | memory (entries : Mapping String)
  | file (folder : Location)
  | remote (keyPrefix : String) (lifetime : Option Int) (store : RemoteStore)
  deriving DecidableEq, Repr

/-- what is asked of a store -/
inductive StoreRequest where
  | read
  | write
  | check
  | delete
  deriving DecidableEq, Repr

def StoreRequest.name : StoreRequest → String
  | read => "read"
  | write => "write"
  | check => "check"
  | delete => "delete"

inductive CacheError where
  | noFolder (folder : Location)
  | unreadable (file : Location) (fault : FileFault)
  | unwritable (file written : Location) (fault : FileFault)
  | immovable (file written : Location) (fault : FileFault)
  | store (request : StoreRequest) (key reason : String)
  | storeClear (reason : String)
  /-- a fault of the file system that the cache lets through -/
  | fileFault (file : Location) (fault : FileFault)
  deriving DecidableEq, Repr

def CacheError.message : CacheError → String
  | noFolder folder => "Impossible to create cache directory: " ++ folder.text
  | unreadable file fault => "Failed to read cache file " ++ file.text ++ ": " ++ fault.messageAt file
  | unwritable file written fault => "Failed to write cache file " ++ file.text ++ ": " ++ fault.messageAt written
  | immovable file written fault =>
    "Failed to write cache file " ++ file.text ++ ": " ++ fault.messageBetween written file
  | store request key reason => "Failed to " ++ request.name ++ " route cache key " ++ key ++ ": " ++ reason
  | storeClear reason => "Failed to clear route cache: " ++ reason
  | fileFault file fault => fault.messageAt file

/-- Line ends of other systems are read as line feeds. -/
def plainLineEnds : List Char → List Char
  | [] => []
  | '\r' :: '\n' :: rest => '\n' :: plainLineEnds rest
  | '\r' :: rest => '\n' :: plainLineEnds rest
  | c :: rest => c :: plainLineEnds rest

namespace Cache

def cacheSuffix : String := ".json"

/-- the file of a key -/
def fileOf (folder : Location) (key : String) : Location := folder.entry (Digest.md5Hex key ++ cacheSuffix)

/-- where the text of a key is written before it takes its place -/
def draftOf (folder : Location) (key : String) : Location := folder.entry (Digest.md5Hex key ++ ".tmp")

/-- The answer of a store, or its refusal. -/
def asking {α : Type} (store : RemoteStore) (refused : String → CacheError) (answer : α) : Except CacheError α :=
  match store.refusal with
  | some reason => .error (refused reason)
  | none => .ok answer

def get? (cache : Cache) (files : FileTree) (key : String) : Except CacheError (Option String) :=
  match cache with
  | memory entries => .ok (entries.lookup key)
  | file folder =>
    let place := fileOf folder key
    if (files.status? place).isNone then .ok none
    else
      match files.read place with
      | .ok text => .ok (some (String.ofList (plainLineEnds text.toList)))
      | .error fault => .error (.unreadable place fault)
  | remote keyPrefix _ store => asking store (.store .read key) (store.data.lookup (keyPrefix ++ key))

def contains (cache : Cache) (files : FileTree) (key : String) : Except CacheError Bool :=
  match cache with
  | memory entries => .ok (entries.lookup key).isSome
  | file folder => .ok (files.status? (fileOf folder key)).isSome
  | remote keyPrefix _ store => asking store (.store .check key) (store.data.lookup (keyPrefix ++ key)).isSome

/-- what an operation leaves behind, and whether it went well -/
structure Outcome where
  cache : Cache
  files : FileTree
  result : Except CacheError Unit := .ok ()

/-- Writes the file of a key by way of a draft. -/
def writeFile (files : FileTree) (folder : Location) (key value : String) : FileTree × Except CacheError Unit :=
  match files.makeFolders folder with
  | .error _ => (files, .error (.noFolder folder))
  | .ok files =>
    let place := fileOf folder key
    let draft := draftOf folder key
    match files.write draft value with
    | .error fault => (files, .error (.unwritable place draft fault))
    | .ok files =>
      match files.move draft place with
      | .error fault => (files, .error (.immovable place draft fault))
      | .ok files => (files, .ok ())

def insert (cache : Cache) (files : FileTree) (key value : String) : Outcome :=
  match cache with
  | memory entries => { cache := memory (insertValue key value entries), files }
  | file folder =>
    let (files, result) := writeFile files folder key value
    { cache, files, result }
  | remote keyPrefix lifetime store =>
    match store.refusal with
    | some reason => { cache, files, result := .error (.store .write key reason) }
    | none =>
      { cache := remote keyPrefix lifetime { store with
          data := insertValue (keyPrefix ++ key) value store.data
          lifetimes := insertValue (keyPrefix ++ key) lifetime store.lifetimes }
        files }

/-- Removes a file that need not be there. -/
def removeFile (files : FileTree) (place : Location) : FileTree × Except CacheError Unit :=
  match files.remove place with
  | .ok files => (files, .ok ())
  | .error .notFound => (files, .ok ())
  | .error fault => (files, .error (.fileFault place fault))

def erase (cache : Cache) (files : FileTree) (key : String) : Outcome :=
  match cache with
  | memory entries => { cache := memory (eraseValue key entries), files }
  | file folder =>
    let (files, result) := removeFile files (fileOf folder key)
    { cache, files, result }
  | remote keyPrefix lifetime store =>
    match store.refusal with
    | some reason => { cache, files, result := .error (.store .delete key reason) }
    | none =>
      { cache := remote keyPrefix lifetime { store with data := eraseValue (keyPrefix ++ key) store.data }, files }

/-- Removes files up to the first that cannot be removed. -/
def removeFiles (files : FileTree) : List Location → FileTree × Except CacheError Unit
  | [] => (files, .ok ())
  | place :: rest =>
    match removeFile files place with
    | (files, .ok ()) => removeFiles files rest
    | (files, .error e) => (files, .error e)

/-- Removes every key; of a folder all files go that are named like those of a cache. -/
def clear (cache : Cache) (files : FileTree) : Outcome :=
  match cache with
  | memory _ => { cache := memory [], files }
  | file folder =>
    if files.isFolder folder then
      let (files, result) := removeFiles files
        (((files.list folder).filter (·.endsWith cacheSuffix)).map folder.entry)
      { cache, files, result }
    else { cache, files }
  | remote keyPrefix lifetime store =>
    match store.refusal with
    | some reason => { cache, files, result := .error (.storeClear reason) }
    | none =>
      { cache := remote keyPrefix lifetime
          { store with data := store.data.filter fun (key, _) => !key.startsWith keyPrefix }
        files }

end Cache

end UrlRouter
