/-
Files and folders.

A tree holds text files and folders by their full names; the working folder and the root are always there. Every
operation says which fault stops it and leaves the tree alone in that case.
-/
import UrlRouter.Storage.Location

namespace UrlRouter

/-- why an operation on files fails -/
inductive FileFault where
  | notFound
  | alreadyThere
  | notFolder
  | isFolder
  deriving DecidableEq, Repr

namespace FileFault

def text : FileFault → String
  | notFound => "[Errno 2] No such file or directory"
  | alreadyThere => "[Errno 17] File exists"
  | notFolder => "[Errno 20] Not a directory"
  | isFolder => "[Errno 21] Is a directory"

/-- A fault with the file it happened at. -/
def messageAt (fault : FileFault) (file : Location) : String := fault.text ++ ": '" ++ file.text ++ "'"

/-- A fault with both files of a move. -/
def messageBetween (fault : FileFault) (source target : Location) : String :=
  fault.messageAt source ++ " -> '" ++ target.text ++ "'"

end FileFault

inductive FileEntry where
  | file (text : String)
  | folder
  deriving DecidableEq, Repr

/-- the names that lead from the working folder, or from the root, to an entry -/
abbrev FullName := List String

structure FileTree where
  entries : List (FullName × FileEntry) := []
  deriving DecidableEq, Repr

namespace FileTree

def find? (tree : FileTree) (name : FullName) : Option FileEntry :=
  if name.isEmpty || name = ["/"] then some .folder else tree.entries.lookup name

/-- The full name of an entry after some further parts; all but the last must be folders. -/
def resolveFrom (tree : FileTree) (here : FullName) : List String → Except FileFault FullName
  | [] => .ok here
  | part :: rest =>
    match tree.find? here with
    | none => .error .notFound
    | some (.file _) => .error .notFolder
    | some .folder => tree.resolveFrom (if part = ".." then here.dropLast else here ++ [part]) rest

def resolve (tree : FileTree) (location : Location) : Except FileFault FullName :=
  tree.resolveFrom (if location.root.isEmpty then [] else ["/"]) location.parts

/-- the entry at a location, if there is one -/
def status? (tree : FileTree) (location : Location) : Option FileEntry :=
  match tree.resolve location with
  | .ok name => tree.find? name
  | .error _ => none

def isFolder (tree : FileTree) (location : Location) : Bool := tree.status? location = some .folder

/-- The entry of a name replaces the one that was there. -/
def put (tree : FileTree) (name : FullName) (entry : FileEntry) : FileTree :=
  ⟨(name, entry) :: tree.entries.filter (·.1 != name)⟩

def drop (tree : FileTree) (name : FullName) : FileTree := ⟨tree.entries.filter (·.1 != name)⟩

def read (tree : FileTree) (location : Location) : Except FileFault String := do
  match tree.find? (← tree.resolve location) with
  | none => throw .notFound
  | some .folder => throw .isFolder
  | some (.file text) => return text

/-- A new text for a file, which need not be there before; its folder must be. -/
def write (tree : FileTree) (location : Location) (text : String) : Except FileFault FileTree := do
  let name ← tree.resolve location
  match tree.find? name with
  | some .folder => throw .isFolder
  | _ => return tree.put name (.file text)

def append (tree : FileTree) (location : Location) (text : String) : Except FileFault FileTree := do
  match tree.status? location with
  | some (.file old) => tree.write location (old ++ text)
  | _ => tree.write location text

def remove (tree : FileTree) (location : Location) : Except FileFault FileTree := do
  let name ← tree.resolve location
  match tree.find? name with
  | none => throw .notFound
  | some .folder => throw .isFolder
  | some (.file _) => return tree.drop name

/-- A file takes the name of another, which is replaced. -/
def move (tree : FileTree) (source target : Location) : Except FileFault FileTree := do
  let text ← tree.read source
  return (← tree.write target text).drop (← tree.resolve source)

def makeFolder (tree : FileTree) (location : Location) : Except FileFault FileTree := do
  let name ← tree.resolve location
  match tree.find? name with
  | none => return tree.put name .folder
  | some _ => throw .alreadyThere

/-- The folders from `made` on, each in the one before; those that are there already are kept. -/
def makeFoldersFrom (tree : FileTree) (made : Location) : List String → Except FileFault FileTree
  | [] => .ok tree
  | part :: rest =>
    let next := made.entry part
    if tree.isFolder next then tree.makeFoldersFrom next rest
    else
      match tree.makeFolder next with
      | .ok tree => tree.makeFoldersFrom next rest
      | .error fault => .error fault

def makeFolders (tree : FileTree) (location : Location) : Except FileFault FileTree :=
  tree.makeFoldersFrom { location with parts := [] } location.parts

/-- The tree with one more file, and with the folders that lead to it; unchanged if a file is in the way. -/
def plant (tree : FileTree) (file : Location) (text : String) : FileTree :=
  match tree.makeFolders { file with parts := file.parts.dropLast } with
  | .error _ => tree
  | .ok tree =>
    match tree.write file text with
    | .ok tree => tree
    | .error _ => tree

/-- The files of a tree that another one does not have, or not with the same text. -/
def filesBeyond (tree before : FileTree) : List (Location × String) :=
  tree.entries.filterMap fun (name, entry) =>
    match entry with
    | .folder => none
    | .file text =>
      if before.find? name = some entry then none
      else
        match name with
        | "/" :: parts => some (⟨"/", parts⟩, text)
        | parts => some (⟨"", parts⟩, text)

/-- the names of the entries in a folder, sorted -/
def list (tree : FileTree) (folder : Location) : List String :=
  match tree.resolve folder with
  | .error _ => []
  | .ok name =>
    (tree.entries.filterMap fun (entry, _) =>
      if entry.dropLast = name then entry.getLast? else none).mergeSort fun a b => a ≤ b

/-- Everything below the working folder, folders with a slash at the end, in order. -/
def listing (tree : FileTree) : List String :=
  (tree.entries.filterMap fun (name, entry) =>
    if name.head? = some "/" then none
    else
      match entry with
      | .folder => some ("/".intercalate name ++ "/")
      | .file _ => some ("/".intercalate name)).mergeSort fun a b => a ≤ b

end FileTree

end UrlRouter
