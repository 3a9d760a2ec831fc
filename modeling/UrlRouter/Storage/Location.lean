/-
Names of files and folders.

A location is written with slashes; empty parts and single dots count for nothing, double dots stay. Two slashes at the
start are kept, any other number of them counts as one.
-/
namespace UrlRouter

structure Location where
  root : String := ""
  parts : List String := []
  deriving DecidableEq, Repr

namespace Location

/-- the parts between slashes -/
def splitSlashes (text : String) : List String := (text.splitOn "/").filter fun part => !part.isEmpty && part != "."

def rootOf (text : String) : String :=
  match (text.toList.takeWhile (· = '/')).length with
  | 0 => ""
  | 2 => "//"
  | _ => "/"

def ofText (text : String) : Location := ⟨rootOf text, splitSlashes text⟩

def text (location : Location) : String :=
  if location.root.isEmpty && location.parts.isEmpty then "."
  else location.root ++ "/".intercalate location.parts

/-- the entry of that name in a folder -/
def entry (folder : Location) (name : String) : Location := { folder with parts := folder.parts ++ [name] }

end Location

end UrlRouter
