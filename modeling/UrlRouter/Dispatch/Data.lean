/-
Dispatch data: what a matcher needs to know about a set of routes.

Every method has a bucket, every bucket a list of chunks. A mark chunk is one alternation whose alternatives are named
groups, the tags; a named chunk is a list of expressions tried one after the other.
-/
namespace UrlRouter

/-- one alternative of a mark chunk: a variant of a route -/
structure VariantTag where
  route : String
  /-- names of the attributes in this variant -/
  attributes : List String := []
  /-- group number of each attribute, counted from the tag's own group -/
  groups : List Int := []
  deriving DecidableEq, Repr

structure MarkChunk where
  routes : List String := []
  regex : String
  tags : List (String × VariantTag) := []
  deriving DecidableEq, Repr

structure NamedEntry where
  route : String
  regex : String
  /-- the attribute behind each group name -/
  captures : List (String × String) := []
  deriving DecidableEq, Repr

structure NamedChunk where
  routes : List String := []
  entries : List NamedEntry := []
  deriving DecidableEq, Repr

inductive Chunk where
  | mark (chunk : MarkChunk)
  | named (chunk : NamedChunk)
  deriving DecidableEq, Repr

namespace Chunk

def routes : Chunk → List String
  | mark chunk => chunk.routes
  | named chunk => chunk.routes

end Chunk

inductive Strategy where
  | mark
  | named
  deriving DecidableEq, Repr

namespace Strategy

def name : Strategy → String
  | mark => "mark"
  | named => "named"

def ofName? (text : String) : Option Strategy := [mark, named].find? (·.name == text)

end Strategy

structure DispatchData where
  strategy : Strategy := .mark
  chunkSize : Int := 15
  groups : List (String × List Chunk) := []
  deriving DecidableEq, Repr

namespace DispatchData

/-- the number of different route names -/
def routeCount (data : DispatchData) : Nat :=
  (data.groups.flatMap fun (_, chunks) => chunks.flatMap Chunk.routes).eraseDups.length

/-- the number of chunks in all buckets -/
def chunkCount (data : DispatchData) : Nat := (data.groups.flatMap (·.2)).length

end DispatchData

end UrlRouter
