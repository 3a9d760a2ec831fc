/-
Matching requests against dispatch data.

A request is tried against the bucket of its method, then against the one for any method. If neither has a match,
every bucket is tried to tell a wrong method from an unknown path.
-/
import UrlRouter.Mapping
import UrlRouter.Dispatch.Data
import UrlRouter.Regex.Match
import UrlRouter.Text.Percent
import UrlRouter.Text.Quoted
import UrlRouter.Route.Basic

namespace UrlRouter

/-- why dispatch data cannot be turned into a matcher -/
inductive MatcherError where
  | regex (pattern : String) (cause : Regex.CompileError)
  | unknownTag (tag : String)
  | noSuchGroup
  deriving DecidableEq, Repr

def MatcherError.message : MatcherError → String
  | .regex pattern cause => cause.message pattern
  | .unknownTag tag => Text.quoted tag
  | .noSuchGroup => "no such group"

structure CompiledEntry where
  route : String
  regex : Regex
  captures : List (String × String)

inductive CompiledChunk where
  | mark (regex : Regex) (tags : List (String × VariantTag))
  | named (entries : List CompiledEntry)

def compileRegex (pattern : String) : Except MatcherError Regex :=
  (Regex.compile pattern).mapError (.regex pattern)

/-- Every tag of a mark chunk must be a group of its expression. -/
def Chunk.compile : Chunk → Except MatcherError CompiledChunk
  | .mark chunk => do
    let regex ← compileRegex chunk.regex
    match chunk.tags.find? fun (tag, _) => (regex.groupNumber? tag).isNone with
    | some (tag, _) => throw (.unknownTag tag)
    | none => return .mark regex chunk.tags
  | .named chunk => do
    let entries ← chunk.entries.mapM fun entry => do
      return (⟨entry.route, ← compileRegex entry.regex, entry.captures⟩ : CompiledEntry)
    return .named entries

/-- a route name with the attributes of a request -/
abbrev Hit := String × List (String × String)

/-- The value of a group, unless it took no part or is empty. -/
def groupValue? (m : Regex.Match) (groups : Nat) (n : Int) : Except MatcherError (Option String) :=
  if n < 0 || (groups : Int) < n then .error .noSuchGroup
  else if n = 0 then
    .ok (if m.text.isEmpty then none else some (String.ofList m.text.toList))
  else
    match m.group? n.toNat with
    | some "" | none => .ok none
    | some value => .ok (some value)

/-- the attributes of a variant, from the groups counted from its tag -/
def tagAttributes (m : Regex.Match) (groups base : Nat) :
    List (String × Int) → List (String × String) → Except MatcherError (List (String × String))
  | [], attributes => .ok attributes
  | (name, group) :: rest, attributes => do
    match ← groupValue? m groups (base + group) with
    | none => tagAttributes m groups base rest attributes
    | some value => tagAttributes m groups base rest (insertValue name (Text.percentDecode value) attributes)

/-- the attributes of a named expression; empty captures are left out -/
def captureAttributes (m : Regex.Match) (regex : Regex) (captures : List (String × String)) : List (String × String) :=
  regex.names.foldl
    (fun attributes (group, n) =>
      match captures.lookup group, m.group? n with
      | some _, some "" => attributes
      | some name, some value => insertValue name (Text.percentDecode value) attributes
      | _, _ => attributes)
    []

def CompiledEntry.match? (entry : CompiledEntry) (path : String) : Option Hit :=
  (entry.regex.fullMatch? path).map fun m => (entry.route, captureAttributes m entry.regex entry.captures)

/-- The alternative that matched is the group that closed last. -/
def CompiledChunk.match? (path : String) : CompiledChunk → Except MatcherError (Option Hit)
  | mark regex tags =>
    match regex.fullMatch? path with
    | none => .ok none
    | some m =>
      match m.lastClosed with
      | none => .ok none
      | some n =>
        match (regex.names.find? (·.2 == n)).bind fun (name, _) => tags.lookup name with
        | none => .ok none
        | some tag => do
          let attributes ← tagAttributes m regex.groups n (tag.attributes.zip tag.groups) []
          return some (tag.route, attributes)
  | named entries => .ok (entries.findSome? (·.match? path))

inductive MatchStatus where
  | found
  | notFound
  | methodNotAllowed
  deriving DecidableEq, Repr

def MatchStatus.name : MatchStatus → String
  | .found => "found"
  | .notFound => "not_found"
  | .methodNotAllowed => "method_not_allowed"

/-- the outcome of matching one request -/
structure MatchResult where
  status : MatchStatus
  method : String
  path : String
  route : Option String := none
  attributes : List (String × String) := []
  allowed : List String := []
  failed : List String := []
  deriving DecidableEq, Repr

structure Matcher where
  groups : List (String × List CompiledChunk)

namespace Matcher

def ofData (data : DispatchData) : Except MatcherError Matcher := do
  let groups ← data.groups.mapM fun (bucket, chunks) => do return (bucket, ← chunks.mapM Chunk.compile)
  return ⟨groups⟩

/-- the first hit among chunks -/
def firstHit (path : String) : List CompiledChunk → Except MatcherError (Option Hit)
  | [] => .ok none
  | chunk :: rest => do
    match ← chunk.match? path with
    | some hit => return some hit
    | none => firstHit path rest

def matchBucket (matcher : Matcher) (bucket path : String) : Except MatcherError (Option Hit) :=
  firstHit path ((matcher.groups.lookup bucket).getD [])

/-- Adds an item unless it is there. -/
def addNew (item : String) (items : List String) : List String :=
  if items.contains item then items else items ++ [item]

/-- The buckets that have a match, and the names of the routes that match in them. -/
def scan (path : String) :
    List (String × List CompiledChunk) → List String → List String → Except MatcherError (List String × List String)
  | [], allowed, failed => .ok (allowed, failed)
  | (bucket, chunks) :: rest, allowed, failed => do
    match ← firstHit path chunks with
    | none => scan path rest allowed failed
    | some (route, _) => scan path rest (addNew bucket allowed) (addNew route failed)

def match' (matcher : Matcher) (path method : String) : Except MatcherError MatchResult := do
  let method := Text.toUpper method
  let found (hit : Hit) : MatchResult :=
    { status := .found, method, path, route := some hit.1, attributes := hit.2 }
  match ← matcher.matchBucket method path with
  | some hit => return found hit
  | none =>
    match ← matcher.matchBucket anyMethod path with
    | some hit => return found hit
    | none =>
      let (allowed, failed) ← scan path matcher.groups [] []
      if allowed.isEmpty then return { status := .notFound, method, path }
      else return { status := .methodNotAllowed, method, path, allowed, failed }

end Matcher

end UrlRouter
