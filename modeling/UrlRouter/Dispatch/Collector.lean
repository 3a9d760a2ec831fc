/-
Collecting routes into dispatch data.

A collector parses each route once, for its strategy, and puts it into the bucket of every method it answers to.
Buckets keep the order in which they were first used and routes the order in which they were added.
-/
import UrlRouter.Dispatch.Data
import UrlRouter.Route.Basic
import UrlRouter.Pattern.MarkForm
import UrlRouter.Pattern.NamedForm

namespace UrlRouter

namespace Strategy

/-- what the parser of a strategy makes of a pattern -/
@[reducible] def Form : Strategy → Type
  | mark => Pattern.MarkForm
  | named => Pattern.NamedForm

def parse : (strategy : Strategy) → String → Pattern.Overrides → Except Pattern.Error strategy.Form
  | mark, pattern, tokens => Pattern.MarkForm.parse pattern tokens
  | named, pattern, tokens => Pattern.NamedForm.parse pattern tokens

end Strategy

/-- a parsed route that waits in a bucket -/
structure Collected (strategy : Strategy) where
  name : String
  form : strategy.Form

/-- the tag of the `j`th variant of the `i`th route of a chunk -/
def variantTagName (i j : Nat) : String := "_r" ++ toString i ++ "_" ++ toString j

/-- the tags of one route, with the regular expression behind each -/
def routeTags (i : Nat) (route : Collected .mark) : List (String × String × VariantTag) :=
  (route.form.variants.zip route.form.groups).zipIdx.map fun ((variant, groups), j) =>
    (variantTagName i j, variant,
      ⟨route.name, route.form.attributes.take groups.length, groups.map Int.ofNat⟩)

def markChunk (routes : List (Collected .mark)) : MarkChunk :=
  let tags := (routes.zipIdx.map fun (route, i) => routeTags i route).flatten
  { routes := routes.map (·.name)
    regex := "(?:" ++ "|".intercalate (tags.map fun (tag, variant, _) => "(?P<" ++ tag ++ ">" ++ variant ++ ")") ++ ")"
    tags := tags.map fun (tag, _, info) => (tag, info) }

def namedChunk (routes : List (Collected .named)) : NamedChunk where
  routes := routes.map (·.name)
  entries := routes.map fun route => ⟨route.name, route.form.regex, route.form.captures⟩

/-- a chunk that was given routes parsed for another strategy -/
structure FormMismatch where
  wanted : Strategy
  deriving DecidableEq, Repr

namespace Strategy

def chunk : (strategy : Strategy) → List (Collected strategy) → Chunk
  | .mark, routes => .mark (markChunk routes)
  | .named, routes => .named (namedChunk routes)

/-- A chunk of routes that may have been parsed for another strategy; no routes suit every strategy. -/
def chunk? (strategy parsedFor : Strategy) (routes : List (Collected parsedFor)) : Except FormMismatch Chunk :=
  if h : parsedFor = strategy then .ok (strategy.chunk (h ▸ routes))
  else if routes.isEmpty then .ok (strategy.chunk [])
  else .error ⟨strategy⟩

end Strategy

/-- what a mismatched strategy calls the forms of each kind -/
def FormMismatch.message (mismatch : FormMismatch) : String :=
  match mismatch.wanted with
  | .mark => "Mark chunks need ParsedRoute data, got NamedRoute"
  | .named => "Named chunks need NamedRoute data, got ParsedRoute"

/-- Pieces of `size` items, the last one possibly shorter; `limit` of them at most. -/
def chunksOf {α : Type} (size : Nat) : Nat → List α → List (List α)
  | 0, _ => []
  | limit + 1, items => if items.isEmpty then [] else items.take size :: chunksOf size limit (items.drop size)

/-- why there is no such collector -/
inductive CollectorError where
  | chunkSize (size : Int)
  | unknownStrategy (name : String)
  deriving DecidableEq, Repr

def unknownStrategyMessage (name : String) : String :=
  "Unknown dispatch strategy: " ++ name ++ ". Must be one of ['mark', 'named']"

def CollectorError.message : CollectorError → String
  | .chunkSize size => "Invalid chunk_size: " ++ toString size ++ ". Must be at least 1"
  | .unknownStrategy name => unknownStrategyMessage name

def defaultChunkSize : Int := 15

structure Collector where
  strategy : Strategy
  chunkSize : Nat
  chunkSize_pos : 0 < chunkSize
  buckets : List (String × List (Collected strategy)) := []
  /-- names of the routes accepted so far -/
  seen : List String := []

/-- Appends an item to the bucket of that name, which is opened if there is none. -/
def addToBucket {α : Type} (bucket : String) (item : α) : List (String × List α) → List (String × List α)
  | [] => [(bucket, [item])]
  | (name, items) :: rest =>
    if name = bucket then (name, items ++ [item]) :: rest else (name, items) :: addToBucket bucket item rest

namespace Collector

def make (strategy : String) (chunkSize : Int) : Except CollectorError Collector :=
  if h : 0 < chunkSize then
    match Strategy.ofName? strategy with
    | some strategy => .ok { strategy, chunkSize := chunkSize.toNat, chunkSize_pos := by omega }
    | none => .error (.unknownStrategy strategy)
  else .error (.chunkSize chunkSize)

/-- Adds a route to the buckets of its methods; a name that was accepted before is passed over. -/
def addRoute (collector : Collector) (route : Route) : Except Pattern.Error Collector :=
  if collector.seen.contains route.name then .ok collector
  else do
    let form ← collector.strategy.parse route.path route.tokens
    return { collector with
      buckets := route.buckets.foldl (fun buckets bucket => addToBucket bucket ⟨route.name, form⟩ buckets)
        collector.buckets
      seen := collector.seen ++ [route.name] }

/-- Adds routes up to the first that fails; the ones before it stay. -/
def addRoutes (collector : Collector) : List Route → Collector × Except Pattern.Error Unit
  | [] => (collector, .ok ())
  | route :: rest =>
    match collector.addRoute route with
    | .ok next => next.addRoutes rest
    | .error e => (collector, .error e)

def data (collector : Collector) : DispatchData where
  strategy := collector.strategy
  chunkSize := collector.chunkSize
  groups := collector.buckets.map fun (bucket, routes) =>
    (bucket, (chunksOf collector.chunkSize routes.length routes).map collector.strategy.chunk)

end Collector

end UrlRouter
