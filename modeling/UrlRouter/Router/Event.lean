/-
What a router reports.

Operations of the router leave events behind. Each has a log record and may count in the metrics; measured times come
from outside.
-/
import UrlRouter.Cache.Basic
import UrlRouter.Dispatch.Matcher
import UrlRouter.Log.Event
import UrlRouter.Metrics.Basic
import UrlRouter.Route.Generator

namespace UrlRouter

inductive CacheEvent where
  | hit
  | miss
  | write
  | corrupt
  | clear
  deriving DecidableEq, Repr

def CacheEvent.name : CacheEvent → String
  | hit => "hit"
  | miss => "miss"
  | write => "write"
  | corrupt => "corrupt"
  | clear => "clear"

/-- The name of a reported error; limits of the regular expressions are not reported. -/
def GenerateError.kind? : GenerateError → Option String
  | .routeNotFound _ => some "RouteNotFoundError"
  | .missing _ _ => some "MissingAttributeError"
  | .mismatch _ _ _ => some "AttributeMismatchError"
  | .pattern (.fault (.duplicateAttribute _) _) => some "DuplicateAttributeError"
  | .pattern (.fault _ _) => some "RouteSyntaxError"
  | .pattern _ => none

inductive RouterEvent where
  /-- a route was added; now there are so many -/
  | registered (route : Route) (count : Nat)
  /-- routes were put into chunks, for the buckets of these methods -/
  | collected (routes chunks : Nat) (strategy : Strategy) (buckets : List String)
  /-- a path was found for other methods only -/
  | refusedMethod (result : MatchResult)
  | matched (result : MatchResult)
  | generateFailed (name kind message : String)
  | compiled (routes chunks : Nat) (strategy : Strategy) (fromCache : Bool)
  | cache (event : CacheEvent) (key : String)
  /-- the cached data breaks so many rules -/
  | corruptEntry (issues : Nat) (key : String)
  | wroteCacheFile (file : Location) (key : String)

namespace RouterEvent

/-- the records that modules write on their own account -/
def moduleRecord? (elapsed : Elapsed) : RouterEvent → Option LogRecord
  | registered route _ =>
    some {
      logger := "switchyard.core.router"
      level := LogLevel.debug.number
      template := "Registered route " ++ route.name
      fields := [
        ("route", .string route.name), ("path", .string route.path),
        ("methods", .ofStrings (route.sortedMethods.map Method.name))] }
  | collected routes chunks strategy buckets =>
    some {
      logger := "switchyard.core.collector"
      level := LogLevel.debug.number
      template := "Compiled " ++ toString routes ++ " routes into " ++ toString chunks ++ " chunks"
      fields := [
        ("strategy", .string strategy.name), ("methods", .ofStrings (buckets.mergeSort fun a b => a ≤ b)),
        ("duration_ms", elapsed.value)] }
  | refusedMethod result =>
    some {
      logger := "switchyard.core.matcher"
      level := LogLevel.debug.number
      template := "Method " ++ result.method ++ " not allowed for " ++ result.path
      fields := [
        ("path", .string result.path), ("method", .string result.method),
        ("allowed_methods", .ofStrings result.allowed)] }
  | corruptEntry issues key =>
    some {
      logger := "switchyard.core.router"
      level := LogLevel.warning.number
      template := "Ignoring corrupt route cache entry: " ++ toString issues ++ " errors"
      fields := [("cache_key", .string key)] }
  | wroteCacheFile file key =>
    some {
      logger := "switchyard.core.cache"
      level := LogLevel.debug.number
      template := "Wrote route cache file " ++ file.text
      fields := [("cache_key", .string key)] }
  | _ => none

/-- the records of the structured event log -/
def structuredRecord? (elapsed : Elapsed) : RouterEvent → Option LogRecord
  | matched result =>
    some (Log.matched (.string result.method) (.string result.path) (.string result.status.name)
      (Json.ofOption .string result.route) elapsed.value (.ofStrings result.allowed) [])
  | generateFailed name kind message => some (Log.generateFailed (.string name) kind message [])
  | compiled routes chunks strategy fromCache =>
    some (Log.compiled (.int routes) (.int chunks) (.string strategy.name) elapsed (.bool fromCache) [])
  | cache event key => some (Log.cacheEvent (.string event.name) (.string key) [])
  | _ => none

def record? (elapsed : Elapsed) (event : RouterEvent) : Option LogRecord :=
  (event.moduleRecord? elapsed).or (event.structuredRecord? elapsed)

/-- The metrics after an event that took some seconds. -/
def count (seconds : Float) (metrics : RouterMetrics) : RouterEvent → RouterMetrics
  | registered _ n => metrics.updateRoutes (Float.ofNat n)
  | matched result => metrics.recordMatch result.method result.status.name seconds
  | generateFailed _ kind _ => metrics.recordGenerateError kind
  | compiled _ _ strategy false => metrics.recordCompile strategy.name seconds
  | compiled _ _ _ true => metrics
  | cache event _ => metrics.recordCacheEvent event.name
  | collected _ _ _ _ | refusedMethod _ | corruptEntry _ _ | wroteCacheFile _ _ => metrics

end RouterEvent

end UrlRouter
