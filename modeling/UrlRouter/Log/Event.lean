/-
Records of what the router does.

Each kind of event has a record whose bundle holds a summary under a name of its own; further details join the bundle
and may replace what is there.
-/
import UrlRouter.Log.Record

namespace UrlRouter

/-- a measured time in milliseconds: as a value, and as it is written in a message -/
structure Elapsed where
  value : Json
  text : String

/-- A time with two places. -/
def Elapsed.ofMillis (value : Json) : Elapsed :=
  ⟨value, Decimal.floatFixed 2 ((Log.fractionOf value).getD 0) ++ "ms"⟩

namespace Log

/-- A record whose template is the finished message. -/
def eventRecord (level : LogLevel) (kind summary : String) (value : Json) (message : String)
    (details : Mapping Json) : LogRecord where
  level := level.number
  template := message
  fields := [(bundleField, .object (insertAll [("event_type", .string kind), (summary, value)] details))]

/-- values that count as absent -/
def isAbsent : Json → Bool
  | .null | .bool false | .int 0 | .string "" | .array [] | .object [] => true
  | .float x => x == 0
  | _ => false

/-- The outcome of matching a request; the route may be null, as may the time. -/
def matched (method path status route elapsed allowed : Json) (details : Mapping Json) : LogRecord :=
  let summary : Mapping Json := [
    ("method", method), ("path", path), ("status", status), ("route", route), ("latency_ms", elapsed)]
  let summary := if isAbsent allowed then summary else summary ++ [("allowed_methods", allowed)]
  let isFound := match status with
    | .string "found" => true
    | _ => false
  eventRecord (if isFound then .debug else .info) "route_match" "match" (.object summary)
    (method.plain ++ " " ++ path.plain ++ " -> " ++ (if isAbsent route then status else route).plain) details

/-- Dispatch data compiled, or loaded from the cache. -/
def compiled (routes chunks strategy : Json) (elapsed : Elapsed) (fromCache : Json) (details : Mapping Json) :
    LogRecord :=
  eventRecord .info "routes_compiled" "compile"
    (.object [
      ("routes", routes), ("chunks", chunks), ("strategy", strategy), ("duration_ms", elapsed.value),
      ("from_cache", fromCache)])
    ("Loaded " ++ routes.plain ++ " routes in " ++ chunks.plain ++ " chunks from " ++
      (if isAbsent fromCache then "collector" else "cache") ++ " (" ++ elapsed.text ++ ")")
    details

/-- A path that could not be generated, with the kind and the wording of the error. -/
def generateFailed (route : Json) (kind message : String) (details : Mapping Json) : LogRecord :=
  eventRecord .warning "generate_failed" "generate" (.object [("route", route), ("error_type", .string kind)])
    ("URL generation failed: " ++ message) details

def cacheEvent (event key : Json) (details : Mapping Json) : LogRecord :=
  let isCorrupt := match event with
    | .string "corrupt" => true
    | _ => false
  eventRecord (if isCorrupt then .warning else .debug) "route_cache" "cache"
    (.object [("event", event), ("key", key)])
    ("Route cache " ++ event.plain ++ " for key " ++ key.plain) details

end Log

end UrlRouter
