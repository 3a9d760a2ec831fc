/-
Configuration of a router.

Every section has a value for when nothing is configured.
-/
import UrlRouter.Json.Basic
import UrlRouter.Mapping
import UrlRouter.Dispatch.Data
import UrlRouter.Log.Level

namespace UrlRouter

/-- a route as it stands in a configuration; its target is not looked into -/
structure RouteConfig where
  path : String
  target : Json := .null
  name : Option String := none
  methods : Option (List String) := none
  tokens : Mapping String := []
  host : Option String := none
  port : Option Int := none
  schemes : Option (List String) := none

inductive CacheBackend where
  | memory
  | file
  | remote
  deriving DecidableEq, Repr

namespace CacheBackend

def name : CacheBackend → String
  | memory => "memory"
  | file => "file"
  | remote => "redis"

def all : List CacheBackend := [memory, file, remote]

end CacheBackend

/-- the key that the dispatch data is cached under -/
def defaultCacheKey : String := "router_parsed_data"

structure CacheConfig where
  enabled : Bool := false
  backend : CacheBackend := .memory
  key : String := defaultCacheKey
  directory : String := "tmp/switchyard-cache"
  redisUrl : String := "redis://localhost:6379/0"
  keyPrefix : String := "switchyard:"
  lifetime : Option Int := none
  deriving DecidableEq, Repr

inductive LogFormat where
  | json
  | text
  deriving DecidableEq, Repr

namespace LogFormat

def name : LogFormat → String
  | json => "json"
  | text => "text"

def all : List LogFormat := [json, text]

end LogFormat

def defaultCorrelationHeader : String := "X-Request-ID"

structure LoggingConfig where
  level : LogLevel := .info
  format : LogFormat := .json
  output : String := "stdout"
  correlationIdHeader : String := defaultCorrelationHeader
  redactFields : List String := ["Authorization", "Cookie", "Set-Cookie"]
  deriving DecidableEq, Repr

structure MetricsConfig where
  enabled : Bool := true
  endpoint : String := "/metrics"
  deriving DecidableEq, Repr

structure RouterConfig where
  environment : String := "development"
  strategy : Strategy := .mark
  chunkSize : Int := 15
  tokens : Mapping String := []
  routes : List RouteConfig := []
  cache : CacheConfig := {}
  logging : LoggingConfig := {}
  metrics : MetricsConfig := {}

end UrlRouter
