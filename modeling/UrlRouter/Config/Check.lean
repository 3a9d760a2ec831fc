/-
Checks of configurations.

A configuration is read from an object; every issue is listed. What is found is brought to one spelling: methods and
log levels in upper case, strategies in lower case.
-/
import UrlRouter.Config.Basic
import UrlRouter.Http.Method
import UrlRouter.Validation.Check
import UrlRouter.Text.Casing
import UrlRouter.Text.Quoted

namespace UrlRouter

open Validation

/-- The choice of that name, or a refusal that lists the names. -/
def choose {α : Type} (what given name : String) (choices : List (String × α)) : Except Cause α :=
  match choices.lookup name with
  | some choice => .ok choice
  | none =>
    .error (.refused ("Invalid " ++ what ++ ": " ++ given ++ ". Must be one of " ++
      Text.quotedList (choices.map (·.1))))

def checkMethodNames (names : List String) : Except Cause (List String) :=
  if names.isEmpty then .error (.refused "Http methods array is empty")
  else (names.map Text.toUpper).mapM fun name =>
    (choose "HTTP method" name name (Method.all.map fun method => (method.name, method))).map Method.name

/-- Whole numbers that are not below a bound. -/
def integerFrom (bound : Int) : Check Int := fun value => ensure (atLeast bound) (integer value)

def integerWithin (low high : Int) : Check Int := fun value => ensure (atMost high) (integerFrom low value)

def nonEmptyMethods : Option (List String) → Except Cause (Option (List String))
  | none => .ok none
  | some names => (checkMethodNames names).map some

def RouteConfig.check : Check RouteConfig :=
  model "RouteConfig" fun value =>
    (both (required "path" anyString value)
      (both (optional "name" none (nullable anyString) value)
        (both (optional "methods" none (fun methods => ensure nonEmptyMethods (nullable (listOf anyString) methods))
            value)
          (both (optional "tokens" [] (mappingOf anyString) value)
            (both (optional "host" none (nullable anyString) value)
              (both (optional "port" none (nullable (integerWithin 1 65535)) value)
                (optional "schemes" none (nullable (listOf anyString)) value))))))).map
      fun (path, name, methods, tokens, host, port, schemes) =>
        { path, target := (value.field? "target").getD .null, name, methods, tokens, host, port, schemes }

def chooseBackend (name : String) : Except Cause CacheBackend :=
  choose "cache backend" name name (CacheBackend.all.map fun backend => (backend.name, backend))

def CacheConfig.check : Check CacheConfig :=
  model "CacheConfig" fun value =>
    let absent : CacheConfig := {}
    (both (optional "enabled" absent.enabled boolean value)
      (both (optional "backend" absent.backend (fun backend => ensure chooseBackend (anyString backend)) value)
        (both (optional "key" absent.key anyString value)
          (both (optional "directory" absent.directory anyString value)
            (both (optional "redis_url" absent.redisUrl anyString value)
              (both (optional "key_prefix" absent.keyPrefix anyString value)
                (optional "ttl" absent.lifetime (nullable (integerFrom 1)) value))))))).map
      fun (enabled, backend, key, directory, redisUrl, keyPrefix, lifetime) =>
        { enabled, backend, key, directory, redisUrl, keyPrefix, lifetime }

def chooseLevel (name : String) : Except Cause LogLevel :=
  choose "log level" name (Text.toUpper name) (LogLevel.all.map fun level => (level.name, level))

def chooseFormat (name : String) : Except Cause LogFormat :=
  choose "log format" name name (LogFormat.all.map fun format => (format.name, format))

def LoggingConfig.check : Check LoggingConfig :=
  model "LoggingConfig" fun value =>
    let absent : LoggingConfig := {}
    (both (optional "level" absent.level (fun level => ensure chooseLevel (anyString level)) value)
      (both (optional "format" absent.format (fun format => ensure chooseFormat (anyString format)) value)
        (both (optional "output" absent.output anyString value)
          (both (optional "correlation_id_header" absent.correlationIdHeader anyString value)
            (optional "redact_fields" absent.redactFields (listOf anyString) value))))).map
      fun (level, format, output, correlationIdHeader, redactFields) =>
        { level, format, output, correlationIdHeader, redactFields }

def MetricsConfig.check : Check MetricsConfig :=
  model "MetricsConfig" fun value =>
    let absent : MetricsConfig := {}
    (both (optional "enabled" absent.enabled boolean value)
      (optional "endpoint" absent.endpoint anyString value)).map
      fun (enabled, endpoint) => { enabled, endpoint }

def chooseStrategy (name : String) : Except Cause Strategy :=
  choose "strategy" name (Text.toLower name) ([Strategy.mark, Strategy.named].map fun s => (s.name, s))

def RouterConfig.check : Check RouterConfig :=
  model "RouterConfig" fun value =>
    let absent : RouterConfig := {}
    (both (optional "environment" absent.environment anyString value)
      (both (optional "strategy" absent.strategy (fun name => ensure chooseStrategy (anyString name)) value)
        (both (optional "chunk_size" absent.chunkSize (integerFrom 1) value)
          (both (optional "tokens" absent.tokens (mappingOf anyString) value)
            (both (optional "routes" absent.routes (listOf RouteConfig.check) value)
              (both (optional "cache" absent.cache CacheConfig.check value)
                (both (optional "logging" absent.logging LoggingConfig.check value)
                  (optional "metrics" absent.metrics MetricsConfig.check value)))))))).map
      fun (environment, strategy, chunkSize, tokens, routes, cache, logging, metrics) =>
        { environment, strategy, chunkSize, tokens, routes, cache, logging, metrics }

end UrlRouter
