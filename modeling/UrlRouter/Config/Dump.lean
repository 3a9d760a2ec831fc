/-
Configurations as JSON.
-/
import UrlRouter.Config.Basic

namespace UrlRouter

def textsOrNull : Option (List String) → Json := Json.ofOption Json.ofStrings

def mappingJson (mapping : Mapping String) : Json := .object (mapping.map fun (key, text) => (key, .string text))

def RouteConfig.toJson (route : RouteConfig) : Json :=
  .object [
    ("path", .string route.path), ("target", route.target), ("name", Json.ofOption .string route.name),
    ("methods", textsOrNull route.methods), ("tokens", mappingJson route.tokens),
    ("host", Json.ofOption .string route.host), ("port", Json.ofOption .int route.port),
    ("schemes", textsOrNull route.schemes)]

def CacheConfig.toJson (cache : CacheConfig) : Json :=
  .object [
    ("enabled", .bool cache.enabled), ("backend", .string cache.backend.name), ("key", .string cache.key),
    ("directory", .string cache.directory), ("redis_url", .string cache.redisUrl),
    ("key_prefix", .string cache.keyPrefix), ("ttl", Json.ofOption .int cache.lifetime)]

def LoggingConfig.toJson (logging : LoggingConfig) : Json :=
  .object [
    ("level", .string logging.level.name), ("format", .string logging.format.name),
    ("output", .string logging.output), ("correlation_id_header", .string logging.correlationIdHeader),
    ("redact_fields", .ofStrings logging.redactFields)]

def MetricsConfig.toJson (metrics : MetricsConfig) : Json :=
  .object [("enabled", .bool metrics.enabled), ("endpoint", .string metrics.endpoint)]

def RouterConfig.toJson (config : RouterConfig) : Json :=
  .object [
    ("environment", .string config.environment), ("strategy", .string config.strategy.name),
    ("chunk_size", .int config.chunkSize), ("tokens", mappingJson config.tokens),
    ("routes", .array (config.routes.map RouteConfig.toJson)), ("cache", config.cache.toJson),
    ("logging", config.logging.toJson), ("metrics", config.metrics.toJson)]

end UrlRouter
