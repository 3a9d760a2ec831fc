/-
Views of routes, matches and dispatch data as JSON, for inspection.
-/
import UrlRouter.Router.Basic

namespace UrlRouter

/-- The target that a route leads to; a handler is not named. -/
def Target.toJson : Target → Json
  | value content => content
  | handler _ => .string "<callable>"
  | action target name => .array [target.toJson, .string name]

/-- The names of the middlewares; one with a scope is not named. -/
def MiddlewareStack.toJson (stack : MiddlewareStack) : Json :=
  .ofStrings (stack.map fun middleware => if middleware.scope.isSome then "<prefixed>" else middleware.name)

/-- A route with its target, the middlewares around it and the prefix of its group. -/
def Route.toJson (route : Route) (target : Target) (stack : MiddlewareStack) (group : Option String) : Json :=
  .object [
    ("name", .string route.name), ("path", .string route.path), ("target", target.toJson),
    ("methods", Json.ofOption (fun methods => .ofStrings (methods.map Method.name)) route.methods),
    ("tokens", Json.ofTexts route.tokens), ("host", Json.ofOption .string route.host),
    ("port", Json.ofOption .int route.port), ("schemes", Json.ofOption .ofStrings route.schemes),
    ("stack", stack.toJson), ("group", Json.ofOption .string group)]

def Router.view (router : Router) (registration : Registration) : Json :=
  registration.route.toJson registration.target (router.stackOf registration)
    ((router.group? registration).map (·.pathPrefix))

def MatchResult.toJson (result : MatchResult) : Json :=
  .object [
    ("status", .string result.status.name), ("method", .string result.method), ("path", .string result.path),
    ("route", Json.ofOption .string result.route), ("attributes", Json.ofTexts result.attributes),
    ("allowed", .ofStrings result.allowed), ("failed", .ofStrings result.failed),
    ("flags", .array [.bool (result.status = .found), .bool (result.status = .methodNotAllowed),
      .bool (result.status = .notFound)])]

/-- A match together with the registered route behind it. -/
def Router.viewMatch (router : Router) (result : MatchResult) : Json :=
  .object [
    ("match", result.toJson), ("route", Json.ofOption router.view (router.matched? result)),
    ("name", Json.ofOption .string result.route), ("attributes", Json.ofTexts result.attributes),
    ("allowed", .ofStrings result.allowed),
    ("flags", .array [.bool (result.status = .found), .bool (result.status != .found),
      .bool (result.status = .methodNotAllowed)])]

/-- Dispatch data with its buckets in order. -/
def DispatchData.view (data : DispatchData) : Json :=
  .object [
    ("strategy", .string data.strategy.name), ("chunk_size", .int data.chunkSize),
    ("route_count", .int data.routeCount),
    ("groups", .array (data.groups.map fun (bucket, chunks) =>
      .array [.string bucket, .array (chunks.map Chunk.toJson)]))]

end UrlRouter
