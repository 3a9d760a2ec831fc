/-
Registered routes with what they lead to.

A registration adds to a route its target, its own middlewares and the group it was registered through. Groups and
their middlewares live in the router, so a group that gains a middleware later gains it for all its routes.
-/
import UrlRouter.Route.Basic
import UrlRouter.Json.Basic
import UrlRouter.Mapping

namespace UrlRouter

/-- What a route leads to: a value that is handed on, a handler that is called, or an action on another target. -/
inductive Target where
  | value (content : Json)
  | handler (name : String)
  | action (target : Target) (name : String)
  deriving Inhabited

/-- whether a request can be answered by calling the target -/
def Target.handler? : Target → Option String
  | handler name => some name
  | _ => none

/-- A named middleware. With a scope it runs only for paths that begin with it, in any case. -/
structure Middleware where
  name : String
  scope : Option String := none
  deriving DecidableEq, Repr

namespace Middleware

/-- Whether the middleware runs for a request path. -/
def appliesTo (middleware : Middleware) (path : String) : Bool :=
  match middleware.scope with
  | none => true
  | some scope => (Text.toLower scope).toList.isPrefixOf (Text.toLower path).toList

end Middleware

/-- Middlewares from the outermost to the innermost. -/
abbrev MiddlewareStack := List Middleware

/-- Routes under a shared path prefix. -/
structure RouteGroup where
  pathPrefix : String
  namePrefix : String := ""
  middlewares : MiddlewareStack := []
  deriving DecidableEq, Repr

namespace RouteGroup

/-- The path of a route in the group; a single slash stands for the prefix itself. -/
def join (group : RouteGroup) (path : String) : String :=
  if path = "/" then group.pathPrefix
  else group.pathPrefix ++ "/" ++ String.ofList (path.toList.dropWhile (· = '/'))

/-- The name of a route in the group; a route without a name gets none. -/
def qualify (group : RouteGroup) (name : String) : String := if name.isEmpty then name else group.namePrefix ++ name

end RouteGroup

structure Registration where
  route : Route
  target : Target := .value .null
  middlewares : MiddlewareStack := []
  /-- the number of the group in its router -/
  group : Option Nat := none

end UrlRouter
