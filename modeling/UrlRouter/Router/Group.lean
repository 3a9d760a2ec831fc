/-
Registering routes through groups, and middleware stacks.
-/
import UrlRouter.Router.Basic

namespace UrlRouter

/-- a route that is still to be registered -/
structure RouteRequest where
  values : RouteValues
  target : Target := .value .null
  middlewares : MiddlewareStack := []

namespace RouterM

/-- Registers a route, in a group if one is given. -/
def addRequest (request : RouteRequest) (group : Option Nat) : RouterM Registration := do
  let values :=
    match group.bind ((← get).router.groups[·]?) with
    | some group => { request.values with
        path := group.join request.values.path, name := group.qualify request.values.name }
    | none => request.values
  let route ← orFail .route (Route.make values)
  addRoute { route, target := request.target, middlewares := request.middlewares, group }

def addRequests (requests : List RouteRequest) (group : Option Nat) : RouterM (List Registration) :=
  requests.mapM fun request => addRequest request group

/-- Opens a group and gives its number. -/
def openGroup (pathPrefix namePrefix : String) : RouterM Nat := do
  let number := (← get).router.groups.length
  modifyRouter fun router => { router with groups := router.groups ++ [{ pathPrefix, namePrefix }] }
  return number

end RouterM

/-- The routes of a resource: a list, and pages to create, edit and delete an item with a number. -/
def resourceRequests (target : Target) (name : String) : List RouteRequest :=
  let request (method path action suffix : String) : RouteRequest :=
    { values := { path, name := name ++ suffix, methods := some [method] }, target := .action target action }
  let item := "/\x7bid:\\d+\x7d"
  [ request "GET" "/" "index" ".index"
  , request "GET" "/new" "create" ".create"
  , request "POST" "/new" "create" ".create.post"
  , request "GET" item "edit" ".edit"
  , request "POST" item "edit" ".edit.post"
  , request "DELETE" item "delete" ".delete" ]

/-- what is registered through a group -/
inductive GroupMember where
  | route (request : RouteRequest)
  | resource (target : Target) (name : String)

namespace RouterM

/-- Registers the members of a group in order and gives the names of the routes among them. -/
def addMembers (group : Nat) : List GroupMember → RouterM (List String)
  | [] => pure []
  | .resource target name :: rest => do
    let _ ← addRequests (resourceRequests target name) (some group)
    addMembers group rest
  | .route request :: rest => do
    let registration ← addRequest request (some group)
    return registration.route.name :: (← addMembers group rest)

/-- A new group with its members; if one fails, those before it stay registered. -/
def addGroup (pathPrefix namePrefix : String) (members : List GroupMember) : RouterM (List String) := do
  addMembers (← openGroup pathPrefix namePrefix) members

end RouterM

/-- a change of a middleware stack -/
inductive StackChange where
  | append (middlewares : MiddlewareStack)
  | prepend (middleware : Middleware)
  deriving DecidableEq, Repr

def StackChange.apply (stack : MiddlewareStack) : StackChange → MiddlewareStack
  | append middlewares => stack ++ middlewares
  | prepend middleware => middleware :: stack

namespace Router

/-- The router with its own stack changed. -/
def changeStack (router : Router) (change : StackChange) : Router :=
  { router with middlewares := change.apply router.middlewares }

/-- The router with the stack of one of its groups changed. -/
def changeGroupStack (router : Router) (group : Nat) (change : StackChange) : Router :=
  { router with
    groups := router.groups.modify group fun g => { g with middlewares := change.apply g.middlewares } }

end Router

end UrlRouter
