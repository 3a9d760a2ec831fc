/-
Running the middlewares and the target of a matched request.

Each middleware is given the handler that runs everything after it, and may call it or not. The innermost handler is
the target of the route, or the handler behind the router if the target cannot be called. What middlewares and targets
do is up to a site, which may keep a state of its own.
-/
import UrlRouter.Http.Message
import UrlRouter.Router.Basic

namespace UrlRouter

/-- a request with the outcome of matching it -/
structure RoutedRequest where
  request : Request
  result : MatchResult
  registration : Option Registration

/-- what leaves a handler that does not answer -/
inductive Raised where
  /-- an answer that is raised, under the name of its kind -/
  | http (name : String) (response : Response)
  | router (error : RouterError)
  | badPort
  | other (kind message : String)

abbrev Act (σ : Type) := ExceptT Raised (StateM σ)

abbrev Handler (σ : Type) := RoutedRequest → Act σ Response

/-- the application around a router: what its middlewares and handlers do -/
structure Site (σ : Type) where
  middleware : String → Handler σ → Handler σ
  handler : String → Handler σ
  downstream : Handler σ

/-- A middleware around a handler; out of its scope only the handler runs. -/
def Middleware.wrap {σ : Type} (site : Site σ) (middleware : Middleware) (next : Handler σ) : Handler σ :=
  fun routed =>
    if middleware.appliesTo routed.request.path then site.middleware middleware.name next routed else next routed

/-- The middlewares of a stack around a handler, the first one outermost. -/
def MiddlewareStack.around {σ : Type} (site : Site σ) (stack : MiddlewareStack) (endpoint : Handler σ) : Handler σ :=
  stack.foldr (Middleware.wrap site) endpoint

/-- the innermost handler of a request -/
def Site.endpoint {σ : Type} (site : Site σ) (registration : Option Registration) : Handler σ :=
  match registration.bind (·.target.handler?) with
  | some name => site.handler name
  | none => site.downstream

/-- all middlewares of a request: those of the router, of the group and of the route -/
def Router.fullStack (router : Router) (registration : Option Registration) : MiddlewareStack :=
  router.middlewares ++ (registration.map router.stackOf).getD []

def Router.dispatch {σ : Type} (router : Router) (site : Site σ) : Handler σ :=
  fun routed => (router.fullStack routed.registration).around site (site.endpoint routed.registration) routed

end UrlRouter
