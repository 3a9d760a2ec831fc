/-
How a request arrives at a handler.

To handle a request is to let it arrive, to run its middlewares and its target if it is admitted, and to let it leave; the
page with the metrics comes before all of this. Only what is admitted reaches the site. `Verdict` lists everything that an
arrival can come to once its match is known.

Results:
- `RoutingHandler.judge_verdict`: every case of judging a request, with what is known of its route then.
- `RoutingHandler.handle_cases`: the page with the metrics, or an arrival that is settled and leaves.
-/
import Mathlib.Tactic
import UrlRouter.Http.RoutingHandler

namespace UrlRouter

/-- the route accepts the scheme, the host and the port of a request -/
def Route.Accepts (route : Route) (request : Request) : Prop :=
  ∃ authority, request.authority? = some authority ∧
    route.accepts request.scheme authority.host (authority.port.map Int.ofNat) = true

instance (route : Route) (request : Request) : Decidable (route.Accepts request) :=
  match hauthority : request.authority? with
  | none => isFalse fun ⟨_, h, _⟩ => by rw [hauthority] at h; cases h
  | some authority =>
    decidable_of_iff (route.accepts request.scheme authority.host (authority.port.map Int.ofNat) = true)
      ⟨fun h => ⟨authority, hauthority, h⟩, fun ⟨_, h, haccepts⟩ => by
        rw [hauthority] at h
        cases h
        exact haccepts⟩

/-! ## Arriving and leaving -/

namespace RoutingHandler

variable {σ : Type}

/-- What comes of an arrival: an answer at once, or a matched request whose middlewares and target are to run. -/
inductive Arrival where
  | answered (answer : Except Raised Response)
  | admitted (routed : RoutedRequest)

/-- the session in which a request with that id is the current one -/
def enter (handler : RoutingHandler) (id : String) (session : Session) : Session :=
  if handler.marksLog then { session with log := session.log.setCorrelation id } else session

/-- the session in which no request is -/
def leave (handler : RoutingHandler) (session : Session) : Session :=
  if handler.marksLog then { session with log := session.log.clearCorrelation } else session

/-- Judges a request whose match is known. -/
def judge (handler : RoutingHandler) (clock : Clock) (request : Request) (id : String) (result : MatchResult)
    (session : Session) : Arrival × Session :=
  match result.status with
  | .methodNotAllowed => (.answered (.ok (handler.methodNotAllowed clock id request.method result.allowed)), session)
  | .notFound => (.answered (.ok (handler.notFound clock id)), session)
  | .found =>
    let registration := session.router.matched? result
    let admitted := (.admitted { request, result, registration }, session.write clock (dispatchRecord id result request))
    match registration with
    | none => admitted
    | some { route, .. } =>
      match request.authority? with
      | none => (.answered (.error .badPort), session)
      | some authority =>
        if route.accepts request.scheme authority.host (authority.port.map Int.ofNat) then admitted
        else
          (.answered (.ok (handler.notFound clock id)),
            session.write clock (rejectRecord id result request authority))

/-- Matches a request and judges it. -/
def receive (handler : RoutingHandler) (clock : Clock) (request : Request) (id : String) (session : Session) :
    Arrival × Session :=
  match session.run clock (RouterM.match' request.rawPath request.method) with
  | (.error e, session) => (.answered (.error (.router e)), session)
  | (.ok result, session) => handler.judge clock request id result session

/-- Handles a request until its middlewares and its target run. -/
def arrive (handler : RoutingHandler) (clock : Clock) (request : Request) (session : Session) : Arrival × Session :=
  let id := handler.correlationIdOf clock request
  handler.receive clock request id (handler.enter id session)

/-- Runs what an arrival left to run. -/
def settle (handler : RoutingHandler) (site : Site σ) (id : String) (state : σ) :
    Arrival × Session → Outcome σ
  | (.answered answer, session) => ⟨answer, session, state⟩
  | (.admitted routed, session) =>
    let (answer, state) := StateT.run (session.router.dispatch site routed).run state
    ⟨handler.markAnswer id answer, session, state⟩

/-- whether the metrics are shown instead -/
def showsMetrics (handler : RoutingHandler) (session : Session) (request : Request) : Bool :=
  session.metrics.isSome && handler.metricsEndpoint = some request.path

/-- the answers that a handler gives by itself -/
inductive OwnAnswer (handler : RoutingHandler) (clock : Clock) (request : Request) (id : String) : Response → Prop
  | notFound : OwnAnswer handler clock request id (handler.notFound clock id)
  | methodNotAllowed (allowed : List String) :
      OwnAnswer handler clock request id (handler.methodNotAllowed clock id request.method allowed)

theorem answerMatch_eq (handler : RoutingHandler) (clock : Clock) (site : Site σ) (request : Request) (id : String)
    (result : MatchResult) (session : Session) (state : σ) :
    handler.answerMatch clock site request id result session state =
      handler.settle site id state (handler.judge clock request id result session) := by
  unfold answerMatch judge
  cases result.status with
  | methodNotAllowed => rfl
  | notFound => rfl
  | found =>
    dsimp only
    cases session.router.matched? result with
    | none => rfl
    | some registration =>
      dsimp only
      cases request.authority? with
      | none => rfl
      | some authority =>
        dsimp only
        split_ifs <;> rfl

theorem answer_eq (handler : RoutingHandler) (clock : Clock) (site : Site σ) (request : Request) (id : String)
    (session : Session) (state : σ) : handler.answer clock site request id session state =
      handler.settle site id state (handler.receive clock request id session) := by
  unfold answer receive
  rcases session.run clock (RouterM.match' request.rawPath request.method) with ⟨matched, after⟩
  cases matched with
  | error e => rfl
  | ok result => exact answerMatch_eq handler clock site request id result after state

/-- what judging a request can come to -/
inductive Verdict (handler : RoutingHandler) (clock : Clock) (request : Request) (id : String) (result : MatchResult)
    (session : Session) : Arrival → Prop
  | admitted (routed : RoutedRequest) (hfound : result.status = .found)
      (haccepts : ∀ registration, session.router.matched? result = some registration →
        registration.route.Accepts request) :
      Verdict handler clock request id result session (.admitted routed)
  | refused (hfound : result.status = .found) (hport : request.authority? ≠ none) {registration : Registration}
      (hmatched : session.router.matched? result = some registration)
      (hrejects : ¬registration.route.Accepts request) :
      Verdict handler clock request id result session (.answered (.ok (handler.notFound clock id)))
  | badPort (hfound : result.status = .found) (hport : request.authority? = none) {registration : Registration}
      (hmatched : session.router.matched? result = some registration) :
      Verdict handler clock request id result session (.answered (.error .badPort))
  | unmatched (hstatus : result.status ≠ .found) {response : Response}
      (hown : OwnAnswer handler clock request id response) :
      Verdict handler clock request id result session (.answered (.ok response))

/-- **Judging a request** comes to one of these. -/
theorem judge_verdict (handler : RoutingHandler) (clock : Clock) (request : Request) (id : String)
    (result : MatchResult) (session : Session) :
    Verdict handler clock request id result session (handler.judge clock request id result session).1 := by
  unfold judge
  cases hstatus : result.status with
  | methodNotAllowed => exact .unmatched (by simp [hstatus]) (.methodNotAllowed result.allowed)
  | notFound => exact .unmatched (by simp [hstatus]) .notFound
  | found =>
    dsimp only
    cases hmatched : session.router.matched? result with
    | none => exact .admitted _ hstatus fun _ h => by rw [hmatched] at h; cases h
    | some registration =>
      dsimp only
      cases hauthority : request.authority? with
      | none => exact .badPort hstatus hauthority hmatched
      | some authority =>
        have haccepts : registration.route.Accepts request ↔
            registration.route.accepts request.scheme authority.host (authority.port.map Int.ofNat) = true := by
          simp [Route.Accepts, hauthority]
        dsimp only
        split_ifs with h
        · refine .admitted _ hstatus fun other hother => ?_
          obtain rfl : registration = other := Option.some.inj (hmatched.symm.trans hother)
          exact haccepts.2 h
        · exact .refused hstatus (by simp [hauthority]) hmatched fun hreg => h (haccepts.1 hreg)

/-- **To handle a request** is to show the metrics, or to let it arrive, to run its middlewares and its target, and to let
it leave. -/
theorem handle_cases (handler : RoutingHandler) (clock : Clock) (request : Request) (session : Session) :
    (handler.showsMetrics session request = true ∧ ∃ metrics, ∀ (site : Site σ) state,
      handler.handle clock site request session state = ⟨.ok (metricsResponse metrics), session, state⟩) ∨
    (handler.showsMetrics session request = false ∧ ∀ (site : Site σ) state,
      handler.handle clock site request session state =
        let outcome := handler.settle site (handler.correlationIdOf clock request) state
          (handler.arrive clock request session)
        { outcome with session := handler.leave outcome.session }) := by
  have hhandled : ∀ (site : Site σ) state, handle.handled handler clock site request session state =
      let outcome := handler.settle site (handler.correlationIdOf clock request) state
        (handler.arrive clock request session)
      { outcome with session := handler.leave outcome.session } := by
    intro site state
    rw [handle.handled]
    cases hmarks : handler.marksLog with
    | false => simp only [hmarks, Bool.false_eq_true, if_false, arrive, enter, leave, answer_eq]
    | true => simp only [hmarks, if_true, arrive, enter, leave, answer_eq]
  unfold showsMetrics handle
  cases session.metrics with
  | none => exact .inr ⟨rfl, hhandled⟩
  | some metrics =>
    by_cases hpage : handler.metricsEndpoint = some request.path
    · exact .inl ⟨by simp [hpage], metrics, fun site state => by simp only [if_pos hpage]⟩
    · refine .inr ⟨by simp [hpage], fun site state => ?_⟩
      simp only [if_neg hpage, hhandled]

theorem handle_eq (handler : RoutingHandler) (clock : Clock) (site : Site σ) (request : Request) (session : Session)
    (state : σ) (hpage : handler.showsMetrics session request = false) :
    handler.handle clock site request session state =
      let outcome := handler.settle site (handler.correlationIdOf clock request) state
        (handler.arrive clock request session)
      { outcome with session := handler.leave outcome.session } := by
  rcases handler.handle_cases clock request session with ⟨hmetrics, -⟩ | ⟨-, hhandle⟩
  · rw [hpage] at hmetrics
    cases hmetrics
  · exact hhandle site state

end RoutingHandler

end UrlRouter
