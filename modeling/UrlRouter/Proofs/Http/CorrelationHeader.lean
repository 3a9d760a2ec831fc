/-
Which answers carry the id of their request.

Whatever leaves a handler as a response, given or raised, carries the id in the correlation header, with one exception:
the page that shows the metrics is answered before the request has an id. Nothing that leaves is a response if the match
fails, or if the request names no port that can be read while its route asks for one; otherwise, at a site where every
handler gives or raises a response, there is one.

Results:
- `RoutingHandler.arrive_cases`: what an arrival comes to, and when no response leaves.
- `Router.dispatch_answers`: at a site that answers, a stack of middlewares around a target answers.
- `responses_carry_id`: when a response leaves, that it has the header, and which id stands there.
- `metrics_page_unmarked`: a response without the header.
-/
import Mathlib.Tactic
import UrlRouter.Proofs.Http.Overlap

namespace UrlRouter

/-! ## Headers -/

namespace Headers

theorem sameName_self (name : String) : sameName name name = true := by simp [sameName]

theorem get?_cons_self (name value : String) (headers : Headers) :
    get? ((name, value) :: headers) name = some value := by
  simp [get?, sameName_self]

theorem get?_set_self (headers : Headers) (name value : String) : (headers.set name value).get? name = some value := by
  -- the headers that are kept have other names
  unfold get? set
  rw [List.find?_append, List.find?_eq_none.2, Option.none_or]
  · simp [sameName_self]
  · intro entry hentry
    simpa using (List.mem_filter.1 hentry).2

theorem has_of_get? {headers : Headers} {name value : String} (h : headers.get? name = some value) :
    headers.has name = true := by
  rw [has, h]
  rfl

end Headers

/-! ## Handlers that answer -/

/-- the response that is given or raised -/
def response? : Except Raised Response → Option Response
  | .ok response => some response
  | .error (.http _ response) => some response
  | .error _ => none

section Answers

variable {σ : Type}

/-- Whatever it is asked, the handler gives or raises a response. -/
def Handler.Answers (handler : Handler σ) : Prop :=
  ∀ routed state, (response? (StateT.run (handler routed).run state).1).isSome = true

/-- **Middlewares and targets give or raise a response.** A middleware does so around a handler that does. -/
structure Site.Answers (site : Site σ) : Prop where
  middleware : ∀ name (next : Handler σ), next.Answers → Handler.Answers (site.middleware name next)
  handler : ∀ name, (site.handler name).Answers
  downstream : site.downstream.Answers

variable {site : Site σ}

theorem wrap_answers (h : site.Answers) (middleware : Middleware) {next : Handler σ} (hnext : next.Answers) :
    (middleware.wrap site next).Answers := by
  intro routed
  unfold Middleware.wrap
  split_ifs
  · exact h.middleware middleware.name next hnext routed
  · exact hnext routed

theorem around_answers (h : site.Answers) (stack : MiddlewareStack) {endpoint : Handler σ}
    (hendpoint : endpoint.Answers) : Handler.Answers (stack.around site endpoint) := by
  induction stack with
  | nil => exact hendpoint
  | cons middleware stack ih => exact wrap_answers h middleware ih

theorem endpoint_answers (h : site.Answers) (registration : Option Registration) :
    (site.endpoint registration).Answers := by
  unfold Site.endpoint
  split
  · exact h.handler _
  · exact h.downstream

theorem Router.dispatch_answers (h : site.Answers) (router : Router) : (router.dispatch site).Answers :=
  fun routed => around_answers h (router.fullStack routed.registration) (endpoint_answers h routed.registration) routed

end Answers

/-! ## The id on a response -/

namespace RoutingHandler

variable {σ : Type} {handler : RoutingHandler} {clock : Clock}

/-- Marking a response leaves a response, with the header. -/
theorem response?_markAnswer (handler : RoutingHandler) (id : String) (answer : Except Raised Response) :
    (response? (handler.markAnswer id answer)).isSome = (response? answer).isSome ∧
    ∀ response, response? (handler.markAnswer id answer) = some response →
      response.headers.has handler.correlationHeader = true := by
  cases answer with
  | ok given =>
    refine ⟨rfl, fun response hresponse => ?_⟩
    obtain rfl : _ = response := Option.some.inj hresponse
    split_ifs with hthere
    · exact hthere
    · exact Headers.has_of_get? (Headers.get?_set_self _ _ _)
  | error raised =>
    cases raised with
    | http name given =>
      refine ⟨rfl, fun response hresponse => ?_⟩
      obtain rfl : _ = response := Option.some.inj hresponse
      exact Headers.has_of_get? (Headers.get?_set_self _ _ _)
    | router | badPort | other => exact ⟨rfl, fun response hresponse => (by cases hresponse)⟩

/-- A response that is raised carries the id itself. -/
theorem get?_of_markAnswer_eq_http {id name : String} {answer : Except Raised Response} {response : Response}
    (h : handler.markAnswer id answer = .error (.http name response)) :
    response.headers.get? handler.correlationHeader = some id := by
  cases answer with
  | ok given => cases h
  | error raised =>
    cases raised with
    | http name' given =>
      cases h
      exact Headers.get?_set_self _ _ _
    | router | badPort | other => cases h

theorem get?_notFound (handler : RoutingHandler) (clock : Clock) (id : String) :
    (handler.notFound clock id).headers.get? handler.correlationHeader = some id := Headers.get?_cons_self _ _ []

/-- The list of methods takes the place of the id only under its very own name. -/
theorem get?_methodNotAllowed (handler : RoutingHandler) (clock : Clock) (id method : String) (allowed : List String) :
    (handler.methodNotAllowed clock id method allowed).headers.get? handler.correlationHeader =
      some (if handler.correlationHeader = "Allow" then ", ".intercalate allowed else id) := by
  show Headers.get? (insertValue "Allow" _ [(handler.correlationHeader, id)]) handler.correlationHeader = _
  rw [insertValue]
  split_ifs
  · exact Headers.get?_cons_self _ _ []
  · exact Headers.get?_cons_self _ _ _

/-! ## What comes of a request -/

/-- No response leaves: the match fails, or the route of the request is known and the port of the request cannot be
read. -/
def Stops (handler : RoutingHandler) (clock : Clock) (request : Request) (session : Session) : Prop :=
  let entered := handler.enter (handler.correlationIdOf clock request) session
  match entered.run clock (RouterM.match' request.rawPath request.method) with
  | (.error _, _) => True
  | (.ok result, after) =>
    result.status = .found ∧ (after.router.matched? result).isSome = true ∧ request.authority? = none

/-- **An arrival** gives an answer of the handler itself, stops, or is admitted. -/
theorem arrive_cases (handler : RoutingHandler) (clock : Clock) (request : Request) (session : Session) :
    (¬handler.Stops clock request session ∧ ∃ response,
      (handler.arrive clock request session).1 = .answered (.ok response) ∧
        OwnAnswer handler clock request (handler.correlationIdOf clock request) response) ∨
    (handler.Stops clock request session ∧ ∃ raised,
      (handler.arrive clock request session).1 = .answered (.error raised) ∧ response? (.error raised) = none) ∨
    (¬handler.Stops clock request session ∧ ∃ routed,
      (handler.arrive clock request session).1 = .admitted routed) := by
  unfold arrive receive Stops
  dsimp only
  generalize handler.correlationIdOf clock request = id
  rcases (handler.enter id session).run clock (RouterM.match' request.rawPath request.method) with ⟨matched, after⟩
  cases matched with
  | error e => exact .inr (.inl ⟨trivial, _, rfl, rfl⟩)
  | ok result =>
    dsimp only
    have hverdict := handler.judge_verdict clock request id result after
    generalize (handler.judge clock request id result after).1 = arrival at *
    cases hverdict with
    | admitted routed hfound haccepts =>
      refine .inr (.inr ⟨fun ⟨_, hknown, hport⟩ => ?_, routed, rfl⟩)
      -- a route that accepts the request can read its port
      obtain ⟨registration, hmatched⟩ := Option.isSome_iff_exists.1 hknown
      obtain ⟨authority, hauthority, -⟩ := haccepts registration hmatched
      rw [hport] at hauthority
      cases hauthority
    | refused _ hport => exact .inl ⟨fun ⟨_, _, hnone⟩ => hport hnone, _, rfl, .notFound⟩
    | badPort hfound hport hmatched => exact .inr (.inl ⟨⟨hfound, by simp [hmatched], hport⟩, _, rfl, rfl⟩)
    | unmatched hstatus hown => exact .inl ⟨fun ⟨hfound, _⟩ => hstatus hfound, _, rfl, hown⟩

/-- An answer of the handler itself carries the id, unless the list of methods has its place. -/
theorem OwnAnswer.get? {request : Request} {id : String} {response : Response}
    (h : OwnAnswer handler clock request id response) :
    response.headers.has handler.correlationHeader = true ∧
      (response.headers.get? handler.correlationHeader = some id ∨
        response.status = 405 ∧ handler.correlationHeader = "Allow") := by
  cases h with
  | notFound =>
    have hid := get?_notFound handler clock id
    exact ⟨Headers.has_of_get? hid, .inl hid⟩
  | methodNotAllowed allowed =>
    have hthere := get?_methodNotAllowed handler clock id request.method allowed
    refine ⟨Headers.has_of_get? hthere, ?_⟩
    split_ifs at hthere with hallow
    · exact .inr ⟨rfl, hallow⟩
    · exact .inl hthere

/-- The page with the metrics is answered at once. -/
theorem handle_of_showsMetrics (clock : Clock) (site : Site σ) {request : Request} {session : Session} (state : σ)
    (h : handler.showsMetrics session request = true) :
    ∃ metrics, (handler.handle clock site request session state).answer = .ok (metricsResponse metrics) := by
  rcases handler.handle_cases clock request session with ⟨-, metrics, hhandle⟩ | ⟨hother, -⟩
  · exact ⟨metrics, by rw [hhandle]⟩
  · rw [h] at hother
    cases hother

/-- **What comes of a request**: an answer of the handler itself, none at all, or the marked answer of the site. -/
theorem handle_of_answers (clock : Clock) {site : Site σ} (hsite : site.Answers) {request : Request}
    {session : Session} (state : σ) (hpage : handler.showsMetrics session request = false) :
    let answer := (handler.handle clock site request session state).answer
    let id := handler.correlationIdOf clock request
    (¬handler.Stops clock request session ∧ ∃ response,
      (handler.arrive clock request session).1 = .answered (.ok response) ∧
        answer = .ok response ∧ OwnAnswer handler clock request id response) ∨
    (handler.Stops clock request session ∧ (∃ raised,
      (handler.arrive clock request session).1 = .answered (.error raised)) ∧ response? answer = none) ∨
    (¬handler.Stops clock request session ∧ (∃ routed,
      (handler.arrive clock request session).1 = .admitted routed) ∧ ∃ given,
        (response? given).isSome = true ∧ answer = handler.markAnswer id given) := by
  intro answer id
  have hanswer : answer = (handler.settle site id state (handler.arrive clock request session)).answer := by
    show (handler.handle clock site request session state).answer = _
    rw [handler.handle_eq clock site request session state hpage]
  have hcases := handler.arrive_cases clock request session
  generalize handler.arrive clock request session = arrived at *
  obtain ⟨arrival, after⟩ := arrived
  rcases hcases with ⟨hstops, response, harrived, hown⟩ | ⟨hstops, raised, harrived, hnone⟩ | ⟨hstops, routed, harrived⟩
  · obtain rfl : arrival = .answered (.ok response) := harrived
    exact .inl ⟨hstops, response, rfl, hanswer, hown⟩
  · obtain rfl : arrival = .answered (.error raised) := harrived
    exact .inr (.inl ⟨hstops, ⟨raised, rfl⟩, hanswer ▸ hnone⟩)
  · obtain rfl : arrival = .admitted routed := harrived
    exact .inr (.inr ⟨hstops, ⟨routed, rfl⟩, _, after.router.dispatch_answers hsite routed state, hanswer⟩)

theorem correlationIdOf_eq {request : Request} {id : String}
    (h : request.headers.get? handler.correlationHeader = some id) (hempty : id ≠ "") :
    handler.correlationIdOf clock request = id := by
  unfold correlationIdOf
  rw [h]
  split_ifs
  · rfl
  · dsimp only
    split
    · rename_i hnone
      cases hnone
    · rename_i hgiven
      exact absurd (Option.some.inj hgiven) hempty
    · rename_i hgiven
      exact (Option.some.inj hgiven).symm

end RoutingHandler

/-- **Which responses carry the id**, at a site whose middlewares and targets give or raise a response.
- Whatever leaves as a response has the header, unless it is the page with the metrics.
- A response leaves unless the match fails, or the route of the request is known and its port cannot be read.
- A response that is raised carries the id of the request, and so does an answer of the handler itself, unless the
  header has the name that the list of allowed methods has.
- The id is the one that the request brings, if it brings one that is not empty. -/
theorem responses_carry_id {σ : Type} (handler : RoutingHandler) (clock : Clock) (site : Site σ)
    (hsite : site.Answers) (request : Request) (session : Session) (state : σ) :
    let answer := (handler.handle clock site request session state).answer
    let id := handler.correlationIdOf clock request
    (∀ response, response? answer = some response →
      (response.headers.has handler.correlationHeader = true ↔ handler.showsMetrics session request = false)) ∧
    (response? answer = none ↔
      handler.showsMetrics session request = false ∧ handler.Stops clock request session) ∧
    (∀ name response, answer = .error (.http name response) →
      response.headers.get? handler.correlationHeader = some id) ∧
    (∀ response, handler.showsMetrics session request = false →
      (handler.arrive clock request session).1 = .answered (.ok response) →
      answer = .ok response ∧ RoutingHandler.OwnAnswer handler clock request id response ∧
        (response.headers.get? handler.correlationHeader = some id ∨
          response.status = 405 ∧ handler.correlationHeader = "Allow")) ∧
    ∀ given, request.headers.get? handler.correlationHeader = some given → given ≠ "" → id = given := by
  intro answer id
  have hid : ∀ given, request.headers.get? handler.correlationHeader = some given → given ≠ "" → id = given :=
    fun given h hempty => RoutingHandler.correlationIdOf_eq h hempty
  cases hpage : handler.showsMetrics session request with
  | true =>
    obtain ⟨metrics, hanswer⟩ := RoutingHandler.handle_of_showsMetrics clock site state hpage
    have hanswer : answer = .ok (RoutingHandler.metricsResponse metrics) := hanswer
    rw [hanswer]
    refine ⟨fun response hresponse => ?_, by simp [response?], fun _ _ h => (by cases h), fun _ h => (by cases h), hid⟩
    obtain rfl : _ = response := Option.some.inj hresponse
    exact ⟨fun h => (by cases h), fun h => (by cases h)⟩
  | false =>
    have hcases := RoutingHandler.handle_of_answers clock hsite state hpage
    rcases hcases with ⟨hstops, response, harrived, hanswer, hown⟩ | ⟨hstops, ⟨raised, harrived⟩, hnone⟩ |
      ⟨hstops, ⟨routed, harrived⟩, given, hgiven, hanswer⟩
    · have hanswer : answer = .ok response := hanswer
      rw [hanswer, harrived]
      refine ⟨fun other hother => ?_, by simp [response?, hstops], fun _ _ h => (by cases h),
        fun other _ hother => ?_, hid⟩
      · obtain rfl : response = other := Option.some.inj hother
        exact ⟨fun _ => rfl, fun _ => hown.get?.1⟩
      · cases hother
        exact ⟨rfl, hown, hown.get?.2⟩
    · have hnone : response? answer = none := hnone
      rw [hnone, harrived]
      refine ⟨fun _ h => (by cases h), by simp [hstops], fun name response h => ?_, fun _ _ h => (by cases h), hid⟩
      rw [h] at hnone
      cases hnone
    · have hanswer : answer = handler.markAnswer id given := hanswer
      obtain ⟨hsome, hmarked⟩ := handler.response?_markAnswer id given
      rw [hanswer, harrived]
      refine ⟨fun response h => ⟨fun _ => rfl, fun _ => hmarked response h⟩, ?_,
        fun name response h => RoutingHandler.get?_of_markAnswer_eq_http h, fun _ _ h => (by cases h), hid⟩
      rw [hgiven, Option.isSome_iff_ne_none] at hsome
      exact ⟨fun h => absurd h hsome, fun h => absurd h.2 hstops⟩

/-- a session at a router with one page that has moved, where the metrics are counted -/
def movedSession : Session where
  router := { registrations := [{ route := ⟨"/a", "a", none, [], none, none, none⟩, target := .handler "moved" }] }
  metrics := some {}

/-- an application that only raises responses -/
def movedSite : Site Unit where
  middleware := fun _ next => next
  handler := fun name _ => throw (.http name { status := 302, headers := [("Location", "/b")], body := .text "" })
  downstream := fun _ => throw (.http "missing" { status := 404, body := .text "" })

def movedHandler : RoutingHandler where
  metricsEndpoint := some "/metrics"

def movedRequest (path : String) : Request where
  method := "GET"
  rawPath := path
  headers := [(defaultCorrelationHeader, "A")]

theorem movedSite_answers : movedSite.Answers where
  middleware := fun _ _ hnext => hnext
  handler := fun _ _ _ => rfl
  downstream := fun _ _ => rfl

/-- The response that says where the page is now is raised, and carries the id of the request. -/
theorem movedPage_marked :
    movedSite.Answers ∧ ∃ name response,
      (movedHandler.handle stillClock movedSite (movedRequest "/a") movedSession ()).answer =
        .error (.http name response) ∧
      response.status = 302 ∧ response.headers.get? defaultCorrelationHeader = some "A" := by
  obtain ⟨-, -, hraised, -, hid⟩ :=
    responses_carry_id movedHandler stillClock movedSite movedSite_answers (movedRequest "/a") movedSession ()
  have hnone : (movedHandler.handle stillClock movedSite (movedRequest "/a") movedSession ()).answer.toOption.isNone =
      true := by decide +kernel
  have hstatus : (response? (movedHandler.handle stillClock movedSite (movedRequest "/a") movedSession ()).answer).map
      (·.status) = some 302 := by decide +kernel
  generalize (movedHandler.handle stillClock movedSite (movedRequest "/a") movedSession ()).answer = answer at *
  cases answer with
  | ok response => cases hnone
  | error raised =>
    cases raised with
    | http name response =>
      refine ⟨movedSite_answers, name, response, rfl, Option.some.inj hstatus, ?_⟩
      rw [← hid "A" (by decide +kernel) (by decide)]
      exact hraised name response rfl
    | router | badPort | other => cases hstatus

/-- **The page with the metrics is unmarked**, though the request brings an id and everything else at that handler would
carry it. -/
theorem metrics_page_unmarked :
    movedSite.Answers ∧ (movedRequest "/metrics").headers.get? movedHandler.correlationHeader = some "A" ∧ ∃ response,
      (movedHandler.handle stillClock movedSite (movedRequest "/metrics") movedSession ()).answer = .ok response ∧
      response.headers.get? movedHandler.correlationHeader = none := by
  have hpage : movedHandler.showsMetrics movedSession (movedRequest "/metrics") = true := by decide +kernel
  obtain ⟨metrics, hanswer⟩ := RoutingHandler.handle_of_showsMetrics stillClock movedSite () hpage
  exact ⟨movedSite_answers, by decide +kernel, _, hanswer, rfl⟩

end UrlRouter
