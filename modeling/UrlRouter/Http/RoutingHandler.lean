/-
The routing handler.

A request is matched, checked against the demands of its route and dispatched. Unknown paths, wrong methods and
refused requests are answered by a JSON error. While a request is handled the log carries its correlation id, and every
answer but the metrics page carries it in a header.
-/
import UrlRouter.Http.Dispatch
import UrlRouter.Metrics.Exposition
import UrlRouter.Router.Session

namespace UrlRouter

structure RoutingHandler where
  correlationHeader : String := defaultCorrelationHeader
  /-- where the metrics are shown, if they are -/
  metricsEndpoint : Option String := none
  /-- whether it tells the log the id of the current request -/
  marksLog : Bool := false

namespace RoutingHandler

def loggerName : String := "switchyard.middleware.routing"

def metricsContentType : String := "text/plain; version=0.0.4"

def metricsResponse (metrics : RouterMetrics) : Response :=
  { status := 200, contentType := metricsContentType, body := .text (Metrics.text metrics) }

def errorResponse (status : Nat) (error message correlationId now : String) (headers : Headers) : Response :=
  .ofJson status headers (.object [
    ("error", .string error), ("message", .string message), ("correlation_id", .string correlationId),
    ("timestamp", .string now)])

/-- The id of a request: its own, or a fresh one. Without a log to tell, an empty id counts as none. -/
def correlationIdOf (handler : RoutingHandler) (clock : Clock) (request : Request) : String :=
  let given := request.headers.get? handler.correlationHeader
  if handler.marksLog then LogTree.correlationFor given clock.freshId
  else
    match given with
    | none | some "" => clock.freshId
    | some id => id

/-- The answer with the correlation id: one that is there is kept, except on a raised answer. -/
def markAnswer (handler : RoutingHandler) (id : String) : Except Raised Response → Except Raised Response
  | .ok response =>
    .ok (if response.headers.has handler.correlationHeader then response
      else { response with headers := response.headers.set handler.correlationHeader id })
  | .error (.http name response) =>
    .error (.http name { response with headers := response.headers.set handler.correlationHeader id })
  | .error raised => .error raised

def notFound (handler : RoutingHandler) (clock : Clock) (id : String) : Response :=
  errorResponse 404 "not_found" "The requested resource was not found" id clock.now [(handler.correlationHeader, id)]

/-- The list of methods stands under its own name, also when the id was to stand there. -/
def methodNotAllowed (handler : RoutingHandler) (clock : Clock) (id method : String) (allowed : List String) :
    Response :=
  errorResponse 405 "method_not_allowed" ("Method " ++ method ++ " not allowed for this path") id clock.now
    (insertValue "Allow" (", ".intercalate allowed) [(handler.correlationHeader, id)])

def rejectRecord (id : String) (result : MatchResult) (request : Request) (authority : Authority) : LogRecord where
  logger := loggerName
  level := LogLevel.debug.number
  template := "Route " ++ result.route.getD "None" ++ " rejects request origin"
  fields := [
    ("correlation_id", .string id), ("scheme", .string request.scheme),
    ("host", Json.ofOption .string authority.host),
    ("port", Json.ofOption (fun port => .int (Int.ofNat port)) authority.port)]

def dispatchRecord (id : String) (result : MatchResult) (request : Request) : LogRecord where
  logger := loggerName
  level := LogLevel.debug.number
  template := "Dispatching request: " ++ request.method ++ " " ++ request.path
  fields := [
    ("correlation_id", .string id), ("route", Json.ofOption .string result.route),
    ("attributes", .object (result.attributes.map fun (name, value) => (name, .string value)))]

/-- what comes of a request, with the session and the site's state afterwards -/
structure Outcome (σ : Type) where
  answer : Except Raised Response
  session : Session
  state : σ

/-- Runs a matched request that its route accepts. -/
def dispatch {σ : Type} (handler : RoutingHandler) (clock : Clock) (site : Site σ) (id : String)
    (routed : RoutedRequest) (session : Session) (state : σ) : Outcome σ :=
  let session := session.write clock (dispatchRecord id routed.result routed.request)
  let (answer, state) := StateT.run (session.router.dispatch site routed).run state
  ⟨handler.markAnswer id answer, session, state⟩

/-- Answers a request whose match is known. -/
def answerMatch {σ : Type} (handler : RoutingHandler) (clock : Clock) (site : Site σ) (request : Request)
    (id : String) (result : MatchResult) (session : Session) (state : σ) : Outcome σ :=
  match result.status with
  | .methodNotAllowed => ⟨.ok (handler.methodNotAllowed clock id request.method result.allowed), session, state⟩
  | .notFound => ⟨.ok (handler.notFound clock id), session, state⟩
  | .found =>
    let registration := session.router.matched? result
    let routed : RoutedRequest := { request, result, registration }
    match registration with
    | none => handler.dispatch clock site id routed session state
    | some { route, .. } =>
      match request.authority? with
      | none => ⟨.error .badPort, session, state⟩
      | some authority =>
        if route.accepts request.scheme authority.host (authority.port.map Int.ofNat) then
          handler.dispatch clock site id routed session state
        else
          ⟨.ok (handler.notFound clock id), session.write clock (rejectRecord id result request authority), state⟩

/-- Matches a request and answers it. -/
def answer {σ : Type} (handler : RoutingHandler) (clock : Clock) (site : Site σ) (request : Request) (id : String)
    (session : Session) (state : σ) : Outcome σ :=
  match session.run clock (RouterM.match' request.rawPath request.method) with
  | (.error e, session) => ⟨.error (.router e), session, state⟩
  | (.ok result, session) => handler.answerMatch clock site request id result session state

/-- Handles a request from its arrival to its answer. -/
def handle {σ : Type} (handler : RoutingHandler) (clock : Clock) (site : Site σ) (request : Request)
    (session : Session) (state : σ) : Outcome σ :=
  match session.metrics with
  | some metrics =>
    if handler.metricsEndpoint = some request.path then ⟨.ok (metricsResponse metrics), session, state⟩
    else handled
  | none => handled
where
  handled : Outcome σ :=
    let id := handler.correlationIdOf clock request
    if handler.marksLog then
      let outcome := handler.answer clock site request id { session with log := session.log.setCorrelation id } state
      { outcome with session := { outcome.session with log := outcome.session.log.clearCorrelation } }
    else handler.answer clock site request id session state

end RoutingHandler

end UrlRouter
