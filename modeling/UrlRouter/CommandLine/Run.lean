/-
Running the program.

A command loads the configuration, registers its routes and answers with one JSON value. Errors of the router and bad
values are reported as JSON on the error stream; what cannot be reported ends the program. Records of the log's level
go to the error stream, in front of the report.
-/
import UrlRouter.CommandLine.Command
import UrlRouter.CommandLine.Pairs
import UrlRouter.Config.Load
import UrlRouter.Http.Application
import UrlRouter.Json.Layout
import UrlRouter.Router.ErrorName

namespace UrlRouter.CommandLine

inductive RunError where
  | config (cause : ConfigError)
  | router (cause : RouterError)
  | pair (cause : PairError)
  | logFile (place : Location) (fault : FileFault)

namespace RunError

def kind : RunError → String
  | config cause => cause.kind
  | router cause => cause.kind
  | pair _ => "ValueError"
  | logFile _ fault => fault.kind

def message : RunError → String
  | config cause => cause.message
  | router cause => cause.message
  | pair cause => cause.message
  | logFile place fault => fault.messageAt place

/-- the names of the errors that a command reports -/
def reportedKinds : List String := [
  "ValueError", "RouteSyntaxError", "DuplicateAttributeError", "InvalidRouteError", "DuplicateRouteError",
  "RouteNotFoundError", "MissingAttributeError", "AttributeMismatchError", "CacheError"]

def isReported (error : RunError) : Bool := reportedKinds.contains error.kind

def toJson (error : RunError) : Json := .ofFailure error.kind error.message

end RunError

/-- a command at work on a router -/
abbrev CommandM := ExceptT RunError (StateM RouterState)

namespace CommandM

def ofRouter {α : Type} (operation : RouterM α) : CommandM α :=
  ExceptT.mk do return (← operation.run).mapError .router

def orFail {ε α : Type} (wrap : ε → RunError) : Except ε α → CommandM α
  | .ok value => pure value
  | .error e => throw (wrap e)

def routesAnswer : CommandM Json := do
  let routes := (← get).router.routes
  return .object [("routes", .array (routes.map fun route =>
    let methods := route.sortedMethods.map Method.name
    .object [
      ("name", .string route.name), ("path", .string route.path),
      ("methods", if methods.isEmpty then .null else .ofStrings methods)]))]

def matchAnswer (method path : String) : CommandM Json := do
  let result ← ofRouter (RouterM.match' path method)
  return .object [
    ("status", .string result.status.name), ("route", Json.ofOption .string result.route),
    ("method", .string result.method),
    ("attributes", .ofTexts result.attributes),
    ("allowed_methods", .ofStrings result.allowed)]

def pairFields (arguments : List String) : CommandM (Mapping Json) := do
  let values ← orFail .pair (parsePairs arguments)
  return values.map fun (key, value) => (key, .string value)

def generateAnswer (name : String) (attributes query : List String) : CommandM Json := do
  let attributes ← pairFields attributes
  let query ← pairFields query
  let uri ← ofRouter (RouterM.generateUri name attributes query)
  return .object [("uri", .string uri)]

/-- The answer of a command; one that serves has none. -/
def answer : Command → CommandM Json
  | .serve _ _ => pure .null
  | .routes => routesAnswer
  | .match' method path => matchAnswer method path
  | .generate name attributes query => generateAnswer name attributes query

end CommandM

/-- A record on the console, if it is of some level at least and its message can be made. -/
def consoleLine? (now : String) (level : LogLevel) (record : LogRecord) : Option String :=
  match record.message with
  | .ok message =>
    if level.number ≤ record.level then some (" - ".intercalate [now, record.logger, record.levelName, message])
    else none
  | .error _ => none

/-- The lines of the console for what a router reported. -/
def consoleLines (clock : Clock) (level : LogLevel) (events : List RouterEvent) : List String :=
  (events.filterMap (·.moduleRecord? clock.elapsed)).filterMap (consoleLine? clock.now level)

/-- an application that waits for requests -/
structure Served where
  application : Application
  host : String
  port : Int

/-- how the program ends -/
inductive Outcome where
  /-- a command line that is not run -/
  | interrupted (cause : Interruption)
  | finished (code : Nat) (written : Written)
  | serving (served : Served)
  /-- an error that is not reported -/
  | failed (error : RunError)

/-- The report of an error, or the end of the program. -/
def Outcome.ofError (error : RunError) (written : Written) : Outcome :=
  if error.isReported then
    .finished 1 { written with stderr := written.stderr ++ [error.toJson.spaced] }
  else .failed error

/-- Runs a command that answers at once. -/
def runCommand (clock : Clock) (config : RouterConfig) (files : FileTree) (command : Command) : Outcome :=
  match Cache.ofConfig config.cache with
  | .error e => .ofError (.router (.store e)) { files }
  | .ok cache =>
    let work : CommandM Json := do
      CommandM.ofRouter (RouterM.addConfigured config.routes)
      CommandM.answer command
    let (result, state) := StateT.run work.run { router := .ofConfig config, cache, files }
    let written : Written :=
      { stderr := consoleLines clock config.logging.level state.events, files := state.files }
    match result with
    | .ok answer => .finished 0 { written with stdout := [answer.indented] }
    | .error e => .ofError e written

/-- Starts to serve; no error is reported. -/
def runServer (clock : Clock) (config : RouterConfig) (files : FileTree) (host : String) (port : Int) :
    Outcome :=
  match (Application.start config clock files).1 with
  | .error (.logFile place fault) => .failed (.logFile place fault)
  | .error (.router e) => .failed (.router e)
  | .ok application => .serving { application := application.announce clock, host, port }

/-- the files that a configured router may read or write -/
def filesOf (config : RouterConfig) : List Location :=
  let cached := if config.cache.enabled && config.cache.backend = .file then
      [Cache.fileOf (.ofText config.cache.directory) config.cache.key]
    else []
  match LogTarget.ofText config.logging.output with
  | .file place => place :: cached
  | _ => cached

/-- Runs the program with the arguments behind its name. -/
def run (clock : Clock) (environment : Environment) (files : FileTree) (arguments : List String) : Outcome :=
  match Invocation.ofTexts arguments with
  | .error cause => .interrupted cause
  | .ok { command := none, .. } => .finished 0 { stdout := [(programGrammar.help.dropEnd 1).toString], files }
  | .ok { config, command := some command } =>
    let place := Config.location config environment files
    match Config.load place environment files, command with
    | .error e, .serve _ _ => .failed (.config e)
    | .error e, _ => .ofError (.config e) { files }
    | .ok config, .serve host port => runServer clock config files host port
    | .ok config, command => runCommand clock config files command

end UrlRouter.CommandLine
