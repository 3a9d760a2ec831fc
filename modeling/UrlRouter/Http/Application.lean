/-
Applications.

An application is made from a configuration: its log, its metrics, its router with the configured routes, and the
routing handler in front.
-/
import UrlRouter.Http.RoutingHandler

namespace UrlRouter

structure Application where
  environment : String
  session : Session
  handler : RoutingHandler

inductive ApplicationError where
  | logFile (place : Location) (fault : FileFault)
  | router (cause : RouterError)

namespace Application

def loggerName : String := "switchyard.core.app"

/-- Builds all parts; what was logged before a failure is kept beside it. -/
def start (config : RouterConfig) (clock : Clock) (files : FileTree) :
    Except ApplicationError Application × Written :=
  match LogTree.configure config.logging files {} with
  | (_, files, some (place, fault)) => (.error (.logFile place fault), { files })
  | (log, files, none) =>
    match Cache.ofConfig config.cache with
    | .error e => (.error (.router (.store e)), { files })
    | .ok cache =>
      let session : Session := {
        router := .ofConfig config
        cache
        log
        metrics := if config.metrics.enabled then some {} else none
        written := { files } }
      match session.run clock (RouterM.addConfigured config.routes) with
      | (.error e, session) => (.error (.router e), session.written)
      | (.ok (), session) =>
        (.ok {
          environment := config.environment
          session
          handler := {
            correlationHeader := config.logging.correlationIdHeader
            metricsEndpoint := some config.metrics.endpoint
            marksLog := true } }, session.written)

def createdRecord (app : Application) : LogRecord where
  logger := loggerName
  template := "Created router application in " ++ app.environment ++ " environment"
  fields := [
    ("environment", .string app.environment), ("routes", .int app.session.router.registrations.length),
    ("strategy", .string app.session.router.strategy), ("metrics", .bool app.session.metrics.isSome)]

/-- Says in the log that the application is complete. -/
def announce (app : Application) (clock : Clock) : Application :=
  { app with session := app.session.write clock app.createdRecord }

end Application

end UrlRouter
