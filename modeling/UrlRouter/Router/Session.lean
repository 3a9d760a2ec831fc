/-
A router with its log and its metrics.

Every operation of the router runs in a session, which turns the events it leaves behind into log lines and counts.
Times and fresh ids come from a clock outside.
-/
import UrlRouter.Log.Tree
import UrlRouter.Router.FromConfig

namespace UrlRouter

/-- what only the outside knows -/
structure Clock where
  now : String
  elapsed : Elapsed
  seconds : Float
  freshId : String

structure Session where
  router : Router
  cache : Option Cache := none
  log : LogTree := {}
  metrics : Option RouterMetrics := none
  /-- what was written to the streams and to files -/
  written : Written := {}

namespace Session

/-- Writes a record to the log. -/
def write (session : Session) (clock : Clock) (record : LogRecord) : Session :=
  { session with written := session.log.emit clock.now record session.written }

/-- Logs and counts events. -/
def account (session : Session) (clock : Clock) (events : List RouterEvent) : Session :=
  { session with
    written := session.log.emitAll clock.now (events.filterMap (·.record? clock.elapsed)) session.written
    metrics := session.metrics.map fun metrics => events.foldl (RouterEvent.count clock.seconds) metrics }

/-- Runs an operation of the router. -/
def run {α : Type} (session : Session) (clock : Clock) (operation : RouterM α) : Except RouterError α × Session :=
  let (result, state) := StateT.run operation.run
    { router := session.router, cache := session.cache, files := session.written.files }
  let after : Session := { session with
    router := state.router
    cache := state.cache
    written := { session.written with files := state.files } }
  (result, after.account clock state.events)

end Session

end UrlRouter
