/-
Requests that overlap.

A request is handled in one go until its middlewares and its target run; there it may wait while others come and go. The
log has one place for the id of the current request. Every arrival puts its own id there, and whoever leaves empties it.
So the lines of a request carry its id up to the point where it may wait; from then on a line carries the id of the
request that came last, and none at all once any request has left.

Results:
- `RoutingHandler.arrive_eq_work`: an arrival enters its id and then works in the session like any target.
- `Service.stamps_run`: which id the log puts on its lines, after any happenings in any order.
- `overlapping_lines`: which id the lines of overlapping requests carry, and when it is their own.
- `foreign_id_carried`: a line with the id of another request, and one with none.
-/
import Mathlib.Tactic
import UrlRouter.Proofs.Http.Arrival

namespace UrlRouter

/-! ## The id on a line -/

/-- the record with that id in place of its own -/
def LogRecord.marked (record : LogRecord) (id : String) : LogRecord :=
  { record with fields := insertValue Log.correlationField (.string id) record.fields }

namespace LogTree

variable {log : LogTree} {id other : String}

/-- An empty id is shown like none. -/
def shownId (id : String) : String := if id = "" then Log.noCorrelation else id

theorem stamp_some (id : String) (record : LogRecord) : stamp (some id) record = record.marked (shownId id) := by
  by_cases hempty : id = ""
  · rw [hempty]
    rfl
  · rw [shownId, if_neg hempty]
    simp [stamp, LogRecord.marked]

/-- The outlet is there, and every record that is formatted for it carries the id. -/
def Stamps (log : LogTree) (id : String) : Prop :=
  ∃ outlet, log.outlet = some outlet ∧ ∀ record, stamp outlet.correlationId record = record.marked id

/-- A log puts one id on its lines. -/
theorem Stamps.unique (h : log.Stamps id) (hother : log.Stamps other) : id = other := by
  obtain ⟨outlet, houtlet, hid⟩ := h
  obtain ⟨outlet', houtlet', hid'⟩ := hother
  obtain rfl : outlet = outlet' := Option.some.inj (houtlet.symm.trans houtlet')
  have hsame := (hid { template := "" }).symm.trans (hid' { template := "" })
  have hfields : [(Log.correlationField, Json.string id)] = [(Log.correlationField, Json.string other)] :=
    congrArg LogRecord.fields hsame
  simpa using hfields

theorem stamps_setCorrelation (h : log.Stamps other) (id : String) : (log.setCorrelation id).Stamps (shownId id) := by
  obtain ⟨outlet, houtlet, -⟩ := h
  refine ⟨{ outlet with correlationId := some id }, ?_, stamp_some id⟩
  rw [setCorrelation, houtlet]
  rfl

theorem stamps_clearCorrelation (h : log.Stamps other) : log.clearCorrelation.Stamps Log.noCorrelation := by
  obtain ⟨outlet, houtlet, -⟩ := h
  refine ⟨{ outlet with correlationId := none }, ?_, fun _ => rfl⟩
  rw [clearCorrelation, houtlet]
  rfl

theorem emitAll_append (log : LogTree) (now : String) (records further : List LogRecord) (written : Written) :
    log.emitAll now (records ++ further) written = log.emitAll now further (log.emitAll now records written) :=
  List.foldl_append

end LogTree

/-- **All lines that were written in between carry that id**, and so would any other. Files may have changed as well. -/
structure LinesCarry (id now : String) (before after : Session) : Prop where
  stamps : after.log.Stamps id
  lines : ∃ records files, after.written = after.log.emitAll now records { before.written with files }

/-- Lines do not carry two ids. -/
theorem LinesCarry.unique {id other now : String} {before after : Session} (h : LinesCarry id now before after)
    (hother : LinesCarry other now before after) : id = other :=
  h.stamps.unique hother.stamps

/-! ## Work in a session -/

namespace Session

variable {α : Type}

/-- What is done for a request in one go: the router is used, and records are written. -/
def work (session : Session) (clock : Clock) (operation : RouterM α) (records : List LogRecord) : Session :=
  records.foldl (·.write clock) (session.run clock operation).2

theorem log_foldl_write (session : Session) (clock : Clock) (records : List LogRecord) :
    (records.foldl (·.write clock) session).log = session.log := by
  induction records generalizing session with
  | nil => rfl
  | cons record records ih => exact ih (session.write clock record)

theorem written_foldl_write (session : Session) (clock : Clock) (records : List LogRecord) :
    (records.foldl (·.write clock) session).written = session.log.emitAll clock.now records session.written := by
  induction records generalizing session with
  | nil => rfl
  | cons record records ih => exact ih (session.write clock record)

@[simp] theorem log_work (session : Session) (clock : Clock) (operation : RouterM α) (records : List LogRecord) :
    (session.work clock operation records).log = session.log :=
  log_foldl_write (session.run clock operation).2 clock records

/-- **The lines of a piece of work** carry the id that the log has then. -/
theorem linesCarry_work {session : Session} {id : String} (h : session.log.Stamps id) (clock : Clock)
    (operation : RouterM α) (records : List LogRecord) :
    LinesCarry id clock.now session (session.work clock operation records) := by
  let state : RouterState := { router := session.router, cache := session.cache, files := session.written.files }
  let after := (StateT.run operation.run state).2
  rw [← log_work session clock operation records] at h
  refine ⟨h, after.events.filterMap (·.record? clock.elapsed) ++ records, after.files, ?_⟩
  rw [log_work, LogTree.emitAll_append]
  exact written_foldl_write (session.run clock operation).2 clock records

end Session

/-! ## What an arrival writes -/

namespace RoutingHandler

/-- Whatever comes of a request whose match is known, some records are written before it may wait. -/
theorem judge_eq_foldl (handler : RoutingHandler) (clock : Clock) (request : Request) (id : String)
    (result : MatchResult) (session : Session) : ∃ records : List LogRecord,
    (handler.judge clock request id result session).2 = records.foldl (·.write clock) session := by
  unfold judge
  split
  · exact ⟨[], rfl⟩
  · exact ⟨[], rfl⟩
  · dsimp only
    split
    · exact ⟨[_], rfl⟩
    · split
      · exact ⟨[], rfl⟩
      · split_ifs
        · exact ⟨[_], rfl⟩
        · exact ⟨[_], rfl⟩

/-- **An arrival** enters its id and then works in the session. -/
theorem arrive_eq_work (handler : RoutingHandler) (clock : Clock) (request : Request) (session : Session) :
    ∃ records, (handler.arrive clock request session).2 =
      (handler.enter (handler.correlationIdOf clock request) session).work clock
        (RouterM.match' request.rawPath request.method) records := by
  unfold arrive receive Session.work
  dsimp only
  split
  · rename_i hrun
    exact ⟨[], by rw [hrun]; rfl⟩
  · rename_i result after hrun
    obtain ⟨records, hrecords⟩ := judge_eq_foldl handler clock request (handler.correlationIdOf clock request) result
      after
    exact ⟨records, by rw [hrun]; exact hrecords⟩

end RoutingHandler

/-! ## Many requests at once -/

/-- what has become of the id in the log: a request came with it, or the request that came as that one has left -/
inductive Mark where
  | entered (id : String)
  | left (arrival : Nat)
  deriving DecidableEq, Repr

/-- The requests at one handler. They share its session, and each is known by its place in the history. -/
structure Service where
  session : Session
  history : List Mark := []

/-- What may happen next, at the points where requests wait. -/
inductive Happening where
  | arrives (clock : Clock) (request : Request)
  /-- a middleware or the target of a request goes on up to the next point where it waits -/
  | works (clock : Clock) (arrival : Nat) (operation : RouterM Unit) (records : List LogRecord)
  | leaves (arrival : Nat)

namespace Service

open LogTree (shownId)

variable {handler : RoutingHandler} {service : Service}

/-- the id of a request that has come and not left -/
def underway? (service : Service) (arrival : Nat) : Option String :=
  match service.history[arrival]? with
  | some (.entered id) => if .left arrival ∈ service.history then none else some id
  | _ => none

/-- One thing happens. A request that is answered at once leaves before anything else happens, one that shows the metrics
leaves no trace, and nothing is done for a request that is not there. -/
def step (handler : RoutingHandler) (service : Service) : Happening → Service
  | .arrives clock request =>
    if handler.showsMetrics service.session request then service
    else
      let entered := service.history ++ [.entered (handler.correlationIdOf clock request)]
      match handler.arrive clock request service.session with
      | (.admitted _, session) => ⟨session, entered⟩
      | (.answered _, session) => ⟨handler.leave session, entered ++ [.left service.history.length]⟩
  | .works clock arrival operation records =>
    if (service.underway? arrival).isSome then
      { service with session := service.session.work clock operation records }
    else service
  | .leaves arrival =>
    if (service.underway? arrival).isSome then
      ⟨handler.leave service.session, service.history ++ [.left arrival]⟩
    else service

def run (handler : RoutingHandler) (start : Session) (happenings : List Happening) : Service :=
  happenings.foldl (step handler) { session := start }

/-- the id of the request that came last, if none has left since -/
def currentId (service : Service) : String :=
  match service.history.getLast? with
  | some (.entered id) => shownId id
  | _ => Log.noCorrelation

theorem currentId_entered (session : Session) (history : List Mark) (id : String) :
    currentId ⟨session, history ++ [.entered id]⟩ = shownId id := by
  rw [currentId, List.getLast?_concat]

theorem currentId_left (session : Session) (history : List Mark) (arrival : Nat) :
    currentId ⟨session, history ++ [.left arrival]⟩ = Log.noCorrelation := by
  rw [currentId, List.getLast?_concat]

theorem stamps_enter (hmarks : handler.marksLog = true) {session : Session} {other : String}
    (h : session.log.Stamps other) (id : String) : (handler.enter id session).log.Stamps (shownId id) := by
  rw [RoutingHandler.enter, if_pos hmarks]
  exact LogTree.stamps_setCorrelation h id

theorem stamps_leave (hmarks : handler.marksLog = true) {session : Session} {other : String}
    (h : session.log.Stamps other) : (handler.leave session).log.Stamps Log.noCorrelation := by
  rw [RoutingHandler.leave, if_pos hmarks]
  exact LogTree.stamps_clearCorrelation h

theorem stamps_arrive (hmarks : handler.marksLog = true) {session : Session} {other : String}
    (h : session.log.Stamps other) (clock : Clock) (request : Request) :
    (handler.arrive clock request session).2.log.Stamps (shownId (handler.correlationIdOf clock request)) := by
  obtain ⟨records, hwork⟩ := handler.arrive_eq_work clock request session
  rw [hwork, Session.log_work]
  exact stamps_enter hmarks h _

/-- **One step** leaves the log with the id of the request that came last, or with none if one has left. -/
theorem stamps_step (hmarks : handler.marksLog = true) (h : service.session.log.Stamps service.currentId)
    (happening : Happening) :
    (step handler service happening).session.log.Stamps (step handler service happening).currentId := by
  cases happening with
  | arrives clock request =>
    have harrive := stamps_arrive hmarks h clock request
    rw [step]
    split_ifs
    · exact h
    · dsimp only
      split
      · rename_i harrival
        rw [harrival] at harrive
        rwa [currentId_entered]
      · rename_i harrival
        rw [harrival] at harrive
        rw [currentId_left]
        exact stamps_leave hmarks harrive
  | works clock arrival operation records =>
    rw [step]
    split_ifs
    · show (service.session.work clock operation records).log.Stamps service.currentId
      rwa [Session.log_work]
    · exact h
  | leaves arrival =>
    rw [step]
    split_ifs
    · rw [currentId_left]
      exact stamps_leave hmarks h
    · exact h

/-- **After any happenings** the log puts that id on its lines. -/
theorem stamps_run (hmarks : handler.marksLog = true) {start : Session}
    (hstart : start.log.Stamps Log.noCorrelation) (happenings : List Happening) :
    (run handler start happenings).session.log.Stamps (run handler start happenings).currentId := by
  have hkept : ∀ service : Service, service.session.log.Stamps service.currentId →
      (happenings.foldl (step handler) service).session.log.Stamps
        (happenings.foldl (step handler) service).currentId := by
    induction happenings with
    | nil => exact fun service h => h
    | cons happening happenings ih => exact fun service h => ih _ (stamps_step hmarks h happening)
  exact hkept { session := start } hstart

theorem getElem?_of_underway {arrival : Nat} {id : String} (h : service.underway? arrival = some id) :
    service.history[arrival]? = some (.entered id) := by
  unfold underway? at h
  split at h
  · rename_i hentered
    split_ifs at h
    cases h
    exact hentered
  · cases h

/-- **A request's own id** is the current one exactly while it is the last that came and none has left. -/
theorem currentId_eq_iff {arrival : Nat} {id : String} (h : service.underway? arrival = some id) (hempty : id ≠ "")
    (hnone : id ≠ Log.noCorrelation)
    (hown : ∀ other, service.history[other]? = some (.entered id) → other = arrival) :
    service.currentId = id ↔ arrival + 1 = service.history.length := by
  have hentered := getElem?_of_underway h
  constructor
  · intro hcurrent
    unfold currentId at hcurrent
    split at hcurrent
    · rename_i last hlast
      -- the last arrival shows this id, so that it is this request
      obtain rfl : last = id := by
        unfold shownId at hcurrent
        split_ifs at hcurrent with hlastempty
        · exact absurd hcurrent.symm hnone
        · exact hcurrent
      rw [List.getLast?_eq_getElem?] at hlast
      have hplace := hown _ hlast
      have hlength := (List.getElem?_eq_some_iff.1 hentered).1
      omega
    · exact absurd hcurrent.symm hnone
  · intro hlength
    have hlast : service.history.getLast? = some (.entered id) := by
      rw [List.getLast?_eq_getElem?, ← hlength, Nat.add_sub_cancel]
      exact hentered
    rw [currentId, hlast]
    exact if_neg hempty

end Service

open LogTree (shownId) in
/-- **Which id the lines of overlapping requests carry**, at one handler with a log, whatever has happened before. Those
of an arrival carry the id of the request, up to the point where it may wait. Whatever a request that is under way writes
later carries the id of the request that came last, and none once any has left. Under an id of its own, that is its own
one exactly as long as nobody has come or left since it came itself. -/
theorem overlapping_lines (handler : RoutingHandler) (hmarks : handler.marksLog = true) (start : Session)
    (hstart : start.log.Stamps Log.noCorrelation) (happenings : List Happening) :
    let service := Service.run handler start happenings
    (∀ clock request, LinesCarry (shownId (handler.correlationIdOf clock request)) clock.now service.session
      (handler.arrive clock request service.session).2) ∧
    ∀ arrival id clock operation records, service.underway? arrival = some id →
      let after := service.step handler (.works clock arrival operation records)
      LinesCarry service.currentId clock.now service.session after.session ∧
        (id ≠ "" → id ≠ Log.noCorrelation →
          (∀ other, service.history[other]? = some (.entered id) → other = arrival) →
          (LinesCarry id clock.now service.session after.session ↔ arrival + 1 = service.history.length)) := by
  intro service
  have hstamps : service.session.log.Stamps service.currentId := Service.stamps_run hmarks hstart happenings
  constructor
  · intro clock request
    obtain ⟨records, hwork⟩ := handler.arrive_eq_work clock request service.session
    have hentered := Service.stamps_enter hmarks hstamps (handler.correlationIdOf clock request)
    obtain ⟨hstamps', hlines⟩ := Session.linesCarry_work hentered clock
      (RouterM.match' request.rawPath request.method) records
    have hwritten : (handler.enter (handler.correlationIdOf clock request) service.session).written =
        service.session.written := by
      rw [RoutingHandler.enter, if_pos hmarks]
    rw [hwritten] at hlines
    rw [hwork]
    exact ⟨hstamps', hlines⟩
  · intro arrival id clock operation records hunder after
    have hsome : (service.underway? arrival).isSome = true := by
      rw [hunder]
      rfl
    have hafter : after.session = service.session.work clock operation records :=
      congrArg Service.session (if_pos hsome)
    have hcurrent : LinesCarry service.currentId clock.now service.session after.session := by
      rw [hafter]
      exact Session.linesCarry_work hstamps clock operation records
    refine ⟨hcurrent, fun hempty hnone hown => ?_⟩
    rw [← Service.currentId_eq_iff hunder hempty hnone hown]
    exact ⟨fun h => hcurrent.unique h, fun h => h ▸ hcurrent⟩

/-- a session at a router with one page, whose log writes warnings as lines of text -/
def pageSession : Session where
  router := { registrations := [{ route := ⟨"/a", "a", none, [], none, none, none⟩ }] }
  log := (LogTree.configure { level := .warning, format := .text } {} {}).1

def pageHandler : RoutingHandler where
  marksLog := true

/-- a request for the page, with an id in its header -/
def pageRequest (id : String) : Request where
  method := "GET"
  rawPath := "/a"
  headers := [(defaultCorrelationHeader, id)]

def stillClock : Clock := ⟨"now", ⟨.int 0, "0.00ms"⟩, 0, "fresh"⟩

def slowRecord : LogRecord where
  level := LogLevel.warning.number
  template := "slow"

/-- the first request warns -/
def firstWarns : Happening := .works stillClock 0 (pure ()) [slowRecord]

/-- the first request comes, and the second one while it waits -/
def twoArrivals : List Happening := [.arrives stillClock (pageRequest "A"), .arrives stillClock (pageRequest "B")]

/-- Once the second request has come, whatever the first one writes carries the id of the second, and not its own. -/
theorem second_arrival_marks_first :
    let service := Service.run pageHandler pageSession twoArrivals
    let after := service.step pageHandler firstWarns
    LinesCarry "B" stillClock.now service.session after.session ∧
      ¬LinesCarry "A" stillClock.now service.session after.session := by
  have hstart : pageSession.log.Stamps Log.noCorrelation := ⟨_, rfl, fun _ => rfl⟩
  have hhistory : (Service.run pageHandler pageSession twoArrivals).history = [.entered "A", .entered "B"] := by
    decide +kernel
  have hunder : (Service.run pageHandler pageSession twoArrivals).underway? 0 = some "A" := by
    rw [Service.underway?, hhistory]
    decide
  have hcurrent : (Service.run pageHandler pageSession twoArrivals).currentId = "B" := by
    rw [Service.currentId, hhistory]
    decide
  have hplace : ∀ other, ([.entered "A", .entered "B"] : List Mark)[other]? = some (.entered "A") → other = 0 := by
    rintro (_ | _ | other) hother
    · rfl
    · exact absurd hother (by decide)
    · cases hother
  obtain ⟨-, hlater⟩ := overlapping_lines pageHandler rfl pageSession hstart twoArrivals
  obtain ⟨hlines, hown⟩ := hlater 0 "A" stillClock (pure ()) [slowRecord] hunder
  rw [hcurrent] at hlines
  rw [hhistory] at hown
  rw [firstWarns]
  exact ⟨hlines, fun h => absurd ((hown (by decide) (by decide) hplace).1 h) (by decide)⟩

/-- **A line with the id of another request.** The first request warns while the second waits, and again after the second
has left; it is still under way, and no line carries its id. -/
theorem foreign_id_carried :
    let service := Service.run pageHandler pageSession (twoArrivals ++ [firstWarns, .leaves 1, firstWarns])
    service.underway? 0 = some "A" ∧
      service.session.written.stdout = ["now [WARNING] [B] switchyard: slow", "now [WARNING] [none] switchyard: slow"] := by
  decide +kernel

end UrlRouter
