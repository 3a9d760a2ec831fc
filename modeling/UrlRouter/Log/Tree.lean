/-
The logger tree.

All loggers of the program hang below one name. `LogTree.configure` gives the tree a level and an outlet; a record
reaches the outlet if its logger belongs to the tree and its level is high enough. The outlet stamps each record with
the id of the request that is being handled.
-/
import UrlRouter.Log.Record
import UrlRouter.Storage.FileTree

namespace UrlRouter

inductive LogTarget where
  | stdout
  | stderr
  | file (place : Location)
  deriving DecidableEq, Repr

def LogTarget.ofText (text : String) : LogTarget :=
  if text = "stdout" then stdout else if text = "stderr" then stderr else file (.ofText text)

structure LogOutlet where
  target : LogTarget
  formatter : LogFormatter
  /-- the id of the current request -/
  correlationId : Option String := none
  deriving DecidableEq, Repr

structure LogTree where
  level : Int := 0
  outlet : Option LogOutlet := none
  /-- whether records also go to the loggers above the tree -/
  propagates : Bool := true
  initialized : Bool := false
  deriving DecidableEq, Repr

/-- what has been written: the lines of both streams, and the files -/
structure Written where
  stdout : List String := []
  stderr : List String := []
  files : FileTree := {}
  deriving DecidableEq, Repr

namespace LogTree

/-- the name that all loggers of the program begin with -/
def rootName : String := "switchyard"

def uninitializedMessage : String := "Logging not initialized. Call initialize_logging() first."

def formatterOf (config : LoggingConfig) : LogFormatter :=
  match config.format with
  | .json => .structured config.redactFields
  | .text => .plain

/-- A tree for a configuration. A file is opened at once and keeps what it holds. -/
def configure (config : LoggingConfig) (files : FileTree) (previous : LogTree) :
    LogTree × FileTree × Option (Location × FileFault) :=
  let target := LogTarget.ofText config.output
  let level := config.level.number
  let tree : LogTree :=
    { level, outlet := some { target, formatter := formatterOf config }, propagates := false, initialized := true }
  match target with
  | .file place =>
    match files.append place "" with
    | .ok files => (tree, files, none)
    | .error fault => ({ previous with level, outlet := none }, files, some (place, fault))
  | _ => (tree, files, none)

/-- whether a logger hangs below the root name -/
def covers (logger : String) : Bool := logger = rootName || logger.startsWith (rootName ++ ".")

/-- whether a record is made at all -/
def isEnabled (tree : LogTree) (logger : String) (level : Int) : Bool :=
  let floor := if covers logger && tree.level ≠ 0 then tree.level else LogLevel.warning.number
  floor ≤ level

/-- The field of a record that holds the id of the current request. -/
def stamp (correlationId : Option String) (record : LogRecord) : LogRecord :=
  let id := match correlationId with
    | none | some "" => Log.noCorrelation
    | some id => id
  { record with fields := insertValue Log.correlationField (.string id) record.fields }

def Written.add (written : Written) (target : LogTarget) (line : String) : Written :=
  match target with
  | .stdout => { written with stdout := written.stdout ++ [line] }
  | .stderr => { written with stderr := written.stderr ++ [line] }
  | .file place =>
    match written.files.append place (line ++ "\n") with
    | .ok files => { written with files }
    | .error _ => written

/-- Writes a record, if it reaches the outlet and its message can be made. -/
def emit (tree : LogTree) (now : String) (record : LogRecord) (written : Written) : Written :=
  match tree.outlet with
  | none => written
  | some outlet =>
    if covers record.logger && tree.isEnabled record.logger record.level then
      match outlet.formatter.format now (stamp outlet.correlationId record) with
      | .ok line => Written.add written outlet.target line
      | .error _ => written
    else written

def emitAll (tree : LogTree) (now : String) (records : List LogRecord) (written : Written) : Written :=
  records.foldl (fun written record => tree.emit now record written) written

/-- The id of a request, or a fresh one if it brings none. -/
def correlationFor (given : Option String) (fresh : String) : String := given.getD fresh

def setCorrelation (tree : LogTree) (id : String) : LogTree :=
  { tree with outlet := tree.outlet.map fun outlet => { outlet with correlationId := some id } }

def clearCorrelation (tree : LogTree) : LogTree :=
  { tree with outlet := tree.outlet.map fun outlet => { outlet with correlationId := none } }

end LogTree

end UrlRouter
