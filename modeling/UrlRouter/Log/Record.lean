/-
Log records and their formats.

A record has a template with arguments, a level, the name of its logger and further fields. The structured format is
one object: what the record says about itself, then the fields given as a bundle, then the single fields; later values
win. Values under a sensitive key are hidden wherever mappings lead to them.
-/
import UrlRouter.Json.Layout
import UrlRouter.Log.Level
import UrlRouter.Log.Template
import UrlRouter.Text.Casing
import UrlRouter.Config.Basic

namespace UrlRouter

structure LogRecord where
  logger : String := "switchyard"
  level : Int := 20
  template : String
  arguments : List Json := []
  fields : Mapping Json := []
  /-- the description of an error that belongs to the record -/
  exception : Option String := none

namespace Log

/-- the field that holds a bundle of fields -/
def bundleField : String := "extra_fields"

def correlationField : String := "correlation_id"

/-- what stands for the id of a request outside of any -/
def noCorrelation : String := "none"

/-- the fields that every record has, which no further field may overwrite -/
def ownFields : List String := [
  "name", "msg", "args", "levelname", "levelno", "pathname", "filename", "module", "exc_info", "exc_text",
  "stack_info", "lineno", "funcName", "created", "msecs", "relativeCreated", "thread", "threadName", "processName",
  "process", "message", "asctime"]

/-- the fields that are not written as further fields -/
def reservedFields : List String := [
  "name", "msg", "args", "created", "filename", "funcName", "levelname", "levelno", "lineno", "module", "msecs",
  "message", "pathname", "process", "processName", "relativeCreated", "thread", "threadName", "taskName", "exc_info",
  "exc_text", "stack_info", correlationField, bundleField]

/-- The first field that may not be given, if there is one. -/
def overwritten? (fields : Mapping Json) : Option String := (fields.find? fun (key, _) => ownFields.contains key).map (·.1)

def overwriteMessage (key : String) : String := "Attempt to overwrite " ++ Text.quoted key ++ " in LogRecord"

/-- whether a text occurs in another one -/
def occursIn (text : List Char) : List Char → Bool
  | [] => text.isEmpty
  | c :: rest => text.isPrefixOf (c :: rest) || occursIn text rest

/-- A key is sensitive if it holds one of the patterns, in any case. -/
def isSensitive (patterns : List String) (key : String) : Bool :=
  patterns.any fun pattern => occursIn (Text.toLower pattern).toList (Text.toLower key).toList

/-- what is shown for a sensitive value -/
def hidden : Json := .string "***REDACTED***"

mutual

def redactValue (patterns : List String) : Json → Json
  | .object fields => .object (redact patterns fields)
  | value => value

/-- The fields with sensitive values hidden, also in the mappings among them. -/
def redact (patterns : List String) : Mapping Json → Mapping Json
  | [] => []
  | (key, value) :: rest =>
    (key, if isSensitive patterns key then hidden else redactValue patterns value) :: redact patterns rest

end

end Log

namespace LogRecord

def levelName (record : LogRecord) : String := LogLevel.nameOf record.level

def message (record : LogRecord) : Except Log.TemplateError String := Log.fill record.template record.arguments

def correlation (record : LogRecord) : Json :=
  ((Json.object record.fields).field? Log.correlationField).getD (.string Log.noCorrelation)

/-- the bundle among the fields, if it is a mapping -/
def bundle (record : LogRecord) : Mapping Json :=
  match (Json.object record.fields).field? Log.bundleField with
  | some (.object fields) => fields
  | _ => []

def singles (record : LogRecord) : Mapping Json :=
  record.fields.filter fun (key, _) => !Log.reservedFields.contains key

/-- The record as an object, at a given time. -/
def toJson (record : LogRecord) (patterns : List String) (now : String) : Except Log.TemplateError Json := do
  let message ← record.message
  let own : Mapping Json := [
    ("timestamp", .string now), ("level", .string record.levelName), ("logger", .string record.logger),
    ("message", .string message), ("correlation_id", record.correlation)]
  let described := match record.exception with
    | some text => own ++ [("exception", .string text)]
    | none => own
  return .object (insertAll (insertAll described (Log.redact patterns record.bundle))
    (Log.redact patterns record.singles))

/-- The record as a line of text, with the description of an error below it. -/
def toText (record : LogRecord) (now : String) : Except Log.TemplateError String := do
  let message ← record.message
  let line := now ++ " [" ++ record.levelName ++ "] [" ++ record.correlation.plain ++ "] " ++ record.logger ++ ": " ++
    message
  return match record.exception with
    | some text => line ++ "\n" ++ text
    | none => line

end LogRecord

/-- how records are written -/
inductive LogFormatter where
  | structured (patterns : List String)
  | plain
  deriving DecidableEq, Repr

def LogFormatter.format (formatter : LogFormatter) (now : String) (record : LogRecord) :
    Except Log.TemplateError String :=
  match formatter with
  | structured patterns => (record.toJson patterns now).map Json.spaced
  | plain => record.toText now

/-- The description of an error of some kind. -/
def Log.describeError (kind text : String) : String := if text.isEmpty then kind else kind ++ ": " ++ text

end UrlRouter
