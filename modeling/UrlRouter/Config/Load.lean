/-
Loading a configuration.

The file is chosen by an argument, by the environment, or by its usual names. What it holds is overlaid with values from
the environment and checked as a whole; a file that is not there, or that holds nothing, gives the usual values.

The syntax of the file is for a reader to tell, which is given from outside: it makes a value of the text, or refuses it
with an error of its own that is passed on as it is. `readJson` is a reader for files that are written in JSON. Values
beyond JSON, such as dates and keys that are no texts, are left to readers of their own.
-/
import UrlRouter.Config.Check
import UrlRouter.Json.Reader
import UrlRouter.Storage.FileTree

namespace UrlRouter

/-- values by the names of environment variables -/
abbrev Environment := Mapping String

/-- A value that is set and not empty. -/
def Environment.given? (environment : Environment) (name : String) : Option String :=
  match environment.lookup name with
  | some "" => none
  | value => value

/-- why a reader refuses a text: the name of its error and what it says -/
structure SyntaxFault where
  kind : String
  message : String

inductive ConfigError where
  | unreadable (file : Location) (fault : FileFault)
  /-- a text that the reader refuses -/
  | malformed (fault : SyntaxFault)
  /-- values that break the rules of their fields -/
  | invalid (issues : List Validation.Issue)
  /-- the file holds something that is no mapping -/
  | notMapping
  | chunkSize (text : String) (cause : Text.NumeralError)
  /-- a value from the environment has no mapping to go into -/
  | noSuchItem
  /-- a section from the environment has no mapping to go into -/
  | noSections

def configErrorTitle : String := "Configuration validation failed"

def ConfigError.message : ConfigError → String
  | unreadable file fault => fault.messageAt file
  | malformed fault => fault.message
  | chunkSize text .malformed => "invalid literal for int() with base 10: " ++ Text.quoted text
  | chunkSize _ (.tooLong digits) => Text.tooLongMessage digits
  | invalid _ | notMapping | noSuchItem | noSections => configErrorTitle

namespace Config

/-- The file that is taken if no other is there. -/
def usualFile : Location := .ofText "config/router.yaml"

def pathVariable : String := "SWITCHYARD_CONFIG_PATH"

def environmentVariable : String := "SWITCHYARD_ENV"

/-- The files that a configuration may be in; a file that was asked for leaves no choice. -/
def candidates (argument : Option String) (environment : Environment) : List Location :=
  match (argument.filter (!·.isEmpty)).or (environment.given? pathVariable) with
  | some path => [.ofText path]
  | none =>
    [.ofText ("config/router." ++ (environment.lookup environmentVariable).getD "development" ++ ".yaml"), usualFile]

/-- The file of a configuration: of its candidates the first that is there, or the last one. -/
def location (argument : Option String) (environment : Environment) (files : FileTree) : Location :=
  let all := candidates argument environment
  (all.find? fun file => (files.status? file).isSome).getD (all.getLastD usualFile)

/-- Values that stand for nothing. -/
def isBlank : Json → Bool
  | .null | .bool false | .int 0 | .string "" | .array [] | .object [] => true
  | .float x => x == 0
  | _ => false

/-- a reader of the texts of files -/
abbrev Reader := String → Except SyntaxFault Json

/-- The reader of files that are written in JSON. -/
def readJson : Reader := fun text =>
  match Json.ofText? text with
  | none => .error ⟨"YAMLError", "not a JSON value"⟩
  | some value => .ok value

/-- What the file holds. -/
def content (reader : Reader) (file : Location) (files : FileTree) : Except ConfigError Json :=
  if (files.status? file).isNone then .ok (.object [])
  else
    match files.read file with
    | .error fault => .error (.unreadable file fault)
    | .ok text =>
      match reader text with
      | .error fault => .error (.malformed fault)
      | .ok value => .ok (if isBlank value then .object [] else value)

def setItem (key : String) (value item : Json) : Except ConfigError Json :=
  match value with
  | .object fields => .ok (.object (eraseValue key fields ++ [(key, item)]))
  | _ => .error .noSuchItem

/-- Sets an item of a section, which is opened if it is not there. -/
def setInSection (section' key : String) (value item : Json) : Except ConfigError Json :=
  match value with
  | .object _ => do
    let inner ← setItem key ((value.field? section').getD (.object [])) item
    setItem section' value inner
  | _ => .error .noSections

/-- how the text of a variable becomes an item -/
inductive Override where
  | text (key : String)
  | size (key : String)
  | sectionText (section' key : String)
  | sectionFlag (section' key : String)

/-- The variables that overlay a configuration, in the order in which they are looked at. -/
def overrides : List (String × Override) := [
  ("SWITCHYARD_STRATEGY", .text "strategy"),
  ("SWITCHYARD_CHUNK_SIZE", .size "chunk_size"),
  ("SWITCHYARD_CACHE_ENABLED", .sectionFlag "cache" "enabled"),
  ("SWITCHYARD_CACHE_BACKEND", .sectionText "cache" "backend"),
  ("SWITCHYARD_CACHE_DIR", .sectionText "cache" "directory"),
  ("SWITCHYARD_CACHE_REDIS_URL", .sectionText "cache" "redis_url"),
  ("SWITCHYARD_LOG_LEVEL", .sectionText "logging" "level"),
  ("SWITCHYARD_LOG_FORMAT", .sectionText "logging" "format"),
  ("SWITCHYARD_METRICS_ENABLED", .sectionFlag "metrics" "enabled"),
  (environmentVariable, .text "environment")]

/-- all variables that are looked at -/
def variableNames : List String := pathVariable :: overrides.map (·.1)

def Override.apply (value : Json) (text : String) : Override → Except ConfigError Json
  | .text key => setItem key value (.string text)
  | .size key =>
    match Text.readInteger text with
    | .ok n => setItem key value (.int n)
    | .error cause => .error (.chunkSize text cause)
  | .sectionText section' key => setInSection section' key value (.string text)
  | .sectionFlag section' key => setInSection section' key value (.bool (Text.toLower text = "true"))

def applyOverrides (environment : Environment) (value : Json) : Except ConfigError Json :=
  overrides.foldlM
    (fun value (name, override) =>
      match environment.given? name with
      | some text => override.apply value text
      | none => .ok value)
    value

/-- The configuration in a value. -/
def ofJson (value : Json) : Except ConfigError RouterConfig :=
  match value with
  | .object _ => (RouterConfig.check value).mapError .invalid
  | _ => .error .notMapping

def load (file : Location) (environment : Environment) (files : FileTree) (reader : Reader := readJson) :
    Except ConfigError RouterConfig := do
  ofJson (← applyOverrides environment (← content reader file files))

end Config

end UrlRouter
