/-
The commands of the program.

A router can be served, its routes can be listed, a request can be matched and the URL of a route can be generated. The
options before the command's name are those of the whole program.
-/
import UrlRouter.CommandLine.Arguments
import UrlRouter.CommandLine.Help

namespace UrlRouter.CommandLine

inductive Command where
  | serve (host : String) (port : Int)
  | routes
  | match' (method path : String)
  | generate (name : String) (attributes query : List String)
  deriving DecidableEq, Repr

structure Invocation where
  /-- the path of the configuration file -/
  config : Option String := none
  command : Option Command := none
  deriving DecidableEq, Repr

/-- why no command is run: the reader of some grammar stopped -/
structure Interruption where
  grammar : Grammar
  stop : Stop

def programName : String := "switchyard"

def defaultHost : String := "0.0.0.0"

def defaultPort : Int := 8080

/-- the commands with what the help says about them -/
def commandRules : List OperandRule := [
  { name := "serve", help := "Serve the routed aiohttp application" },
  { name := "routes", help := "List registered routes" },
  { name := "match", help := "Match a request" },
  { name := "generate", help := "Generate the URL of a route" }]

def programGrammar : Grammar where
  program := programName
  description := some "Serve, inspect, match and generate URLs for configured routes."
  options := [helpOption, { name := "config", help := "Path to the router YAML configuration" }]
  tail := .command commandRules

def commandProgram (name : String) : String := programName ++ " " ++ name

def serveGrammar : Grammar where
  program := commandProgram "serve"
  options := [
    helpOption, { name := "host", help := "Bind address" },
    { name := "port", kind := .integer, help := "Bind port" }]

def routesGrammar : Grammar where
  program := commandProgram "routes"
  options := [helpOption]

def matchGrammar : Grammar where
  program := commandProgram "match"
  options := [helpOption]
  operands := [{ name := "method", help := "HTTP method" }, { name := "path", help := "Request path" }]

def generateGrammar : Grammar where
  program := commandProgram "generate"
  options := [helpOption, { name := "query", help := "Query parameter as key=value (repeatable)" }]
  operands := [{ name := "name", help := "Route name" }]
  tail := .several { name := "attributes", help := "Attribute values as key=value" }

/-- The port in an option's text. -/
def portOf (text : String) : Option Int :=
  match Text.readInteger text with
  | .ok port => some port
  | .error _ => none

/-- The grammar of a command, and the command that its arguments stand for. -/
def commandReader (name : String) : Grammar × (Arguments → Command) :=
  match name with
  | "serve" =>
    (serveGrammar, fun arguments =>
      .serve ((arguments.option? "host").getD defaultHost)
        (((arguments.option? "port").bind portOf).getD defaultPort))
  | "match" => (matchGrammar, fun arguments => .match' (arguments.operand "method") (arguments.operand "path"))
  | "generate" =>
    (generateGrammar, fun arguments =>
      .generate (arguments.operand "name") arguments.several (arguments.optionAll "query"))
  | _ => (routesGrammar, fun _ => .routes)

def Grammar.read (grammar : Grammar) (texts : List String) : Except Interruption Arguments :=
  (grammar.parse texts).mapError (⟨grammar, ·⟩)

/-- What a command line asks for. Arguments that neither the program nor its command takes are refused at the end. -/
def Invocation.ofTexts (texts : List String) : Except Interruption Invocation := do
  let arguments ← programGrammar.read texts
  let (command, leftover) ←
    match arguments.command with
    | none => pure (none, [])
    | some (name, rest) => do
      let (grammar, decode) := commandReader name
      let inner ← grammar.read rest
      pure (some (decode inner), inner.leftover)
  match arguments.leftover ++ leftover with
  | [] => return { config := arguments.option? "config", command }
  | unknown => throw ⟨programGrammar, .error (.unrecognized unknown)⟩

/-- What a misused grammar says: its usage and the complaint. -/
def Grammar.complaint (grammar : Grammar) (error : UsageError) : List String :=
  [grammar.usage, grammar.program ++ ": error: " ++ error.message]

end UrlRouter.CommandLine
