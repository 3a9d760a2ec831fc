/-
The program.

Reads what a command may look at, runs the command, and writes what it leaves behind. This program opens no port: it
says what it would serve and where.
-/
import UrlRouter.CommandLine.Run

open UrlRouter UrlRouter.CommandLine

def readEnvironment : IO Environment :=
  Config.variableNames.filterMapM fun name => do return (← IO.getEnv name).map (name, ·)

def readClock : IO Clock := do
  let now := toString (← IO.monoMsNow)
  let id := "req-" ++ toString (← IO.rand 0 0xffffffffffff)
  return { now, elapsed := ⟨.int 0, "0.00ms"⟩, seconds := 0, freshId := id }

/-- A tree with those of the files that can be read. -/
def readFiles (files : FileTree) (places : List Location) : IO FileTree :=
  places.foldlM
    (fun files place => do
      try return files.plant place (← IO.FS.readFile place.text)
      catch _ => return files)
    files

/-- The files that a command line may look at. -/
def gather (environment : Environment) (arguments : List String) : IO FileTree := do
  match Invocation.ofTexts arguments with
  | .error _ => return {}
  | .ok invocation =>
    let files ← readFiles {} (Config.candidates invocation.config environment)
    match Config.load (Config.location invocation.config environment files) environment files with
    | .error _ => return files
    | .ok config => readFiles files (filesOf config)

def writeOut (before : FileTree) (written : Written) : IO Unit := do
  let stdout ← IO.getStdout
  let stderr ← IO.getStderr
  written.stderr.forM stderr.putStrLn
  written.stdout.forM stdout.putStrLn
  for (place, text) in written.files.filesBeyond before do
    IO.FS.createDirAll { place with parts := place.parts.dropLast }.text
    IO.FS.writeFile place.text text

def main (arguments : List String) : IO UInt32 := do
  let environment ← readEnvironment
  let files ← gather environment arguments
  match run (← readClock) environment files arguments with
  | .interrupted ⟨grammar, .help⟩ =>
    IO.print grammar.help
    return 0
  | .interrupted ⟨grammar, .error e⟩ =>
    (grammar.complaint e).forM IO.eprintln
    return 2
  | .finished code written =>
    writeOut files written
    return code.toUInt32
  | .serving served =>
    writeOut files served.application.session.written
    IO.println ("Ready to serve on " ++ served.host ++ ":" ++ toString served.port)
    return 0
  | .failed e =>
    IO.eprintln (e.kind ++ ": " ++ e.message)
    return 1
