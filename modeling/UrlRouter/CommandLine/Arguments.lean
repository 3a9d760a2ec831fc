/-
Reading a command line by a grammar.

Options take their values from the word behind them; runs of other words go to the operands that are still needed, as
many as find a word, and then to the tail. A command takes all words behind its name. Words that nothing takes are left
over.
-/
import UrlRouter.CommandLine.Word
import UrlRouter.Text.Numeral

namespace UrlRouter.CommandLine

/-- what was read -/
structure Arguments where
  options : List (String × String) := []
  operands : List (String × String) := []
  /-- the operands of the tail -/
  several : List String := []
  /-- the name of a command and its arguments -/
  command : Option (String × List String) := none
  leftover : List String := []
  deriving DecidableEq, Repr

namespace Arguments

/-- all values that an option was given -/
def optionAll (arguments : Arguments) (name : String) : List String :=
  (arguments.options.filter (·.1 = name)).map (·.2)

/-- the value that an option was last given -/
def option? (arguments : Arguments) (name : String) : Option String := (arguments.optionAll name).getLast?

def operand (arguments : Arguments) (name : String) : String := (arguments.operands.lookup name).getD ""

def leave (arguments : Arguments) (text : String) : Arguments :=
  { arguments with leftover := arguments.leftover ++ [text] }

end Arguments

/-- why reading stops early -/
inductive Stop where
  /-- the help is asked for -/
  | help
  | error (cause : UsageError)
  deriving DecidableEq, Repr

/-- what was read so far, and the operands that are still to come -/
structure Progress where
  needed : List OperandRule
  tail : Tail
  arguments : Arguments := {}

/-- The text of one operand, with the dividers around it dropped, and the words behind them. -/
def oneOperand? (words : List Word) : Option (String × List Word) :=
  match words.dropWhile Word.isDivider with
  | .operand text :: rest => some (text, rest.dropWhile Word.isDivider)
  | _ => none

namespace Progress

def needNothing (progress : Progress) (arguments : Arguments) : Progress :=
  { progress with tail := .nothing, arguments }

/-- Gives words to the tail. -/
def fillTail (progress : Progress) (words : List Word) : Except UsageError (Progress × List Word) :=
  let arguments := progress.arguments
  match progress.tail with
  | .nothing => .ok (progress, words)
  | .several _ =>
    let texts := (words.takeWhile (!·.isOption)).map Word.text
    .ok (progress.needNothing { arguments with several := texts.erase dividerText }, words.dropWhile (!·.isOption))
  | .command choices =>
    match words.dropWhile Word.isDivider with
    | .operand _ :: _ =>
      match words.map Word.text with
      | [] => .ok (progress, words)
      | name :: rest =>
        if choices.any (·.name = name) then
          .ok (progress.needNothing { arguments with command := some (name, rest) }, [])
        else .error (.unknownCommand name choices)
    | _ => .ok (progress, words)

/-- Gives words to the operands, in order, and to the tail when no operand is needed any more. -/
def fillOperands (tail : Tail) (arguments : Arguments) (words : List Word) :
    List OperandRule → Except UsageError (Progress × List Word)
  | [] => fillTail { needed := [], tail, arguments } words
  | rule :: needed =>
    match oneOperand? words with
    | none => .ok ({ needed := rule :: needed, tail, arguments }, words)
    | some (text, rest) =>
      fillOperands tail { arguments with operands := arguments.operands ++ [(rule.name, text)] } rest needed

def fill (progress : Progress) (words : List Word) : Except Stop (Progress × List Word) :=
  (fillOperands progress.tail progress.arguments words progress.needed).mapError .error

def leave (progress : Progress) (text : String) : Progress :=
  { progress with arguments := progress.arguments.leave text }

/-- Keeps the value of an option, if it is one that the option can have. -/
def setOption (progress : Progress) (rule : OptionRule) (value : String) : Except Stop Progress :=
  let arguments := progress.arguments
  let changed :=
    { progress with arguments := { arguments with options := arguments.options ++ [(rule.name, value)] } }
  match rule.kind, Text.readInteger value with
  | .integer, .error _ => .error (.error (.notInteger rule value))
  | _, _ => .ok changed

/-- The names of operands that were not found; the tail counts unless it is a command. -/
def missing (progress : Progress) : List String :=
  progress.needed.map (·.name) ++
    match progress.tail with
    | .several operand => [operand.name]
    | _ => []

end Progress

/-- Letters behind an option without a value are further such options, up to one that the grammar does not have. -/
def checkLetters (grammar : Grammar) (rule : OptionRule) : List Char → Except UsageError Unit
  | [] => .ok ()
  | letter :: rest =>
    if letter = '-' then .error (.valueUnwanted rule (String.ofList (letter :: rest)))
    else
      match grammar.find? (String.ofList ['-', letter]) with
      | none => .ok ()
      | some next =>
        match rest with
        | '=' :: value => .error (.valueUnwanted next (String.ofList value))
        | rest => checkLetters grammar next rest

/-- Whether an option without a value can be taken as it is written. -/
def checkBare (grammar : Grammar) (reading : Reading) : Except UsageError Unit :=
  match reading.attachment with
  | .nothing => .ok ()
  | .equated value => .error (.valueUnwanted reading.rule value)
  | .joined rest => checkLetters grammar reading.rule rest.toList

/-- Reads all words. -/
def consume (grammar : Grammar) (progress : Progress) (words : List Word) : Except Stop Progress :=
  match words with
  | [] => do return (← progress.fill []).1
  | .option text none :: rest => consume grammar (progress.leave text) rest
  | .option _ (some reading) :: rest => do
    if reading.rule.kind = .help then
      (checkBare grammar reading).mapError .error
      throw .help
    else
      match reading.attachment with
      | .equated value | .joined value => consume grammar (← progress.setOption reading.rule value) rest
      | .nothing =>
        match rest with
        | .operand value :: rest => consume grammar (← progress.setOption reading.rule value) rest
        | _ => throw (.error (.valueMissing reading.rule))
  | word :: rest => do
    let (progress, after) ← progress.fill (word :: rest)
    if after.length ≤ rest.length then consume grammar progress after
    else consume grammar (progress.leave word.text) rest
termination_by words.length

/-- The arguments in a command line. -/
def Grammar.parse (grammar : Grammar) (texts : List String) : Except Stop Arguments := do
  let words ← (grammar.words texts).mapError .error
  let progress ← consume grammar { needed := grammar.operands, tail := grammar.tail } words
  if progress.missing.isEmpty then return progress.arguments
  else throw (.error (.operandsMissing progress.missing))

end UrlRouter.CommandLine
