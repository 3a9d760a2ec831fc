/-
The words of a command line.

Every argument is an operand, an option, or the divider behind which all are operands. An option may be shortened as
long as only one option can be meant, and may hold its value behind an equals sign. What looks like an option that the
grammar does not have is kept as such.
-/
import UrlRouter.CommandLine.Grammar
import UrlRouter.Text.Letter
import UrlRouter.Text.Quoted

namespace UrlRouter.CommandLine

inductive UsageError where
  /-- a shortened option that can mean several -/
  | ambiguous (text : String) (meanings : List String)
  | valueMissing (option : OptionRule)
  | valueUnwanted (option : OptionRule) (value : String)
  | notInteger (option : OptionRule) (value : String)
  | unknownCommand (name : String) (choices : List OperandRule)
  | operandsMissing (names : List String)
  /-- arguments that nothing takes -/
  | unrecognized (texts : List String)
  deriving DecidableEq, Repr

def UsageError.message : UsageError → String
  | ambiguous text meanings => "ambiguous option: " ++ text ++ " could match " ++ ", ".intercalate meanings
  | valueMissing option => "argument " ++ option.title ++ ": expected one argument"
  | valueUnwanted option value =>
    "argument " ++ option.title ++ ": ignored explicit argument " ++ Text.quoted value
  | notInteger option value => "argument " ++ option.title ++ ": invalid int value: " ++ Text.quoted value
  | unknownCommand name choices =>
    "argument " ++ commandName ++ ": invalid choice: " ++ Text.quoted name ++ " (choose from " ++
      ", ".intercalate (choices.map fun choice => Text.quoted choice.name) ++ ")"
  | operandsMissing names => "the following arguments are required: " ++ ", ".intercalate names
  | unrecognized texts => "unrecognized arguments: " ++ " ".intercalate texts

/-- what is written into one argument with an option -/
inductive Attachment where
  | nothing
  /-- a value behind an equals sign -/
  | equated (value : String)
  /-- what follows the letter of an option at once -/
  | joined (rest : String)
  deriving DecidableEq, Repr

structure Reading where
  rule : OptionRule
  attachment : Attachment := .nothing
  deriving DecidableEq, Repr

inductive Word where
  | operand (text : String)
  | divider
  /-- an option, with its reading if the grammar has it -/
  | option (text : String) (reading : Option Reading)
  deriving DecidableEq, Repr

def dividerText : String := "--"

namespace Word

def text : Word → String
  | operand text => text
  | divider => dividerText
  | option text _ => text

def isDivider (word : Word) : Bool := word = divider

def isOption : Word → Bool
  | option _ _ => true
  | _ => false

end Word

/-- A text cut at its first equals sign. -/
def cutValue (text : String) : String × Attachment :=
  let chars := text.toList
  let name := chars.takeWhile (· ≠ '=')
  (String.ofList name,
    if chars.contains '=' then .equated (String.ofList (chars.drop (name.length + 1))) else .nothing)

/-- Whether digits follow, with a point among or before them at most once and a line end behind them at most once. -/
def looksNumeric (chars : List Char) : Bool :=
  let chars := if chars.getLast? = some '\n' then chars.dropLast else chars
  let isDigit (c : Char) : Bool := (Text.decimalValue? c).isSome
  let isNumeral (digits : List Char) : Bool := !digits.isEmpty && digits.all isDigit
  isNumeral chars ||
    match chars.dropWhile isDigit with
    | '.' :: fraction => isNumeral fraction
    | _ => false

namespace Grammar

/-- what a shortened option, or one with letters or a value behind it, can mean -/
def meanings (grammar : Grammar) (text : String) : List (String × Reading) :=
  if text.startsWith dividerText then
    let (start, attachment) := cutValue text
    (grammar.spellings.filter fun (spelling, _) => spelling.startsWith start).map fun (spelling, rule) =>
      (spelling, ⟨rule, attachment⟩)
  else
    let start := String.ofList (text.toList.take 2)
    (grammar.spellings.filter fun (spelling, _) => spelling = start).map fun (spelling, rule) =>
      (spelling, ⟨rule, .joined (String.ofList (text.toList.drop 2))⟩)

/-- The reading of an option that is written out, with a value or without. -/
def exactReading? (grammar : Grammar) (text : String) : Option Reading :=
  match grammar.find? text with
  | some rule => some ⟨rule, .nothing⟩
  | none =>
    match cutValue text with
    | (_, .nothing) => none
    | (spelling, attachment) => (grammar.find? spelling).map (⟨·, attachment⟩)

/-- The word that an argument before the divider is. -/
def wordOf (grammar : Grammar) (text : String) : Except UsageError Word :=
  if !text.startsWith "-" || text = "-" then .ok (.operand text)
  else
    match grammar.exactReading? text with
    | some reading => .ok (.option text (some reading))
    | none =>
      match grammar.meanings text with
      | [(_, reading)] => .ok (.option text (some reading))
      | [] =>
        if looksNumeric (text.toList.drop 1) || text.toList.contains ' ' then .ok (.operand text)
        else .ok (.option text none)
      | several => .error (.ambiguous text (several.map (·.1)))

/-- The words of a command line. -/
def words (grammar : Grammar) : List String → Except UsageError (List Word)
  | [] => .ok []
  | text :: rest =>
    if text = dividerText then .ok (.divider :: rest.map .operand)
    else do
      let word ← grammar.wordOf text
      return word :: (← grammar.words rest)

end Grammar

end UrlRouter.CommandLine
