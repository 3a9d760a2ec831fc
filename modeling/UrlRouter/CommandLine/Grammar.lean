/-
Grammars of command lines.

A command line holds options, which begin with a dash and may stand anywhere, and operands, which are told apart by
their places. A grammar says which options there are, which operands are needed, and what may follow them.
-/
import UrlRouter.Text.Casing

namespace UrlRouter.CommandLine

/-- what an option asks for -/
inductive OptionKind where
  /-- the help; such an option takes no value -/
  | help
  | text
  | integer
  deriving DecidableEq, Repr

structure OptionRule where
  name : String
  /-- a second way to write the option, behind a single dash -/
  letter : Option Char := none
  kind : OptionKind := .text
  help : String
  deriving DecidableEq, Repr

structure OperandRule where
  name : String
  help : String
  deriving DecidableEq, Repr

/-- what may follow the operands that are needed -/
inductive Tail where
  | nothing
  /-- any number of operands under one name -/
  | several (operand : OperandRule)
  /-- the name of a command and then the command's own arguments -/
  | command (choices : List OperandRule)
  deriving DecidableEq, Repr

structure Grammar where
  program : String
  description : Option String := none
  options : List OptionRule
  operands : List OperandRule := []
  tail : Tail := .nothing
  deriving DecidableEq, Repr

/-- what the place of a command is called -/
def commandName : String := "command"

namespace OptionRule

def longSpelling (rule : OptionRule) : String := "--" ++ rule.name

/-- the ways to write an option, the short one first -/
def spellings (rule : OptionRule) : List String :=
  match rule.letter with
  | some letter => [String.ofList ['-', letter], rule.longSpelling]
  | none => [rule.longSpelling]

/-- what an option is called in a complaint -/
def title (rule : OptionRule) : String := "/".intercalate rule.spellings

/-- how the value of an option is shown, with a blank before it -/
def valueText (rule : OptionRule) : String :=
  match rule.kind with
  | .help => ""
  | _ => " " ++ Text.toUpper rule.name

end OptionRule

/-- the option that every grammar begins with -/
def helpOption : OptionRule :=
  { name := "help", letter := some 'h', kind := .help, help := "show this help message and exit" }

namespace Grammar

/-- all ways to write an option, each with the option's rule -/
def spellings (grammar : Grammar) : List (String × OptionRule) :=
  grammar.options.flatMap fun rule => rule.spellings.map (·, rule)

/-- the option that is written exactly so -/
def find? (grammar : Grammar) (spelling : String) : Option OptionRule := grammar.spellings.lookup spelling

end Grammar

end UrlRouter.CommandLine
