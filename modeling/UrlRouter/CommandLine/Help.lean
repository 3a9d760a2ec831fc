/-
Usage and help of a grammar.

The usage is one line. The help adds a line for every operand and every option, with the explanations under each other.
-/
import UrlRouter.CommandLine.Grammar

namespace UrlRouter.CommandLine

/-- the choices of a command between braces -/
def choicesText (choices : List OperandRule) : String :=
  "\x7b" ++ ",".intercalate (choices.map (·.name)) ++ "\x7d"

/-- a line of the help: how far it is indented, what it explains, and the explanation -/
structure HelpEntry where
  indent : Nat
  subject : String
  explanation : Option String

namespace HelpEntry

/-- the column of the explanations is nowhere further right than this -/
def maxColumn : Nat := 24

/-- Explanations stand two columns behind the widest subject; an indented subject counts as the others do. -/
def columnOf (entries : List HelpEntry) : Nat :=
  min (entries.foldl (fun width entry => max width (entry.subject.length + 4)) 0) maxColumn

/-- The lines of an entry; a subject that is too wide for its column has a line of its own. -/
def lines (column : Nat) (entry : HelpEntry) : List String :=
  let start := "".pushn ' ' entry.indent ++ entry.subject
  match entry.explanation with
  | none => [start]
  | some explanation =>
    if start.length + 2 ≤ column then [start.pushn ' ' (column - start.length) ++ explanation]
    else [start, "".pushn ' ' column ++ explanation]

end HelpEntry

def OptionRule.usage (rule : OptionRule) : String := "[" ++ rule.spellings.headD "" ++ rule.valueText ++ "]"

def OptionRule.entry (rule : OptionRule) : HelpEntry :=
  ⟨2, ", ".intercalate (rule.spellings.map (· ++ rule.valueText)), some rule.help⟩

def OperandRule.entry (rule : OperandRule) : HelpEntry := ⟨2, rule.name, some rule.help⟩

def Tail.usage : Tail → List String
  | nothing => []
  | several operand => ["[" ++ operand.name ++ " ...]"]
  | command choices => [choicesText choices, "..."]

def Tail.entries : Tail → List HelpEntry
  | nothing => []
  | several operand => [operand.entry]
  | command choices => ⟨2, choicesText choices, none⟩ :: choices.map fun choice => ⟨4, choice.name, some choice.help⟩

namespace Grammar

def usage (grammar : Grammar) : String :=
  " ".intercalate (["usage:", grammar.program] ++ grammar.options.map (·.usage) ++ grammar.operands.map (·.name) ++
    grammar.tail.usage)

/-- A titled part of the help; one without entries is left out. -/
def helpSection (title : String) (column : Nat) (entries : List HelpEntry) : List (List String) :=
  if entries.isEmpty then [] else [title :: entries.flatMap (·.lines column)]

/-- The parts of the help, with an empty line between them. -/
def help (grammar : Grammar) : String :=
  let operands := grammar.operands.map (·.entry) ++ grammar.tail.entries
  let options := grammar.options.map (·.entry)
  let column := HelpEntry.columnOf (operands ++ options)
  let parts := [[grammar.usage]] ++ (grammar.description.map fun text => [text]).toList ++
    helpSection "positional arguments:" column operands ++ helpSection "options:" column options
  "\n\n".intercalate (parts.map ("\n".intercalate ·)) ++ "\n"

end Grammar

end UrlRouter.CommandLine
