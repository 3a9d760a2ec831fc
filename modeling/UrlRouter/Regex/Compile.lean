/-
Reading a whole regular expression.

`step` takes one item of the pattern: a character, an escape, a set, a quantifier, or the opening or closing of a
group. `Regex.compile` takes steps until no token is left, closes the outermost frame and makes the two checks that
need the finished tree.

The engine that is modelled reads groups by calling itself, so that its interpreter's recursion limit stops it at a depth
that depends on its settings, by default at about 500 nested groups. Such a limit is a bound on resources and is left out:
groups may be nested to any depth here.
-/
import UrlRouter.Regex.Reader.Set
import UrlRouter.Regex.Reader.Quantifier
import UrlRouter.Regex.Reader.Group

namespace UrlRouter.Regex

def isPatternBlank (c : Char) : Bool := c = ' ' || (9 ≤ c.toNat && c.toNat ≤ 13)

/-- Skips a comment of verbose mode to the end of its line. -/
def skipLine : Nat → Read Unit
  | 0 => return ()
  | limit + 1 => do
    match ← take? with
    | none => return ()
    | some t => if t = .plain '\n' then return () else skipLine limit

/-- An item that starts with the plain character `c` at `start`, which is already taken. -/
def readItem (start : Nat) : Char → Read Unit
  | '[' => readSet start
  | '*' => quantify start 0 none
  | '+' => quantify start 1 none
  | '?' => quantify start 0 (some 1)
  | '\x7b' => readBraces start
  | '.' => pushTest .any
  | '(' => openGroup start
  | '^' => pushAnchor .lineStart
  | '$' => pushAnchor .lineEnd
  | c => pushTest (.code c.toNat)

def step : Read Unit := do
  match ← next? with
  | none => return ()
  | some (.plain '|') => nextAlternative
  | some (.plain ')') => closeGroup
  | some t =>
    let start := (← get).position
    let _ ← take?
    match t with
    | .plain c =>
      let verbose := (← mode).verbose
      if verbose && isPatternBlank c then return ()
      else if verbose && c = '#' then skipLine ((← get).rest.length + 1)
      else readItem start c
    | .escaped c => readEscape c
    | .loneBackslash => failAt .escapeAtEnd start

def steps : Nat → Read Unit
  | 0 => return ()
  | n + 1 => do
    if (← get).rest.isEmpty then return ()
    step
    steps n

/-- Reading begins in the given mode. -/
def Reader.start (mode : Mode) (pattern : String) : Except CompileError Reader :=
  checkNext { rest := Token.ofChars pattern.toList, frame := ⟨.whole, 0, mode, [], []⟩ }

/-- the state after the last token -/
def Reader.finish (mode : Mode) (pattern : String) : Except CompileError Reader := do
  let r ← Reader.start mode pattern
  let (_, r) ← (steps r.rest.length).run r
  return r

def Greed.operator : Greed → String
  | .greedy => "MAX_REPEAT"
  | .lazy => "MIN_REPEAT"
  | .possessive => "POSSESSIVE_REPEAT"

/-- looking back over more than this is refused -/
def behindLimit : Nat := 4294967295

/-- The first problem of a finished tree: a look-behind whose width is not fixed, or, with the template option, any
repetition. -/
def Node.problem? (template : Bool) : Node → Option Problem
  | .empty | .char _ _ | .anchor _ _ | .backref _ _ => none
  | .seq a b | .alt a b | .conditional _ a b => (a.problem? template).or (b.problem? template)
  | .group _ body | .atomic body => body.problem? template
  | .look .ahead _ body => body.problem? template
  | .look (.behind width) _ body =>
    if behindLimit < width.least then some .behindTooFar
    else if width.most ≠ some width.least then some .behindNotFixed
    else body.problem? template
  | .loop greed _ _ body =>
    if template then some (.templateRepeat greed.operator) else body.problem? template

end UrlRouter.Regex

namespace UrlRouter

/-- A compiled regular expression: its tree, the number of its groups and the numbers of the named ones. -/
structure Regex where
  root : Regex.Node
  groups : Nat
  names : List (String × Nat)

namespace Regex

/-- Groups must be closed, the options must agree, and conditionals must refer to groups that exist. -/
def ofReader (r : Reader) : Except CompileError Regex := do
  unless r.outer.isEmpty do throw (.malformed .unterminatedGroup (some r.frame.start))
  if r.globalFlags.contains 'a' && r.globalFlags.contains 'u' then throw .asciiAndUnicode
  if let some (n, position) := r.references.find? (fun (n, _) => r.groupBound ≤ n) then
    throw (.malformed (.invalidGroupReference n) (some position))
  let root := r.frame.body
  if let some problem := root.problem? (r.globalFlags.contains 't') then throw (.malformed problem none)
  return { root, groups := r.widths.length, names := r.names }

def compileIn (mode : Mode) (pattern : String) : Except CompileError Regex := do
  ofReader (← Reader.finish mode pattern)

def compile (pattern : String) : Except CompileError Regex := compileIn {} pattern

def groupNumber? (regex : Regex) (name : String) : Option Nat := regex.names.lookup name

end Regex

end UrlRouter
