/-
The state of reading a regular expression.

A pattern is cut into tokens, a backslash going with the character after it. The reader keeps the tokens not yet read,
the groups met so far and one frame per open group; reading is a sequence of steps that each take at least one token,
so it ends after as many steps as there are tokens.
-/
import UrlRouter.Regex.Syntax
import UrlRouter.Regex.Error
import UrlRouter.Text.Identifier
import UrlRouter.Text.Numeral

namespace UrlRouter.Regex

inductive Token where
  | plain (c : Char)
  | escaped (c : Char)
  | loneBackslash
  deriving DecidableEq, Repr

namespace Token

def chars : Token → List Char
  | plain c => [c]
  | escaped c => ['\\', c]
  | loneBackslash => ['\\']

def text (t : Token) : String := String.ofList t.chars

def length (t : Token) : Nat := t.chars.length

def ofChars : List Char → List Token
  | [] => []
  | ['\\'] => [loneBackslash]
  | '\\' :: c :: rest => escaped c :: ofChars rest
  | c :: rest => plain c :: ofChars rest

end Token

/-- whether a quantifier may follow an item: anchors take none and a quantified item no second one -/
inductive Quantifiable where
  | yes
  | no
  | already
  deriving DecidableEq, Repr

structure Item where
  node : Node
  quantifiable : Quantifiable

/-- what an open group becomes when it closes -/
inductive GroupKind where
  | whole
  | capture (number : Nat)
  | plain
  | atomic
  | look (behind negated : Bool) (outerBehind : Option Nat)
  | conditional (group : Nat) (present : Option Node)

/-- An open group: finished alternatives and the items of the current one, the latest first. -/
structure Frame where
  kind : GroupKind
  start : Nat
  mode : Mode
  done : List Node := []
  items : List Item := []

structure Reader where
  rest : List Token
  position : Nat := 0
  frame : Frame := ⟨.whole, 0, {}, [], []⟩
  outer : List Frame := []
  /-- widths of the groups in the order of their numbers, none while a group is open -/
  widths : List (Option Width) := []
  names : List (String × Nat) := []
  /-- how many groups there were when the outermost look-behind was opened -/
  behindFrom : Option Nat := none
  /-- numbers that conditionals refer to, with the place of the first reference -/
  references : List (Nat × Nat) := []
  globalFlags : List Char := []

abbrev Read := StateT Reader (Except CompileError)

namespace Reader

/-- one more than the number of groups opened so far -/
def groupBound (r : Reader) : Nat := r.widths.length + 1

def groupWidth? (r : Reader) (n : Nat) : Option Width :=
  match n with
  | 0 => none
  | k + 1 => (r.widths[k]?).join

def groupWidth (r : Reader) (n : Nat) : Width := (r.groupWidth? n).getD (.exactly 0)

end Reader

/-- a problem whose place lies `back` characters before the next token -/
def failBack {α : Type} (problem : Problem) (back : Nat) : Read α := do
  throw (.malformed problem (some ((← get).position - back)))

def failHere {α : Type} (problem : Problem) : Read α := failBack problem 0

def failAt {α : Type} (problem : Problem) (position : Nat) : Read α :=
  throw (.malformed problem (some position))

def next? : Read (Option Token) := do return (← get).rest.head?

/-- A backslash that ends the pattern is reported as soon as it comes next. -/
def checkNext (r : Reader) : Except CompileError Reader :=
  match r.rest with
  | .loneBackslash :: _ => .error (.malformed .escapeAtEnd (some r.position))
  | _ => .ok r

/-- Takes the next token, if there is one. -/
def take? : Read (Option Token) := do
  let r ← get
  match r.rest with
  | [] => return none
  | t :: rest =>
    set (← checkNext { r with rest, position := r.position + t.length })
    return some t

/-- Takes the next token if it is the plain character `c`. -/
def accept (c : Char) : Read Bool := do
  if (← next?) = some (.plain c) then
    let _ ← take?
    return true
  else return false

def acceptIf (p : Char → Bool) : Read (Option Char) := do
  match ← next? with
  | some (.plain c) =>
    if p c then
      let _ ← take?
      return some c
    else return none
  | _ => return none

/-- At most `limit` plain characters of a class. -/
def takeWhile (p : Char → Bool) : Nat → Read (List Char)
  | 0 => return []
  | limit + 1 => do
    match ← acceptIf p with
    | some c => return c :: (← takeWhile p limit)
    | none => return []

/-- The text before a terminator, which is taken too; `taken` is the text so far. -/
def takeUntil (terminator : Char) (what : String) (taken : List Char) : Nat → Read String
  | 0 => failHere (.missing what)
  | limit + 1 => do
    match ← take? with
    | none =>
      if taken.isEmpty then failHere (.missing what)
      else failBack (.unterminatedName terminator) taken.length
    | some t =>
      if t = .plain terminator then
        if taken.isEmpty then failBack (.missing what) 1 else return String.ofList taken
      else takeUntil terminator what (taken ++ t.chars) limit

/-- the text before a terminator; it is not empty -/
def nameUntil (terminator : Char) (what : String) : Read String := do
  takeUntil terminator what [] ((← get).rest.length + 1)

def push (node : Node) (quantifiable : Quantifiable) : Read Unit :=
  modify fun r => { r with frame := { r.frame with items := ⟨node, quantifiable⟩ :: r.frame.items } }

def mode : Read Mode := do return (← get).frame.mode

def pushTest (test : CharTest) : Read Unit := do
  push (.char (← mode) test) .yes

def pushAnchor (anchor : Anchor) : Read Unit := do
  push (.anchor (← mode) anchor) .no

/-- A group may be referred to once it is closed, and from inside a look-behind only if it was closed before. -/
def checkLookBehind (n : Nat) : Read Unit := do
  match (← get).behindFrom with
  | none => return ()
  | some bound =>
    if ((← get).groupWidth? n).isNone then failHere .openGroupReference
    else if bound ≤ n then failHere .lookBehindGroupReference

def pushBackref (n : Nat) : Read Unit := do
  push (.backref (← mode) n) .yes

end UrlRouter.Regex
