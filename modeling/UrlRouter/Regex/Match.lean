/-
Matching a regular expression against a whole text.

The matcher follows the tree and hands every place it reaches to a continuation, so the first success in order of
preference wins and undoing a choice needs no code: marks are part of the place. A loop is bounded by the characters
left, because an iteration that takes none is the last.
-/
import UrlRouter.Regex.CharTest
import UrlRouter.Regex.Compile

namespace UrlRouter.Regex

/-- A position in the text, with where each group was last opened and closed, the latest first, and the number of the
group that closed last. -/
structure Place where
  position : Nat := 0
  opened : List (Nat × Nat) := []
  closed : List (Nat × Nat) := []
  lastClosed : Option Nat := none
  deriving DecidableEq, Repr

namespace Place

/-- The span of a group; a group that was opened again behind its last end has none. -/
def span? (p : Place) (n : Nat) : Option (Nat × Nat) :=
  match p.opened.lookup n, p.closed.lookup n with
  | some first, some last => if first ≤ last then some (first, last) else none
  | _, _ => none

def openGroup (p : Place) (n : Nat) : Place := { p with opened := (n, p.position) :: p.opened }

def closeGroup (p : Place) (n : Nat) : Place :=
  { p with closed := (n, p.position) :: p.closed, lastClosed := some n }

def forward (p : Place) (count : Nat) : Place := { p with position := p.position + count }

end Place

abbrev Continuation := Place → Option Place

def isWordAt (ascii : Bool) (text : Array Char) (position : Nat) : Bool :=
  (text[position]?).any (CharClass.word.holds ascii)

/-- There is no boundary, and no absence of one, in an empty text. -/
def Anchor.holds (mode : Mode) (text : Array Char) (position : Nat) : Anchor → Bool
  | .lineStart => position = 0 || (mode.multiline && text[position - 1]? == some '\n')
  | .lineEnd =>
    position = text.size ||
      (text[position]? == some '\n' && (mode.multiline || position + 1 = text.size))
  | .textStart => position = 0
  | .textEnd => position = text.size
  | .boundary => 0 < text.size && wordEdge text position
  | .notBoundary => 0 < text.size && !wordEdge text position
where
  wordEdge (text : Array Char) (position : Nat) : Bool :=
    (0 < position && isWordAt mode.ascii text (position - 1)) != isWordAt mode.ascii text position

def Mode.sameChar (mode : Mode) (c d : Char) : Bool :=
  c = d || (mode.ignoreCase && mode.lowered c.toNat = mode.lowered d.toNat)

/-- whether the text from `position` on repeats the `count` characters from `first` on -/
def repeats (mode : Mode) (text : Array Char) (first position : Nat) : Nat → Bool
  | 0 => true
  | count + 1 =>
    match text[first]?, text[position]? with
    | some c, some d => mode.sameChar c d && repeats mode text (first + 1) (position + 1) count
    | _, _ => false

section Loops

variable (body : Place → Continuation → Option Place)

/-- Exactly `count` iterations, however little they take. -/
def iterate : Nat → Place → Continuation → Option Place
  | 0, p, k => k p
  | count + 1, p, k => body p fun q => iterate count q k

/-- As many more iterations as will do, the most first; `last` is where the latest of them started. -/
def mostFirst (k : Continuation) : Nat → Option Nat → Place → Option Place
  | 0, _, p => k p
  | budget + 1, last, p =>
    if last = some p.position then k p
    else (body p (mostFirst k budget (some p.position))).or (k p)

/-- As few more iterations as will do. -/
def fewestFirst (k : Continuation) : Nat → Option Nat → Place → Option Place
  | 0, _, p => k p
  | budget + 1, last, p =>
    (k p).or (if last = some p.position then none else body p (fewestFirst k budget (some p.position)))

/-- All the further iterations that can be made, each decided for good. -/
def allOrNothing : Nat → Option Nat → Place → Place
  | 0, _, p => p
  | budget + 1, last, p =>
    if last = some p.position then p
    else match body p some with
      | some q => allOrNothing budget (some p.position) q
      | none => p

/-- `count` iterations, each decided for good -/
def iterateOnce : Nat → Place → Option Place
  | 0, p => some p
  | count + 1, p => (body p some).bind (iterateOnce count)

end Loops

/-- How many iterations past the least number can matter: one for each character left and one that takes none. -/
def loopBudget (text : Array Char) (position least : Nat) (most : Option Nat) : Nat :=
  let bound := text.size - position + 1
  match most with
  | none => bound
  | some most => min (most - least) bound

def Node.run (text : Array Char) : Node → Place → Continuation → Option Place
  | .empty, p, k => k p
  | .char mode test, p, k =>
    match text[p.position]? with
    | some c => if test.accepts mode c then k (p.forward 1) else none
    | none => none
  | .anchor mode place, p, k => if place.holds mode text p.position then k p else none
  | .backref mode n, p, k =>
    match p.span? n with
    | some (first, last) =>
      if repeats mode text first p.position (last - first) then k (p.forward (last - first)) else none
    | none => none
  | .seq a b, p, k => a.run text p fun q => b.run text q k
  | .alt a b, p, k => (a.run text p k).or (b.run text p k)
  | .group n body, p, k => body.run text (p.openGroup n) fun q => k (q.closeGroup n)
  | .atomic body, p, k => (body.run text p some).bind k
  | .look direction negated body, p, k =>
    let found :=
      match direction with
      | .ahead => body.run text p some
      | .behind width =>
        if width.least ≤ p.position then body.run text { p with position := p.position - width.least } some
        else none
    if negated then
      match found with
      | some _ => none
      | none => k p
    else found.bind fun q => k { q with position := p.position }
  | .conditional n present absent, p, k =>
    if (p.span? n).isSome then present.run text p k else absent.run text p k
  | .loop .greedy least most body, p, k =>
    iterate (body.run text) least p fun q =>
      mostFirst (body.run text) k (loopBudget text q.position least most) none q
  | .loop .lazy least most body, p, k =>
    iterate (body.run text) least p fun q =>
      fewestFirst (body.run text) k (loopBudget text q.position least most) none q
  | .loop .possessive least most body, p, k =>
    (iterateOnce (body.run text) least p).bind fun q =>
      k (allOrNothing (body.run text) (loopBudget text q.position least most) none q)

/-- A match of a whole text. -/
structure Match where
  text : Array Char
  place : Place

namespace Match

def group? (m : Match) (n : Nat) : Option String :=
  (m.place.span? n).map fun (first, last) => String.ofList (m.text.extract first last).toList

/-- the group that closed last -/
def lastClosed (m : Match) : Option Nat := m.place.lastClosed

end Match

/-- The preferred way in which the expression matches the whole text. -/
def fullMatch? (regex : Regex) (text : String) : Option Match :=
  let chars := text.toList.toArray
  (regex.root.run chars {} fun p => if p.position = chars.size then some p else none).map (⟨chars, ·⟩)

end UrlRouter.Regex
