/-
The syntax tree of a regular expression.

Options such as "ignore case" are settled while an expression is read, so every test of a character, anchor and
reference carries the mode it was written in and a tree means the same wherever it stands.
-/
namespace UrlRouter.Regex

/-- the options that bear on what an expression matches, and on how it is read -/
structure Mode where
  ascii : Bool := false
  ignoreCase : Bool := false
  multiline : Bool := false
  dotAll : Bool := false
  verbose : Bool := false
  deriving DecidableEq, Repr

inductive CharClass where
  | digit
  | space
  | word
  deriving DecidableEq, Repr

/-- one member of a character set -/
inductive Member where
  | code (code : Nat)
  | span (first last : Nat)
  | category (kind : CharClass) (negated : Bool)
  deriving DecidableEq, Repr

/-- what a single character is held against; code points may lie among the surrogates, which no text holds -/
inductive CharTest where
  | code (code : Nat)
  | notCode (code : Nat)
  | any
  | set (negated : Bool) (members : List Member)
  deriving DecidableEq, Repr

inductive Anchor where
  | lineStart
  | lineEnd
  | textStart
  | textEnd
  | boundary
  | notBoundary
  deriving DecidableEq, Repr

inductive Greed where
  | greedy
  | lazy
  | possessive
  deriving DecidableEq, Repr

/-- least and most characters an expression takes; `none` is no bound -/
structure Width where
  least : Nat
  most : Option Nat
  deriving DecidableEq, Repr

namespace Width

def exactly (n : Nat) : Width := ⟨n, some n⟩

def addMost : Option Nat → Option Nat → Option Nat
  | some a, some b => some (a + b)
  | _, _ => none

def maxMost : Option Nat → Option Nat → Option Nat
  | some a, some b => some (max a b)
  | _, _ => none

/-- `none` times nothing is nothing. -/
def timesMost : Option Nat → Option Nat → Option Nat
  | some a, some b => some (a * b)
  | some 0, none => some 0
  | none, some 0 => some 0
  | _, _ => none

def followedBy (a b : Width) : Width := ⟨a.least + b.least, addMost a.most b.most⟩

def orElse (a b : Width) : Width := ⟨min a.least b.least, maxMost a.most b.most⟩

def times (a : Width) (least : Nat) (most : Option Nat) : Width := ⟨a.least * least, timesMost a.most most⟩

end Width

/-- `behind` looks back over a body of the given width. -/
inductive Direction where
  | ahead
  | behind (width : Width)
  deriving DecidableEq, Repr

inductive Node where
  | empty
  | char (mode : Mode) (test : CharTest)
  | anchor (mode : Mode) (place : Anchor)
  | backref (mode : Mode) (group : Nat)
  | seq (first second : Node)
  | alt (first second : Node)
  | group (number : Nat) (body : Node)
  | atomic (body : Node)
  | look (direction : Direction) (negated : Bool) (body : Node)
  | conditional (group : Nat) (present absent : Node)
  | loop (greed : Greed) (least : Nat) (most : Option Nat) (body : Node)
  deriving DecidableEq, Repr

namespace Node

def ofList : List Node → Node
  | [] => .empty
  | [node] => node
  | node :: rest => .seq node (ofList rest)

/-- Alternatives in order; there is at least one. -/
def ofAlternatives : List Node → Node
  | [] => .empty
  | [node] => node
  | node :: rest => .alt node (ofAlternatives rest)

/-- How many characters a match takes, given the widths of the groups referred to. A conditional without its second
part counts as possibly empty because that part is then `empty`. -/
def width (groups : Nat → Width) : Node → Width
  | empty => .exactly 0
  | char _ _ => .exactly 1
  | anchor _ _ => .exactly 0
  | backref _ n => groups n
  | seq a b => (a.width groups).followedBy (b.width groups)
  | alt a b => (a.width groups).orElse (b.width groups)
  | group _ body => body.width groups
  | atomic body => body.width groups
  | look _ _ _ => .exactly 0
  | conditional _ a b => (a.width groups).orElse (b.width groups)
  | loop _ least most body => (body.width groups).times least most

end Node

end UrlRouter.Regex
