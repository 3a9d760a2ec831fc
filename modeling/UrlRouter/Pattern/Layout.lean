/-
The layout of a route pattern: a base and a chain of optional segments.

Base and segments are pieces, each a literal text or a token such as `\x7bid\x7d` or `\x7bid:[0-9]+\x7d`. Reading scans the text
once per level: the chain is split off, the chain is cut at its semicolons, and each part is cut into pieces. Brackets
and semicolons inside braces belong to the constraint of a token.
-/
import UrlRouter.Pattern.Fault
import UrlRouter.Text.Blank
import UrlRouter.Text.Letter

namespace UrlRouter.Pattern

/-- a token: its text with the braces, its name and its own constraint -/
structure Token where
  text : String
  name : String
  constraint : Option String
  deriving DecidableEq, Repr

inductive Piece where
  | literal (text : String)
  | token (token : Token)
  deriving DecidableEq, Repr

namespace Piece

def token? : Piece → Option Token
  | literal _ => none
  | token t => some t

/-- the piece as it was written -/
def written : Piece → String
  | literal text => text
  | token t => t.text

end Piece

/-- Pieces joined to a text, each token written by `f`. -/
def render (f : Token → String) (pieces : List Piece) : String :=
  String.join (pieces.map fun
    | .literal text => text
    | .token t => f t)

structure Layout where
  base : List Piece
  segments : List (List Piece)
  deriving DecidableEq, Repr

namespace Layout

/-- Whether the pattern is nothing but an optional chain. -/
def optionalStart (layout : Layout) : Bool := layout.base.isEmpty && !layout.segments.isEmpty

def baseTokens (layout : Layout) : List Token := layout.base.filterMap Piece.token?

/-- all tokens from left to right -/
def tokens (layout : Layout) : List Token :=
  layout.baseTokens ++ layout.segments.flatMap (·.filterMap Piece.token?)

def names (layout : Layout) : List String := layout.tokens.map (·.name)

/-- `start` extended by one more segment each time -/
def extensions (start : List Piece) : List (List Piece) → List (List Piece)
  | [] => []
  | segment :: rest => (start ++ segment) :: extensions (start ++ segment) rest

/-- The pieces of each variant, from no segment to all of them. A pattern that opens with its chain stands for the
root path when no segment is there. -/
def variants (layout : Layout) : List (List Piece) :=
  (if layout.optionalStart then [.literal "/"] else layout.base) ::
    extensions (if layout.optionalStart then [] else layout.base) layout.segments

end Layout

def isTokenOpen (c : Char) : Bool := c = '\x7b'

def isTokenClose (c : Char) : Bool := c = '\x7d'

/-- Splits the text before the first bracket outside braces from the chain that starts there. -/
def splitChain (depth : Nat) : List Char → Except Fault (List Char × Option (List Char))
  | [] => .ok ([], none)
  | c :: rest =>
    if isTokenOpen c then (splitChain (depth + 1) rest).map fun (base, chain) => (c :: base, chain)
    else if isTokenClose c then
      if depth = 0 then .error .unbalancedBraces
      else (splitChain (depth - 1) rest).map fun (base, chain) => (c :: base, chain)
    else if c = '[' && depth = 0 then .ok ([], some (c :: rest))
    else (splitChain depth rest).map fun (base, chain) => (c :: base, chain)

/-- Cuts the inside of a chain at the semicolons outside braces; `buffer` is the part so far. -/
def cutChain (depth : Int) (buffer : List Char) : List Char → Except Fault (List (List Char))
  | [] => .ok [buffer]
  | c :: rest =>
    if isTokenOpen c then cutChain (depth + 1) (buffer ++ [c]) rest
    else if isTokenClose c then cutChain (depth - 1) (buffer ++ [c]) rest
    else if (c = '[' || c = ']') && depth = 0 then .error .nestedChain
    else if c = ';' && depth = 0 then (cutChain depth [] rest).map (buffer :: ·)
    else cutChain depth (buffer ++ [c]) rest

/-- The segments of a chain, from its opening bracket on. -/
def readChain (chain : List Char) : Except Fault (List (List Char)) := do
  let chain := Text.trimEnd chain
  if ['[', '!'].isPrefixOf chain then throw .exclamationChain
  if chain.getLast? ≠ some ']' then throw .unclosedChain
  let parts ← cutChain 0 [] (chain.drop 1).dropLast
  let segments := parts.map Text.trim
  if segments.any (·.isEmpty) then throw .emptySegment
  return segments

/-- A name opens with an ASCII letter or an underscore and goes on with word characters and dashes. -/
def isTokenName : List Char → Bool
  | [] => false
  | c :: rest => (Text.isAsciiLetter c || c = '_') && rest.all fun d => Text.isWord d || d = '-'

/-- A token from its text with the braces: a name and, after a colon, a constraint. -/
def Token.read (text : List Char) : Except Fault Token :=
  let body := (text.drop 1).dropLast
  let name := Text.trim (body.takeWhile (· ≠ ':'))
  let constraint := Text.trim ((body.dropWhile (· ≠ ':')).drop 1)
  if isTokenName name then
    .ok ⟨String.ofList text, String.ofList name,
      if constraint.isEmpty then none else some (String.ofList constraint)⟩
  else .error (.invalidName (String.ofList name))

def literalPieces (text : List Char) : List Piece :=
  if text.isEmpty then [] else [.literal (String.ofList text)]

/-- Cuts a text into pieces. `buffer` is the literal so far, or inside braces the token so far; blanks right before a
token are dropped. -/
def readPieces (depth : Nat) (buffer : List Char) : List Char → Except Fault (List Piece)
  | [] => if depth = 0 then .ok (literalPieces buffer) else .error .unbalancedBraces
  | c :: rest =>
    if depth = 0 then
      if isTokenOpen c then (readPieces 1 [c] rest).map (literalPieces (Text.trimEnd buffer) ++ ·)
      else if isTokenClose c then .error .unbalancedBraces
      else readPieces 0 (buffer ++ [c]) rest
    else if isTokenOpen c then readPieces (depth + 1) (buffer ++ [c]) rest
    else if isTokenClose c && depth = 1 then do
      let token ← Token.read (buffer ++ [c])
      return .token token :: (← readPieces 0 [] rest)
    else readPieces (if isTokenClose c then depth - 1 else depth) (buffer ++ [c]) rest

/-- the first name that occurs a second time -/
def firstRepeated? (seen : List String) : List String → Option String
  | [] => none
  | name :: rest => if seen.contains name then some name else firstRepeated? (name :: seen) rest

/-- whether a segment starts with a literal slash -/
def startsWithSlash : List Piece → Bool
  | .literal text :: _ => text.toList.head? = some '/'
  | _ => false

/-- A pattern's layout, or the first fault met. -/
def readLayout (pattern : String) : Except Fault Layout := do
  let (base, chain) ← splitChain 0 pattern.toList
  let base := Text.trim base
  let segments ←
    match chain with
    | none => pure []
    | some chain => (← readChain chain).mapM (readPieces 0 [])
  if base.isEmpty then
    if let first :: _ := segments then
      unless startsWithSlash first do throw .leadingChainWithoutSlash
  let layout : Layout := ⟨← readPieces 0 [] base, segments⟩
  match firstRepeated? [] layout.names with
  | some name => throw (.duplicateAttribute name)
  | none => return layout

/-- A pattern is dynamic when it holds a token or an optional chain. -/
def isDynamic (pattern : String) : Bool :=
  pattern.toList.any fun c => isTokenOpen c || c = '['

/-- The layout of a pattern; a fault names the pattern. -/
def analyze (pattern : String) : Except Error Layout :=
  (readLayout pattern).mapError (.fault · (some pattern))

end UrlRouter.Pattern
