/-
Escapes, inside and outside character sets.
-/
import UrlRouter.Regex.Reader.State

namespace UrlRouter.Regex

def isOctalDigit (c : Char) : Bool := '0' ≤ c && c ≤ '7'

def isHexDigit (c : Char) : Bool := Text.isAsciiDigit c || ('a' ≤ c && c ≤ 'f') || ('A' ≤ c && c ≤ 'F')

def hexValue (digits : List Char) : Nat :=
  digits.foldl (fun n c => 16 * n + (if Text.isAsciiDigit c then c.toNat - 48 else c.toLower.toNat - 87)) 0

def octalValue (digits : List Char) : Nat := digits.foldl (fun n c => 8 * n + (c.toNat - 48)) 0

def decimalValue (digits : List Char) : Nat := digits.foldl (fun n c => 10 * n + (c.toNat - 48)) 0

def escapeText (digits : List Char) : String := String.ofList ('\\' :: digits)

/-- the letters that stand for a control character -/
def controlEscape? : Char → Option Nat
  | 'a' => some 7
  | 'b' => some 8
  | 'f' => some 12
  | 'n' => some 10
  | 'r' => some 13
  | 't' => some 9
  | 'v' => some 11
  | '\\' => some 92
  | _ => none

def classEscape? : Char → Option Member
  | 'd' => some (.category .digit false)
  | 'D' => some (.category .digit true)
  | 's' => some (.category .space false)
  | 'S' => some (.category .space true)
  | 'w' => some (.category .word false)
  | 'W' => some (.category .word true)
  | _ => none

def anchorEscape? : Char → Option Anchor
  | 'A' => some .textStart
  | 'b' => some .boundary
  | 'B' => some .notBoundary
  | 'Z' => some .textEnd
  | _ => none

/-- a code point of exactly `count` hexadecimal digits -/
def hexEscape (letter : Char) (count : Nat) : Read Nat := do
  let digits ← takeWhile isHexDigit count
  if digits.length ≠ count then
    failBack (.incompleteEscape (escapeText (letter :: digits))) (digits.length + 2)
  else return hexValue digits

/-- the last code point there is -/
def lastCode : Nat := 0x10ffff

/-- No character is known by name. -/
def namedEscape : Read Nat := do
  if ← accept '\x7b' then
    let name ← nameUntil '\x7d' "character name"
    failBack (.undefinedCharacterName name) (name.length + 4)
  else failHere (.missing "\x7b")

/-- the escapes that mean the same inside and outside a set; `none` if the letter opens none of them -/
def codeEscape? (letter : Char) : Read (Option Nat) := do
  match letter with
  | 'x' => return some (← hexEscape 'x' 2)
  | 'u' => return some (← hexEscape 'u' 4)
  | 'U' =>
    let digits ← takeWhile isHexDigit 8
    if digits.length ≠ 8 then failBack (.incompleteEscape (escapeText ('U' :: digits))) (digits.length + 2)
    else if lastCode < hexValue digits then failBack (.badEscape (escapeText ('U' :: digits))) 10
    else return some (hexValue digits)
  | 'N' => return some (← namedEscape)
  | _ => return none

/-- Any other character stands for itself, but letters and digits are kept back. -/
def plainEscape (c : Char) : Read Nat := do
  if Text.isAsciiLetter c || Text.isAsciiDigit c then failBack (.badEscape (escapeText [c])) 2
  else return c.toNat

def octalEscape (digits : List Char) : Read Nat := do
  if 0o377 < octalValue digits then failBack (.octalTooLarge (escapeText digits)) (digits.length + 1)
  else return octalValue digits

/-- an escape as a member of a set -/
def setEscape (c : Char) : Read Member := do
  if let some n := controlEscape? c then return .code n
  else if let some member := classEscape? c then return member
  else if let some n := ← codeEscape? c then return .code n
  else if isOctalDigit c then return .code (← octalEscape (c :: (← takeWhile isOctalDigit 2)))
  else return .code (← plainEscape c)

/-- A reference needs a closed group; three octal digits are a character and no reference. -/
def digitEscape (c : Char) : Read Unit := do
  let reference (digits : List Char) : Read Unit := do
    let n := decimalValue digits
    let r ← get
    if n < r.groupBound then
      if (r.groupWidth? n).isNone then failBack .openGroupReference (digits.length + 1)
      else
        checkLookBehind n
        pushBackref n
    else failBack (.invalidGroupReference n) digits.length
  match ← acceptIf Text.isAsciiDigit with
  | none => reference [c]
  | some d =>
    if isOctalDigit c && isOctalDigit d then
      match ← acceptIf isOctalDigit with
      | some e => pushTest (.code (← octalEscape [c, d, e]))
      | none => reference [c, d]
    else reference [c, d]

/-- an escape as an item of an expression -/
def readEscape (c : Char) : Read Unit := do
  if let some anchor := anchorEscape? c then pushAnchor anchor
  else if let some member := classEscape? c then pushTest (.set false [member])
  else if let some n := controlEscape? c then pushTest (.code n)
  else if let some n := ← codeEscape? c then pushTest (.code n)
  else if c = '0' then pushTest (.code (octalValue (← takeWhile isOctalDigit 2)))
  else if Text.isAsciiDigit c then digitEscape c
  else pushTest (.code (← plainEscape c))

end UrlRouter.Regex
