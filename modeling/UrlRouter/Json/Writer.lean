/-
The compact text of a JSON value.

There are no blanks between tokens. In strings the quote and the backslash take a backslash, control characters below
the space their short escape or four hexadecimal digits, and everything else stands as it is.
-/
import UrlRouter.Json.Basic
import UrlRouter.Decimal.Shortest

namespace UrlRouter.Json

def escapeDigit (n : Nat) : Char :=
  if n < 10 then Char.ofNat (48 + n) else Char.ofNat (87 + n)

def escapedChar (c : Char) : List Char :=
  if c = '"' then ['\\', '"']
  else if c = '\\' then ['\\', '\\']
  else if c = '\n' then ['\\', 'n']
  else if c = '\t' then ['\\', 't']
  else if c = '\r' then ['\\', 'r']
  else if c = '\x08' then ['\\', 'b']
  else if c = '\x0c' then ['\\', 'f']
  else if c.toNat < 32 then ['\\', 'u', '0', '0', escapeDigit (c.toNat / 16), escapeDigit (c.toNat % 16)]
  else [c]

def writeChars (text : List Char) : List Char := text.flatMap escapedChar

def writeString (text : String) : List Char := '"' :: writeChars text.toList ++ ['"']

def writeInt (n : Int) : List Char :=
  if n < 0 then '-' :: Nat.toDigits 10 n.natAbs else Nat.toDigits 10 n.natAbs

mutual

def write : Json → List Char
  | null => ['n', 'u', 'l', 'l']
  | bool true => ['t', 'r', 'u', 'e']
  | bool false => ['f', 'a', 'l', 's', 'e']
  | int n => writeInt n
  | float x => (Decimal.floatText x).toList
  | string text => writeString text
  | array [] => ['[', ']']
  | array (item :: items) => '[' :: (write item ++ writeItems items)
  | object [] => ['\x7b', '\x7d']
  | object ((key, value) :: fields) => '\x7b' :: (writeString key ++ ':' :: (write value ++ writeFields fields))

/-- the items after the first, and the closing bracket -/
def writeItems : List Json → List Char
  | [] => [']']
  | item :: items => ',' :: (write item ++ writeItems items)

/-- the fields after the first, and the closing brace -/
def writeFields : List (String × Json) → List Char
  | [] => ['\x7d']
  | (key, value) :: fields => ',' :: (writeString key ++ ':' :: (write value ++ writeFields fields))

end

def text (value : Json) : String := String.ofList (write value)

end UrlRouter.Json
