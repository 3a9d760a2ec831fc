/-
Reading JSON.

The grammar is the strict one: no comments, no comma at the end, no control character inside a string and no half of a
surrogate pair. A number with a fraction or an exponent is a fraction, any other a whole number.
-/
import UrlRouter.Json.Basic

namespace UrlRouter.Json

def isSpace (c : Char) : Bool := c = ' ' || c = '\n' || c = '\r' || c = '\t'

def skipSpaces (text : List Char) : List Char := text.dropWhile isSpace

def hexValue? (c : Char) : Option Nat :=
  if '0' ≤ c && c ≤ '9' then some (c.toNat - 48)
  else if 'a' ≤ c && c ≤ 'f' then some (c.toNat - 87)
  else if 'A' ≤ c && c ≤ 'F' then some (c.toNat - 55)
  else none

def hexFour? (a b c d : Char) : Option Nat := do
  return ((← hexValue? a) * 16 + (← hexValue? b)) * 256 + (← hexValue? c) * 16 + (← hexValue? d)

def isHighSurrogate (n : Nat) : Bool := 0xd800 ≤ n && n < 0xdc00

def isLowSurrogate (n : Nat) : Bool := 0xdc00 ≤ n && n < 0xe000

def simpleEscape? : Char → Option Char
  | '"' => some '"'
  | '\\' => some '\\'
  | '/' => some '/'
  | 'b' => some '\x08'
  | 'f' => some '\x0c'
  | 'n' => some '\n'
  | 'r' => some '\r'
  | 't' => some '\t'
  | _ => none

/-- the text up to the closing quote, and what follows it -/
def readChars : List Char → Option (List Char × List Char)
  | [] => none
  | '"' :: rest => some ([], rest)
  | '\\' :: 'u' :: a :: b :: c :: d :: rest =>
    match hexFour? a b c d with
    | none => none
    | some n =>
      if isHighSurrogate n then
        match rest with
        | '\\' :: 'u' :: e :: f :: g :: h :: rest =>
          match hexFour? e f g h with
          | none => none
          | some m =>
            if isLowSurrogate m then
              (readChars rest).map fun (text, after) =>
                (Char.ofNat (0x10000 + (n - 0xd800) * 0x400 + (m - 0xdc00)) :: text, after)
            else none
        | _ => none
      else if isLowSurrogate n then none
      else (readChars rest).map fun (text, after) => (Char.ofNat n :: text, after)
  | '\\' :: c :: rest =>
    match simpleEscape? c with
    | none => none
    | some d => (readChars rest).map fun (text, after) => (d :: text, after)
  | c :: rest =>
    if c = '\\' || c.toNat < 32 then none
    else (readChars rest).map fun (text, after) => (c :: text, after)

def isDigit (c : Char) : Bool := '0' ≤ c && c ≤ '9'

def digitsValue (digits : List Char) : Nat := digits.foldl (fun n c => 10 * n + (c.toNat - 48)) 0

/-- Beyond this many decimal places to either side a fraction is infinite or zero. -/
def placesLimit : Nat := 400

/-- `digits` with the point moved `exponent` places to the right -/
def fraction (negative : Bool) (digits : Nat) (exponent : Int) : Float :=
  let length := (Nat.toDigits 10 digits).length
  let size :=
    if digits = 0 || exponent + length < -(placesLimit : Int) then 0.0
    else if (placesLimit : Int) < exponent + length then Float.ofScientific 1 false placesLimit
    else Float.ofScientific digits (exponent < 0) exponent.natAbs
  if negative then -size else size

/-- An exponent with its sign, which must have a digit. -/
def readExponent (text : List Char) : Option (Int × List Char) :=
  let (negative, rest) :=
    match text with
    | '-' :: rest => (true, rest)
    | '+' :: rest => (false, rest)
    | rest => (false, rest)
  match rest.takeWhile isDigit with
  | [] => none
  | digits =>
    some (if negative then -(digitsValue digits : Int) else digitsValue digits, rest.dropWhile isDigit)

/-- A number after its sign. The whole part has no zero in front, and a point has digits after it. -/
def readUnsigned (negative : Bool) (text : List Char) : Option (Json × List Char) := do
  let whole := text.takeWhile isDigit
  let rest := text.dropWhile isDigit
  if whole.isEmpty || (whole.head? = some '0' && 1 < whole.length) then none
  let places :=
    match rest with
    | '.' :: after => after.takeWhile isDigit
    | _ => []
  let rest' ←
    match rest with
    | '.' :: after => if places.isEmpty then none else some (after.dropWhile isDigit)
    | _ => some rest
  let digits := digitsValue (whole ++ places)
  match rest' with
  | c :: after =>
    if c = 'e' || c = 'E' then
      let (exponent, after) ← readExponent after
      return (.float (fraction negative digits (exponent - places.length)), after)
  | [] => pure ()
  if rest.head? = some '.' then return (.float (fraction negative digits (-places.length)), rest')
  return (.int (if negative then -(digits : Int) else digits), rest')

def readNumber (text : List Char) : Option (Json × List Char) :=
  match text with
  | '-' :: rest => readUnsigned true rest
  | _ => readUnsigned false text

mutual

/-- a value and what follows it; `limit` bounds the depth and the length of what is read -/
def readValue : Nat → List Char → Option (Json × List Char)
  | 0, _ => none
  | limit + 1, text =>
    match skipSpaces text with
    | 'n' :: 'u' :: 'l' :: 'l' :: rest => some (.null, rest)
    | 't' :: 'r' :: 'u' :: 'e' :: rest => some (.bool true, rest)
    | 'f' :: 'a' :: 'l' :: 's' :: 'e' :: rest => some (.bool false, rest)
    | '"' :: rest => (readChars rest).map fun (chars, after) => (.string (String.ofList chars), after)
    | '[' :: rest =>
      match skipSpaces rest with
      | ']' :: after => some (.array [], after)
      | rest => do
        let (item, after) ← readValue limit rest
        let (items, after) ← readItems limit after
        return (.array (item :: items), after)
    | '\x7b' :: rest =>
      match skipSpaces rest with
      | '\x7d' :: after => some (.object [], after)
      | rest => do
        let (item, after) ← readField limit rest
        let (fields, after) ← readFields limit after
        return (.object (item :: fields), after)
    | rest => readNumber rest

/-- the items after the first, and the closing bracket -/
def readItems : Nat → List Char → Option (List Json × List Char)
  | 0, _ => none
  | limit + 1, text =>
    match skipSpaces text with
    | ']' :: rest => some ([], rest)
    | ',' :: rest => do
      let (item, after) ← readValue limit rest
      let (items, after) ← readItems limit after
      return (item :: items, after)
    | _ => none

/-- a key, the colon and a value -/
def readField : Nat → List Char → Option ((String × Json) × List Char)
  | 0, _ => none
  | limit + 1, text =>
    match skipSpaces text with
    | '"' :: rest => do
      let (key, after) ← readChars rest
      match skipSpaces after with
      | ':' :: after =>
        let (value, after) ← readValue limit after
        return ((String.ofList key, value), after)
      | _ => none
    | _ => none

/-- the fields after the first, and the closing brace -/
def readFields : Nat → List Char → Option (List (String × Json) × List Char)
  | 0, _ => none
  | limit + 1, text =>
    match skipSpaces text with
    | '\x7d' :: rest => some ([], rest)
    | ',' :: rest => do
      let (item, after) ← readField limit rest
      let (fields, after) ← readFields limit after
      return (item :: fields, after)
    | _ => none

end

/-- The value that a text writes, with nothing but blanks around it. -/
def ofText? (text : String) : Option Json := do
  let chars := text.toList
  let (value, rest) ← readValue (2 * chars.length + 1) chars
  if (skipSpaces rest).isEmpty then some value else none

end UrlRouter.Json
