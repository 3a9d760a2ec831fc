/-
Checks of JSON values.

A check turns a value into one of a type or lists every issue with it, in the order of the fields and items. Fields
that no check asks for are ignored.
-/
import UrlRouter.Validation.Issue
import UrlRouter.Json.Basic
import UrlRouter.Text.Numeral
import UrlRouter.Decimal.Binary

namespace UrlRouter.Validation

abbrev Checked (α : Type) := Except (List Issue) α

abbrev Check (α : Type) := Json → Checked α

def refuse {α : Type} (cause : Cause) : Checked α := .error [⟨[], cause⟩]

/-- Two results, or the issues of both. -/
def both {α β : Type} : Checked α → Checked β → Checked (α × β)
  | .ok a, .ok b => .ok (a, b)
  | .error e, .ok _ => .error e
  | .ok _, .error e => .error e
  | .error e, .error f => .error (e ++ f)

/-- A result whose issues lie one step further in. -/
def under {α : Type} (step : Step) (result : Checked α) : Checked α :=
  result.mapError (·.map (·.under step))

/-- What must hold of a value of the right type. -/
def ensure {α β : Type} (f : α → Except Cause β) (result : Checked α) : Checked β :=
  match result with
  | .error e => .error e
  | .ok a =>
    match f a with
    | .ok b => .ok b
    | .error cause => refuse cause

/-- A field that must be there. -/
def required {α : Type} (name : String) (check : Check α) (value : Json) : Checked α :=
  under (.field name) (match value.field? name with
    | some field => check field
    | none => refuse .missing)

/-- A field with a value for when it is not there. -/
def optional {α : Type} (name : String) (absent : α) (check : Check α) (value : Json) : Checked α :=
  match value.field? name with
  | some field => under (.field name) (check field)
  | none => .ok absent

def nullable {α : Type} (check : Check α) : Check (Option α)
  | .null => .ok none
  | value => (check value).map some

def anyString : Check String
  | .string text => .ok text
  | _ => refuse .stringWanted

/-- Items with their results, or the issues of all of them. -/
def items {α : Type} (check : Check α) (index : Nat) : List Json → Checked (List α)
  | [] => .ok []
  | value :: rest =>
    (both (under (.item index) (check value)) (items check (index + 1) rest)).map fun (a, as) => a :: as

def listOf {α : Type} (check : Check α) : Check (List α)
  | .array values => items check 0 values
  | _ => refuse .arrayWanted

/-- The fields with the last value of each key, in the order of the keys. -/
def distinctFields (fields : List (String × Json)) : List (String × Json) :=
  (fields.map (·.1)).eraseDups.filterMap fun key =>
    (fields.reverse.find? (·.1 == key)).map fun (_, value) => (key, value)

def entries {α : Type} (check : Check α) : List (String × Json) → Checked (List (String × α))
  | [] => .ok []
  | (key, value) :: rest =>
    (both (under (.field key) (check value)) (entries check rest)).map fun (a, as) => (key, a) :: as

def mappingOf {α : Type} (check : Check α) : Check (List (String × α))
  | .object fields => entries check (distinctFields fields)
  | _ => refuse .mappingWanted

/-- A record of the given name, from an object. -/
def model {α : Type} (name : String) (check : Check α) : Check α
  | .object fields => check (.object fields)
  | _ => refuse (.modelWanted name)

/-- Digits are those of ASCII, and the separators of information are no blanks. -/
def isNumeralChar (c : Char) : Bool :=
  if c.toNat < 128 then c.toNat < 0x1c || 0x1f < c.toNat else Text.isBlank c

/-- A whole number with zeros behind a point is read as well. -/
def integerText (text : String) : Checked Int :=
  let chars := text.toList
  let places := (chars.dropWhile (· ≠ '.')).drop 1
  let whole := if chars.contains '.' && (Text.trimEnd places).all (· = '0') then chars.takeWhile (· ≠ '.') else chars
  match chars.all isNumeralChar, Text.readInteger (String.ofList whole) with
  | true, .ok n => .ok n
  | true, .error (.tooLong _) => refuse .intTooLarge
  | _, _ => refuse .intUnreadable

/-- a fraction as a whole number, if it is one -/
def integerOfQuantity (q : Decimal.Quantity) : Except Cause Int :=
  let (n, d) := Decimal.binaryRatio q.units 1 q.exponent
  if n % d ≠ 0 then .error .intFromFraction
  else if Int64.maxValue.toInt < (n / d : Nat) then .error .intTooLarge
  else .ok (if q.negative then -((n / d : Nat) : Int) else (n / d : Nat))

/-- Whole numbers, also written as a text, a fraction without places or a truth value. -/
def integer : Check Int
  | .int n => .ok n
  | .bool b => .ok (if b then 1 else 0)
  | .string text => integerText text
  | .float x =>
    match Decimal.Reading.ofFloat x with
    | .finite q =>
      match integerOfQuantity q with
      | .ok n => .ok n
      | .error cause => refuse cause
    | _ => refuse .numberNotFinite
  | _ => refuse .intWanted

def trueWords : List String := ["1", "on", "t", "true", "y", "yes"]

def falseWords : List String := ["0", "off", "f", "false", "n", "no"]

def asciiLower (text : String) : String := String.ofList (text.toList.map Char.toLower)

/-- One and zero; a number of more than 64 bits is not taken for a truth value at all. -/
def boolOfInt (n : Int) : Checked Bool :=
  if n = 1 then .ok true
  else if n = 0 then .ok false
  else if Int64.minValue.toInt ≤ n && n ≤ Int64.maxValue.toInt then refuse .boolUnreadable
  else refuse .boolWanted

/-- Truth values, also written as a word or as the numbers zero and one. -/
def boolean : Check Bool
  | .bool b => .ok b
  | .int n => boolOfInt n
  | .string text =>
    if trueWords.contains (asciiLower text) then .ok true
    else if falseWords.contains (asciiLower text) then .ok false
    else refuse .boolUnreadable
  | .float x =>
    match Decimal.Reading.ofFloat x with
    | .finite q =>
      match integerOfQuantity q with
      | .ok n => boolOfInt n
      | .error _ => refuse .boolWanted
    | _ => refuse .boolWanted
  | _ => refuse .boolWanted

def atLeast (bound : Int) (n : Int) : Except Cause Int := if bound ≤ n then .ok n else .error (.below bound)

def atMost (bound : Int) (n : Int) : Except Cause Int := if n ≤ bound then .ok n else .error (.above bound)

end UrlRouter.Validation
