/-
Message templates.

A template is text with fields that begin with a percent sign. A field takes the next argument, or the named one if the
arguments are a single mapping, and says how it is written: sign and padding, least width, precision and kind. Faults
come in the order of the fields.
-/
import UrlRouter.Json.Plain
import UrlRouter.Decimal.Scientific
import UrlRouter.Mapping

namespace UrlRouter.Log

inductive TemplateError where
  /-- too few arguments, too many, or one of the wrong type -/
  | arguments
  | incomplete
  | incompleteKey
  | unsupported (kind : Char) (index : Nat)
  | missingKey (key : String)
  | noSuchCharacter
  | widthTooBig
  | precisionTooBig
  /-- a whole number that no fraction can stand for -/
  | unrepresentable
  /-- an argument as a width or precision that no text can have -/
  | amountTooBig
  deriving DecidableEq, Repr

def TemplateError.message : TemplateError → String
  | arguments => ""
  | incomplete => "incomplete format"
  | incompleteKey => "incomplete format key"
  | unsupported kind index =>
    let shown := if 31 ≤ kind.toNat && kind.toNat < 127 then kind else '?'
    "unsupported format character '" ++ shown.toString ++ "' (0x" ++ String.ofList (Nat.toDigits 16 kind.toNat) ++
      ") at index " ++ toString index
  | missingKey key => Text.quoted key
  | noSuchCharacter => "%c arg not in range(0x110000)"
  | widthTooBig => "width too big"
  | precisionTooBig => "precision too big"
  | unrepresentable => "int too large to convert to float"
  | amountTooBig => "width or precision too big"

/-- a width or precision: a number, or the next argument -/
inductive Amount where
  | fixed (n : Nat)
  | argument
  deriving DecidableEq, Repr

structure Field where
  key : Option String := none
  flags : List Char := []
  width : Option Amount := none
  precision : Option Amount := none
  /-- none if the template ends before it -/
  kind : Option Char
  /-- where the kind stands in the template -/
  index : Nat
  deriving DecidableEq, Repr

inductive Piece where
  | literal (c : Char)
  | field (field : Field)
  /-- a key without an end -/
  | openKey
  deriving DecidableEq, Repr

/-- The key up to its closing parenthesis; inner ones come in pairs. -/
def readKey (depth : Nat) : List Char → Option (List Char × List Char)
  | [] => none
  | c :: rest =>
    if c = ')' && depth = 0 then some ([], rest)
    else
      let deeper := if c = '(' then depth + 1 else if c = ')' then depth - 1 else depth
      (readKey deeper rest).map fun (key, rest) => (c :: key, rest)

def readAmount : List Char → Option Amount × List Char
  | '*' :: rest => (some .argument, rest)
  | chars =>
    let digits := chars.takeWhile Char.isDigit
    (if digits.isEmpty then none else some (.fixed (digits.foldl (fun n c => 10 * n + (c.toNat - 48)) 0)),
      chars.dropWhile Char.isDigit)

def isFlag (c : Char) : Bool := ['-', '+', ' ', '#', '0'].contains c

/-- A field after its percent sign and key; `size` is the length of the whole template. -/
def readField (size : Nat) (key : Option String) (chars : List Char) : Piece × List Char :=
  let flags := chars.takeWhile isFlag
  let (width, chars) := readAmount (chars.dropWhile isFlag)
  let (precision, chars) :=
    match chars with
    | '.' :: rest =>
      let (amount, rest) := readAmount rest
      (some (amount.getD (.fixed 0)), rest)
    | chars => (none, chars)
  let chars :=
    match chars with
    | 'h' :: rest | 'l' :: rest | 'L' :: rest => rest
    | chars => chars
  match chars with
  | [] => (.field { key, flags, width, precision, kind := none, index := size }, [])
  | kind :: rest => (.field { key, flags, width, precision, kind := some kind, index := size - rest.length - 1 }, rest)

/-- The pieces of a template; every step takes at least one character. -/
def scan (size : Nat) : Nat → List Char → List Piece
  | 0, _ | _, [] => []
  | fuel + 1, '%' :: '%' :: rest => .literal '%' :: scan size fuel rest
  | fuel + 1, '%' :: '(' :: rest =>
    match readKey 0 rest with
    | none => [.openKey]
    | some (key, rest) =>
      let (piece, rest) := readField size (some (String.ofList key)) rest
      piece :: scan size fuel rest
  | fuel + 1, '%' :: rest =>
    let (piece, rest) := readField size none rest
    piece :: scan size fuel rest
  | fuel + 1, c :: rest => .literal c :: scan size fuel rest

def pieces (template : String) : List Piece := scan template.length template.length template.toList

/-! Writing one argument -/

/-- sign and digits, apart; zeros go between them -/
structure Number where
  sign : String
  digits : String

def signOf (flags : List Char) (negative : Bool) : String :=
  if negative then "-" else if flags.contains '+' then "+" else if flags.contains ' ' then " " else ""

/-- Fills a number up to the width: blanks in front or behind, or zeros behind the sign. -/
def padNumber (flags : List Char) (width : Nat) (number : Number) : String :=
  let gap := width - (number.sign.length + number.digits.length)
  let fill (c : Char) := String.ofList (List.replicate gap c)
  if flags.contains '-' then number.sign ++ number.digits ++ fill ' '
  else if flags.contains '0' then number.sign ++ fill '0' ++ number.digits
  else fill ' ' ++ number.sign ++ number.digits

def padText (flags : List Char) (width : Nat) (text : String) : String :=
  let gap := String.ofList (List.replicate (width - text.length) ' ')
  if flags.contains '-' then text ++ gap else gap ++ text

def zeroFilled (width : Nat) (digits : String) : String :=
  String.ofList (List.replicate (width - digits.length) '0') ++ digits

/-- the whole part of a number, toward zero -/
def wholeOf : Json → Option Int
  | .int n => some n
  | .bool b => some (if b then 1 else 0)
  | .float x =>
    match Decimal.Reading.ofFloat x with
    | .finite q =>
      let (n, d) := Decimal.binaryRatio q.units 1 q.exponent
      some (if q.negative then -((n / d : Nat) : Int) else (n / d : Nat))
    | _ => none
  | _ => none

def integerOf : Json → Option Int
  | .int n => some n
  | .bool b => some (if b then 1 else 0)
  | _ => none

def fractionOf : Json → Option Float
  | .float x => some x
  | value => (integerOf value).map Float.ofInt

/-- A number without its sign, in the form of a kind of field. -/
def writeFraction (flags : List Char) (kind : Char) (precision : Nat) (x : Float) : String :=
  let marked := flags.contains '#'
  let text :=
    match Decimal.Reading.ofFloat x with
    | .notANumber => "nan"
    | .infinite _ => "inf"
    | .finite q =>
      let (n, d) := Decimal.binaryRatio q.units 1 q.exponent
      match kind.toLower with
      | 'e' => Decimal.scientificText marked precision n d
      | 'g' => Decimal.generalText marked precision n d
      | _ => Decimal.withPoint marked (Decimal.fixedFraction precision n d)
  if kind.isUpper then text.toUpper else text

def asciiOnly (text : String) : String :=
  String.ofList (text.toList.flatMap fun c =>
    if c.toNat < 128 then [c]
    else if c.toNat < 0x100 then '\\' :: 'x' :: Text.hexPadded 2 c.toNat
    else if c.toNat < 0x10000 then '\\' :: 'u' :: Text.hexPadded 4 c.toNat
    else '\\' :: 'U' :: Text.hexPadded 8 c.toNat)

/-- what stands between sign and digits of a number to a base other than ten -/
def baseMark (flags : List Char) (kind : Char) : String :=
  if flags.contains '#' && ['o', 'x', 'X'].contains kind then String.ofList ['0', kind] else ""

def wholeDigits (kind : Char) (n : Nat) : String :=
  match kind with
  | 'o' => String.ofList (Nat.toDigits 8 n)
  | 'x' => String.ofList (Nat.toDigits 16 n)
  | 'X' => (String.ofList (Nat.toDigits 16 n)).toUpper
  | _ => toString n

def writeWhole (field : Field) (kind : Char) (width : Nat) (precision : Option Nat) (n : Int) : String :=
  padNumber field.flags width
    ⟨signOf field.flags (n < 0) ++ baseMark field.flags kind, zeroFilled (precision.getD 0) (wholeDigits kind n.natAbs)⟩

/-- An argument in the form that a kind of field asks for. -/
def writeArgument (field : Field) (kind : Char) (width : Nat) (precision : Option Nat) (value : Json) :
    Except TemplateError String :=
  let cut (text : String) : String :=
    match precision with
    | some limit => (text.take limit).toString
    | none => text
  let orWrong (text : Option String) : Except TemplateError String :=
    match text with
    | some text => .ok text
    | none => .error .arguments
  match kind with
  | 's' => .ok (padText field.flags width (cut value.plain))
  | 'r' => .ok (padText field.flags width (cut value.inner))
  | 'a' => .ok (padText field.flags width (cut (asciiOnly value.inner)))
  | 'd' | 'i' | 'u' =>
    orWrong ((wholeOf value).map (writeWhole field kind width precision))
  | 'x' | 'X' | 'o' =>
    orWrong ((integerOf value).map (writeWhole field kind width precision))
  | 'e' | 'E' | 'f' | 'F' | 'g' | 'G' =>
    match value, fractionOf value with
    | _, none => .error .arguments
    | value, some x =>
      if (integerOf value).isSome && x.isInf then .error .unrepresentable
      else
        let sign := signOf field.flags (x < 0 || 1 / x < 0)
        .ok (padNumber field.flags width ⟨sign, writeFraction field.flags kind (precision.getD 6) x⟩)
  | 'c' =>
    match value with
    | .string text => if text.length = 1 then .ok (padText field.flags width text) else .error .arguments
    | value =>
      match integerOf value with
      | some n =>
        if 0 ≤ n && n < 0x110000 then .ok (padText field.flags width (Char.ofNat n.toNat).toString)
        else .error .noSuchCharacter
      | none => .error .arguments
  | kind => .error (.unsupported kind field.index)

/-! Arguments -/

/-- the arguments that are still to be taken, and the mapping that keys look into -/
structure Arguments where
  waiting : List Json
  fields : Option (Mapping Json) := none

/-- A single mapping that is not empty is looked into. -/
def Arguments.ofList : List Json → Arguments
  | [.object (field :: fields)] => ⟨[.object (field :: fields)], some (field :: fields)⟩
  | values => ⟨values, none⟩

def next (arguments : Arguments) : Except TemplateError (Json × Arguments) :=
  match arguments.waiting with
  | value :: rest => .ok (value, { arguments with waiting := rest })
  | [] => .error .arguments

def maxWidth : Nat := 0x7fffffffffffffff

def maxPrecision : Nat := 0x7fffffff

/-- A width or precision; `tooBig` is said of one that is written in the template. -/
def amount (arguments : Arguments) (limit : Nat) (tooBig : TemplateError) :
    Option Amount → Except TemplateError (Option Int × Arguments)
  | none => .ok (none, arguments)
  | some (.fixed n) => if limit < n then .error tooBig else .ok (some n, arguments)
  | some .argument => do
    let (value, rest) ← next arguments
    match integerOf value with
    | some n => if limit < n.natAbs then throw .amountTooBig else return (some n, rest)
    | none => throw .arguments

/-- The arguments for a field with a key: only the value of the key is left to be taken. -/
def lookUp (arguments : Arguments) (key : String) : Except TemplateError Arguments :=
  match arguments.fields with
  | none => .error .arguments
  | some fields =>
    match (Json.object fields).field? key with
    | some value => .ok { arguments with waiting := [value] }
    | none => .error (.missingKey key)

def writeField (arguments : Arguments) (field : Field) : Except TemplateError (String × Arguments) := do
  let arguments ← match field.key with
    | some key => lookUp arguments key
    | none => pure arguments
  let (width, arguments) ← amount arguments maxWidth .widthTooBig field.width
  let (precision, arguments) ← amount arguments maxPrecision .precisionTooBig field.precision
  match field.kind with
  | none => throw .incomplete
  | some kind =>
    let (value, arguments) ← next arguments
    let field := if width.getD 0 < 0 then { field with flags := '-' :: field.flags } else field
    let text ← writeArgument field kind (width.getD 0).natAbs (precision.map Int.toNat) value
    return (text, arguments)

def writePieces (arguments : Arguments) : List Piece → Except TemplateError String
  | [] => if arguments.waiting.isEmpty || arguments.fields.isSome then .ok "" else .error .arguments
  | .literal c :: rest => do return c.toString ++ (← writePieces arguments rest)
  | .openKey :: _ => .error (if arguments.fields.isSome then .incompleteKey else .arguments)
  | .field field :: rest => do
    let (text, arguments) ← writeField arguments field
    return text ++ (← writePieces arguments rest)

/-- A template with its arguments; without any it is taken as it stands. -/
def fill (template : String) (arguments : List Json) : Except TemplateError String :=
  if arguments.isEmpty then .ok template else writePieces (.ofList arguments) (pieces template)

end UrlRouter.Log
