/-
Whole numbers read from text.

Blanks around the number, one sign, digits of any script and single underscores between digits are allowed.
-/
import UrlRouter.Text.Blank
import UrlRouter.Text.Letter

namespace UrlRouter.Text

/-- the most digits that a number read from text may have -/
def maxDigits : Nat := 4300

/-- Digits with single underscores between them; `pending` says that an underscore or the start came last. -/
def digitValues? (pending : Bool) : List Char → Option (List Nat)
  | [] => if pending then none else some []
  | c :: rest =>
    match decimalValue? c with
    | some d => (digitValues? false rest).map (d :: ·)
    | none => if c = '_' && !pending then digitValues? true rest else none

def naturalOf (digits : List Nat) : Nat := digits.foldl (fun n d => 10 * n + d) 0

inductive NumeralError where
  | malformed
  | tooLong (digits : Nat)

def tooLongMessage (digits : Nat) : String :=
  "Exceeds the limit (" ++ toString maxDigits ++ " digits) for integer string conversion: value has " ++
    toString digits ++ " digits; use sys.set_int_max_str_digits() to increase the limit"

def readInteger (text : String) : Except NumeralError Int :=
  let (negative, body) :=
    match trim text.toList with
    | '-' :: rest => (true, rest)
    | '+' :: rest => (false, rest)
    | rest => (false, rest)
  match digitValues? true body with
  | none => .error .malformed
  | some digits =>
    if maxDigits < digits.length then .error (.tooLong digits.length)
    else .ok (if negative then -(naturalOf digits : Int) else (naturalOf digits : Int))

end UrlRouter.Text
