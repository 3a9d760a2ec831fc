/-
Sets of code points written as runs.

A table is a text of hexadecimal numbers, alternately the gap since the last run and the length of the next one, so
that "30 a 7 1a" is the decimal digits and the capital letters.
-/
namespace UrlRouter.Text

def hexDigitValue? (c : Char) : Option Nat :=
  if '0' ≤ c && c ≤ '9' then some (c.toNat - '0'.toNat)
  else if 'a' ≤ c && c ≤ 'f' then some (c.toNat - 'a'.toNat + 10)
  else if 'A' ≤ c && c ≤ 'F' then some (c.toNat - 'A'.toNat + 10)
  else none

/-- the hexadecimal numbers of a text, whatever stands between them -/
def hexNumbers (text : String) : List Nat :=
  ((text.toList.map hexDigitValue?).splitBy fun left right => left.isSome == right.isSome).filterMap fun block =>
    match block.filterMap id with
    | [] => none
    | digits => some (digits.foldl (fun n d => 16 * n + d) 0)

/-- a set of code points, as the first and last members of its runs -/
structure Runs where
  spans : Array (Nat × Nat)

namespace Runs

/-- `from` is the first code point not yet decided. -/
def spansOf (next : Nat) : List Nat → List (Nat × Nat)
  | gap :: length :: rest => (next + gap, next + gap + length - 1) :: spansOf (next + gap + length) rest
  | _ => []

def ofText (text : String) : Runs := ⟨(spansOf 0 (hexNumbers text)).toArray⟩

def contains (runs : Runs) (code : Nat) : Bool :=
  runs.spans.any fun (first, last) => first ≤ code && code ≤ last

end Runs

end UrlRouter.Text
