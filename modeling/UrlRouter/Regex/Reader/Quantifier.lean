/-
Quantifiers.
-/
import UrlRouter.Regex.Reader.Escape

namespace UrlRouter.Regex

/-- numbers of repetitions must stay below this -/
def repetitionLimit : Nat := 4294967295

def repetitions (digits : List Char) : Read Nat := do
  if Text.maxDigits < digits.length then throw (.numeralTooLong digits.length)
  let n := decimalValue digits
  if repetitionLimit ≤ n then throw .repetitionTooLarge else return n

/-- Applies a quantifier that starts at `start` to the latest item. -/
def quantify (start least : Nat) (most : Option Nat) : Read Unit := do
  let r ← get
  match r.frame.items with
  | [] => failAt .nothingToRepeat start
  | item :: earlier =>
    match item.quantifiable with
    | .no => failAt .nothingToRepeat start
    | .already => failAt .multipleRepeat start
    | .yes =>
      let greed ← do
        if ← accept '?' then pure Greed.lazy
        else if ← accept '+' then pure Greed.possessive
        else pure Greed.greedy
      modify fun r =>
        { r with frame := { r.frame with items := ⟨.loop greed least most item.node, .already⟩ :: earlier } }

/-- A brace that opens no bounds is literal, and what was read after it is read again. -/
def readBraces (start : Nat) : Read Unit := do
  let literal := pushTest (.code '\x7b'.toNat)
  if (← next?) = some (.plain '\x7d') then literal
  else
    let here ← get
    let limit := here.rest.length
    let low ← takeWhile Text.isAsciiDigit limit
    let high ← if ← accept ',' then takeWhile Text.isAsciiDigit limit else pure low
    if ← accept '\x7d' then
      let least ← if low.isEmpty then pure 0 else repetitions low
      if high.isEmpty then quantify start least none
      else
        let most ← repetitions high
        if most < least then failAt .repeatBoundsReversed (start + 1)
        else quantify start least (some most)
    else
      set here
      literal

end UrlRouter.Regex
