/-
Spaced and indented texts of JSON values.

Characters outside ASCII are written by the code units of their UTF-16 form. The indented form puts every item and
field on a line of its own.
-/
import UrlRouter.Json.Writer

namespace UrlRouter.Json

/-- Four hexadecimal digits of a code unit. -/
def unitEscape (n : Nat) : List Char :=
  ['\\', 'u', escapeDigit (n / 4096 % 16), escapeDigit (n / 256 % 16), escapeDigit (n / 16 % 16), escapeDigit (n % 16)]

def asciiChar (c : Char) : List Char :=
  let n := c.toNat
  if n < 127 then escapedChar c
  else if n < 0x10000 then unitEscape n
  else unitEscape (0xd800 + (n - 0x10000) / 1024) ++ unitEscape (0xdc00 + (n - 0x10000) % 1024)

def asciiString (text : String) : List Char := '"' :: text.toList.flatMap asciiChar ++ ['"']

/-- what stands between the items at some depth, and around them -/
structure Frame where
  opening : Nat → List Char
  between : Nat → List Char
  closing : Nat → List Char

/-- a line end and two blanks for each level -/
def lineStart (depth : Nat) : List Char := '\n' :: List.replicate (2 * depth) ' '

def spacedFrame : Frame := ⟨fun _ => [], fun _ => [',', ' '], fun _ => []⟩

def indentedFrame : Frame :=
  ⟨fun depth => lineStart (depth + 1), fun depth => ',' :: lineStart (depth + 1), lineStart⟩

mutual

def layOut (frame : Frame) (depth : Nat) : Json → List Char
  | string text => asciiString text
  | array (item :: items) =>
    '[' :: (frame.opening depth ++ layOut frame (depth + 1) item ++ layOutItems frame depth items)
  | object ((key, value) :: fields) =>
    '\x7b' :: (frame.opening depth ++ asciiString key ++ ':' :: ' ' :: layOut frame (depth + 1) value ++
      layOutFields frame depth fields)
  | value => write value

def layOutItems (frame : Frame) (depth : Nat) : List Json → List Char
  | [] => frame.closing depth ++ [']']
  | item :: items => frame.between depth ++ layOut frame (depth + 1) item ++ layOutItems frame depth items

def layOutFields (frame : Frame) (depth : Nat) : List (String × Json) → List Char
  | [] => frame.closing depth ++ ['\x7d']
  | (key, value) :: fields =>
    frame.between depth ++ asciiString key ++ ':' :: ' ' :: layOut frame (depth + 1) value ++
      layOutFields frame depth fields

end

/-- the text on one line, with blanks behind commas and colons -/
def spaced (value : Json) : String := String.ofList (layOut spacedFrame 0 value)

/-- the text with one item or field a line -/
def indented (value : Json) : String := String.ofList (layOut indentedFrame 0 value)

end UrlRouter.Json
