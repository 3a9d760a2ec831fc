/-
Percent encoding.

Encoding writes every byte of a character's UTF-8 form as two hexadecimal digits, except for unreserved characters.
Decoding takes the bytes of each run of ASCII characters together; what is no UTF-8 becomes a replacement character. The
lenient decoding leaves such bytes encoded.
-/
import UrlRouter.Text.Runs

namespace UrlRouter.Text

/-- letters, digits and `-._~` -/
def isUnreserved (c : Char) : Bool :=
  ('a' ≤ c && c ≤ 'z') || ('A' ≤ c && c ≤ 'Z') || ('0' ≤ c && c ≤ '9') || c = '_' || c = '.' || c = '-' || c = '~'

def upperHexDigit (n : Nat) : Char := if n < 10 then Char.ofNat (48 + n) else Char.ofNat (55 + n)

def percentByte (b : UInt8) : List Char := ['%', upperHexDigit (b.toNat / 16), upperHexDigit (b.toNat % 16)]

def percentEncodeChar (c : Char) : List Char :=
  if isUnreserved c then [c] else (String.utf8EncodeChar c).flatMap percentByte

/-- Percent encoding with no safe characters beyond the unreserved ones. -/
def percentEncode (text : String) : String := String.ofList (text.toList.flatMap percentEncodeChar)

/-- The encoding of form fields: a space becomes a plus sign. -/
def formEncode (text : String) : String :=
  String.ofList (text.toList.flatMap fun c => if c = ' ' then ['+'] else percentEncodeChar c)

/-- The bytes of an ASCII text, a percent sign with two hexadecimal digits being one byte. -/
def percentBytes : List Char → List Nat
  | [] => []
  | '%' :: a :: b :: rest =>
    match hexDigitValue? a, hexDigitValue? b with
    | some high, some low => (16 * high + low) :: percentBytes rest
    | _, _ => '%'.toNat :: percentBytes (a :: b :: rest)
  | c :: rest => c.toNat :: percentBytes rest

def replacement : Char := Char.ofNat 0xfffd

def isContinuation (b : Nat) : Bool := 0x80 ≤ b && b < 0xc0

/-- how many bytes follow a leading byte, and the bounds of the first of them -/
def leadingByte? (b : Nat) : Option (Nat × Nat × Nat) :=
  if 0xc2 ≤ b && b < 0xe0 then some (1, 0x80, 0xbf)
  else if b = 0xe0 then some (2, 0xa0, 0xbf)
  else if b = 0xed then some (2, 0x80, 0x9f)
  else if 0xe1 ≤ b && b < 0xf0 then some (2, 0x80, 0xbf)
  else if b = 0xf0 then some (3, 0x90, 0xbf)
  else if 0xf1 ≤ b && b < 0xf4 then some (3, 0x80, 0xbf)
  else if b = 0xf4 then some (3, 0x80, 0x8f)
  else none

/-- UTF-8 with one replacement character for each part that starts like a character and is none. -/
def decodeUtf8 : List Nat → List Char
  | [] => []
  | a :: rest =>
    if a < 0x80 then Char.ofNat a :: decodeUtf8 rest
    else
      match leadingByte? a with
      | none => replacement :: decodeUtf8 rest
      | some (more, low, high) =>
        match rest with
        | [] => [replacement]
        | b :: rest =>
          if b < low || high < b then replacement :: decodeUtf8 (b :: rest)
          else if more = 1 then Char.ofNat ((a % 32) * 64 + b % 64) :: decodeUtf8 rest
          else
            match rest with
            | [] => [replacement]
            | c :: rest =>
              if !isContinuation c then replacement :: decodeUtf8 (c :: rest)
              else if more = 2 then Char.ofNat ((a % 16) * 4096 + (b % 64) * 64 + c % 64) :: decodeUtf8 rest
              else
                match rest with
                | [] => [replacement]
                | d :: rest =>
                  if !isContinuation d then replacement :: decodeUtf8 (d :: rest)
                  else
                    Char.ofNat ((a % 8) * 262144 + (b % 64) * 4096 + (c % 64) * 64 + d % 64) :: decodeUtf8 rest

def isAscii (c : Char) : Bool := c.toNat < 128

/-- Decodes the ASCII characters gathered so far, the latest first, together. -/
def decodeRun (run : List Char) : List Char := decodeUtf8 (percentBytes run.reverse)

def percentDecodeFrom (run : List Char) : List Char → List Char
  | [] => decodeRun run
  | c :: rest =>
    if isAscii c then percentDecodeFrom (c :: run) rest
    else decodeRun run ++ c :: percentDecodeFrom [] rest

def percentDecode (text : String) : String := String.ofList (percentDecodeFrom [] text.toList)

/-- up to `limit` encoded bytes at the start of a text -/
def encodedBytes : Nat → List Char → List Nat
  | 0, _ => []
  | limit + 1, '%' :: a :: b :: rest =>
    match hexDigitValue? a, hexDigitValue? b with
    | some high, some low => (16 * high + low) :: encodedBytes limit rest
    | _, _ => []
  | _, _ => []

/-- The encoded character at the start of a text, and how many characters it takes up. -/
def encodedChar? (text : List Char) : Option (Char × Nat) :=
  match encodedBytes 1 text with
  | [lead] =>
    let size := if lead < 0x80 then some 1 else (leadingByte? lead).map fun (more, _) => more + 1
    match size with
    | none => none
    | some size =>
      let bytes := encodedBytes size text
      match decodeUtf8 bytes with
      | [c] => if bytes.length = size then some (c, 3 * size) else none
      | _ => none
  | _ => none

/-- Decodes a text of which the first `skip` characters are done. -/
def lenientDecodeFrom : Nat → List Char → List Char
  | _, [] => []
  | skip + 1, _ :: rest => lenientDecodeFrom skip rest
  | 0, c :: rest =>
    match encodedChar? (c :: rest) with
    | some (d, size) => d :: lenientDecodeFrom (size - 1) rest
    | none => c :: lenientDecodeFrom 0 rest

def lenientDecode (text : String) : String := String.ofList (lenientDecodeFrom 0 text.toList)

end UrlRouter.Text
