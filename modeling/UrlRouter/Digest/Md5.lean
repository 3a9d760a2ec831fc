/-
The message digest MD5.

A message of bytes is padded to whole blocks of sixteen words, least byte first, and each block is mixed into a state of
four words. `md5Hex` writes the last state in hexadecimal digits.
-/
import UrlRouter.Text.Quoted

namespace UrlRouter.Digest

/-- the four words of the running digest -/
structure State where
  a : UInt32
  b : UInt32
  c : UInt32
  d : UInt32
  deriving DecidableEq, Repr

namespace State

def initial : State := ⟨0x67452301, 0xefcdab89, 0x98badcfe, 0x10325476⟩

def add (s t : State) : State := ⟨s.a + t.a, s.b + t.b, s.c + t.c, s.d + t.d⟩

end State

/-- the constant of each step: the first 32 bits behind the point of the sine's absolute value -/
def stepConstants : Array UInt32 := #[
  0xd76aa478, 0xe8c7b756, 0x242070db, 0xc1bdceee, 0xf57c0faf, 0x4787c62a, 0xa8304613, 0xfd469501,
  0x698098d8, 0x8b44f7af, 0xffff5bb1, 0x895cd7be, 0x6b901122, 0xfd987193, 0xa679438e, 0x49b40821,
  0xf61e2562, 0xc040b340, 0x265e5a51, 0xe9b6c7aa, 0xd62f105d, 0x02441453, 0xd8a1e681, 0xe7d3fbc8,
  0x21e1cde6, 0xc33707d6, 0xf4d50d87, 0x455a14ed, 0xa9e3e905, 0xfcefa3f8, 0x676f02d9, 0x8d2a4c8a,
  0xfffa3942, 0x8771f681, 0x6d9d6122, 0xfde5380c, 0xa4beea44, 0x4bdecfa9, 0xf6bb4b60, 0xbebfbc70,
  0x289b7ec6, 0xeaa127fa, 0xd4ef3085, 0x04881d05, 0xd9d4d039, 0xe6db99e5, 0x1fa27cf8, 0xc4ac5665,
  0xf4292244, 0x432aff97, 0xab9423a7, 0xfc93a039, 0x655b59c3, 0x8f0ccc92, 0xffeff47d, 0x85845dd1,
  0x6fa87e4f, 0xfe2ce6e0, 0xa3014314, 0x4e0811a1, 0xf7537e82, 0xbd3af235, 0x2ad7d2bb, 0xeb86d391]

/-- how far each step rotates, by round and place in a group of four -/
def rotations : List (Array UInt32) := [#[7, 12, 17, 22], #[5, 9, 14, 20], #[4, 11, 16, 23], #[6, 10, 15, 21]]

def rotateLeft (x n : UInt32) : UInt32 := (x <<< n) ||| (x >>> (32 - n))

/-- the mixing function of the round that a step belongs to, and the word of the block it takes -/
def mixing (s : State) (i : Nat) : UInt32 × Nat :=
  match i / 16 with
  | 0 => ((s.b &&& s.c) ||| (~~~ s.b &&& s.d), i)
  | 1 => ((s.d &&& s.b) ||| (~~~ s.d &&& s.c), (5 * i + 1) % 16)
  | 2 => (s.b ^^^ s.c ^^^ s.d, (3 * i + 5) % 16)
  | _ => (s.c ^^^ (s.b ||| ~~~ s.d), 7 * i % 16)

def step (block : Array UInt32) (s : State) (i : Nat) : State :=
  let (f, word) := mixing s i
  let sum := s.a + f + stepConstants.getD i 0 + block.getD word 0
  ⟨s.d, s.b + rotateLeft sum ((rotations.getD (i / 16) #[]).getD (i % 4) 0), s.b, s.c⟩

def mixBlock (s : State) (block : Array UInt32) : State := s.add ((List.range 64).foldl (step block) s)

/-- the bytes of a number, least first -/
def littleBytes : Nat → Nat → List UInt8
  | 0, _ => []
  | width + 1, n => UInt8.ofNat (n % 256) :: littleBytes width (n / 256)

/-- A one bit, zeros up to eight bytes before the end of a block, and the number of bits. -/
def pad (message : List UInt8) : List UInt8 :=
  let size := message.length
  message ++ 0x80 :: List.replicate ((119 - size % 64) % 64) 0 ++ littleBytes 8 (8 * size)

def words : List UInt8 → List UInt32
  | a :: b :: c :: d :: rest =>
    (a.toUInt32 ||| b.toUInt32 <<< 8 ||| c.toUInt32 <<< 16 ||| d.toUInt32 <<< 24) :: words rest
  | _ => []

/-- Takes up one word; sixteen of them are a block. -/
def absorb (state : State × Array UInt32) (word : UInt32) : State × Array UInt32 :=
  let block := state.2.push word
  if block.size = 16 then (mixBlock state.1 block, #[]) else (state.1, block)

def digest (message : List UInt8) : State := ((words (pad message)).foldl absorb (.initial, #[])).1

/-- the digest of a text, in hexadecimal -/
def md5Hex (text : String) : String :=
  let s := digest text.toUTF8.toList
  String.ofList ([s.a, s.b, s.c, s.d].flatMap fun word =>
    (littleBytes 4 word.toNat).flatMap fun byte => Text.hexPadded 2 byte.toNat)

end UrlRouter.Digest
