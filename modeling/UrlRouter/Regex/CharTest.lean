/-
What a test of one character accepts.

Without "ignore case" a test compares code points. With it the character is lowered first and held against the
lowered members, in Unicode mode also against the other lower-case letters that share an upper case with them. A test
none of whose members has case compares as it stands.
-/
import UrlRouter.Regex.Syntax
import UrlRouter.Text.Blank
import UrlRouter.Text.Letter
import UrlRouter.Text.Casing

namespace UrlRouter.Regex

def CharClass.holds (ascii : Bool) (kind : CharClass) (c : Char) : Bool :=
  match kind with
  | .digit => if ascii then Text.isAsciiDigit c else Text.isDecimal c
  | .space => if ascii then (9 ≤ c.toNat && c.toNat ≤ 13) || c == ' ' else Text.isBlank c
  | .word => if ascii then Text.isAsciiWord c else Text.isWord c

/-- lower case under "ignore case": ASCII letters only, or the simple mapping -/
def Mode.lowered (mode : Mode) (code : Nat) : Nat :=
  if mode.ascii then (if 65 ≤ code && code ≤ 90 then code + 32 else code) else Text.lowerCode code

def Mode.hasCase (mode : Mode) (code : Nat) : Bool :=
  if mode.ascii then (65 ≤ code && code ≤ 90) || (97 ≤ code && code ≤ 122)
  else Text.lowerCode code != code || Text.upperCode code != code

/-- the lowered code points that a lowered code point stands for -/
def Mode.sameCase (mode : Mode) (lowered : Nat) : List Nat :=
  if mode.ascii then [lowered] else lowered :: (Text.sharedUpper.lookup lowered).getD []

/-- the code points of the basic plane, which a case-insensitive set folds one by one -/
def basicPlaneEnd : Nat := 0x10000

namespace Member

def contains (mode : Mode) (c : Char) : Member → Bool
  | code n => c.toNat = n
  | span first last => first ≤ c.toNat && c.toNat ≤ last
  | category kind negated => kind.holds mode.ascii c != negated

/-- Whether a member calls for lowering: it has a cased character, or reaches beyond the basic plane. -/
def calls (mode : Mode) : Member → Bool
  | code n => basicPlaneEnd ≤ n || mode.hasCase n
  | span first last => basicPlaneEnd ≤ last || (List.range' first (last + 1 - first)).any mode.hasCase
  | category _ _ => false

/-- Membership of an already lowered character. Beyond the basic plane a lone code point is not folded, and a span is
tried with the upper case as well. -/
def containsLowered (mode : Mode) (c : Char) : Member → Bool
  | code n =>
    if basicPlaneEnd ≤ n then c.toNat = n else (mode.sameCase (mode.lowered n)).contains c.toNat
  | span first last =>
    (List.range' first (min (last + 1) basicPlaneEnd - first)).any
        (fun n => (mode.sameCase (mode.lowered n)).contains c.toNat) ||
      (decide (basicPlaneEnd ≤ last) &&
        ((first ≤ c.toNat && c.toNat ≤ last) ||
          (first ≤ Text.upperCode c.toNat && Text.upperCode c.toNat ≤ last)))
  | category kind negated => kind.holds mode.ascii c != negated

end Member

/-- Equality of a character with a code point under "ignore case". -/
def Mode.sameLetter (mode : Mode) (n : Nat) (c : Char) : Bool :=
  if mode.hasCase n then (mode.sameCase (mode.lowered n)).contains (mode.lowered c.toNat) else c.toNat = n

def CharTest.accepts (mode : Mode) (c : Char) : CharTest → Bool
  | code n => if mode.ignoreCase then mode.sameLetter n c else c.toNat = n
  | notCode n => !(if mode.ignoreCase then mode.sameLetter n c else c.toNat = n)
  | any => mode.dotAll || c != '\n'
  | set negated members =>
    let inside :=
      if mode.ignoreCase && members.any (·.calls mode) then
        let lowered := Char.ofNat (mode.lowered c.toNat)
        members.any (·.containsLowered mode lowered)
      else members.any (·.contains mode c)
    inside != negated

end UrlRouter.Regex
