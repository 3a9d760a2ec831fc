/-
Character sets between square brackets.
-/
import UrlRouter.Regex.Reader.Escape

namespace UrlRouter.Regex

/-- one end of a range, or a member on its own -/
def setMember : Token → Read Member
  | .escaped c => setEscape c
  | .plain c => return .code c.toNat
  | .loneBackslash => failHere .escapeAtEnd

/-- The members up to the closing bracket. A bracket right at the start is a member, and a dash is one where no range
can be. `start` is the place of the opening bracket. -/
def readMembers (start : Nat) (members : List Member) : Nat → Read (List Member)
  | 0 => failAt .unterminatedSet start
  | limit + 1 => do
    match ← take? with
    | none => failAt .unterminatedSet start
    | some first =>
      if first = .plain ']' && !members.isEmpty then return members
      let low ← setMember first
      if ← accept '-' then
        match ← take? with
        | none => failAt .unterminatedSet start
        | some last =>
          if last = .plain ']' then return members ++ [low, .code '-'.toNat]
          let high ← setMember last
          let back := first.length + 1 + last.length
          match low, high with
          | .code a, .code b =>
            if b < a then failBack (.badRange first.text last.text) back
            else readMembers start (members ++ [.span a b]) limit
          | _, _ => failBack (.badRange first.text last.text) back
      else readMembers start (members ++ [low]) limit

/-- A set of one plain character is that character. -/
def setTest (negated : Bool) (members : List Member) : CharTest :=
  match members.eraseDups with
  | [.code n] => if negated then .notCode n else .code n
  | distinct => .set negated distinct

/-- a set, after its opening bracket at `start` -/
def readSet (start : Nat) : Read Unit := do
  let negated ← accept '^'
  let members ← readMembers start [] ((← get).rest.length + 1)
  pushTest (setTest negated members)

end UrlRouter.Regex
