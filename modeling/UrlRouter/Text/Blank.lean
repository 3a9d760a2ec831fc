/-
Blanks and trimming.

A blank is any white space of Unicode together with the four information separators of ASCII.
-/
namespace UrlRouter.Text

def isBlank (c : Char) : Bool :=
  let n := c.toNat
  (9 ≤ n && n ≤ 13) || (28 ≤ n && n ≤ 32) || n == 0x85 || n == 0xa0 || n == 0x1680 || (0x2000 ≤ n && n ≤ 0x200a) ||
    n == 0x2028 || n == 0x2029 || n == 0x202f || n == 0x205f || n == 0x3000

def trimStart (text : List Char) : List Char := text.dropWhile isBlank

def trimEnd (text : List Char) : List Char := (text.reverse.dropWhile isBlank).reverse

def trim (text : List Char) : List Char := trimEnd (trimStart text)

/-- the text without the blanks at both ends -/
def trimmed (text : String) : String := String.ofList (trim text.toList)

theorem trimStart_cons_of_not_blank (c : Char) (text : List Char) (h : isBlank c = false) :
    trimStart (c :: text) = c :: text := by
  simp [trimStart, h]

end UrlRouter.Text
