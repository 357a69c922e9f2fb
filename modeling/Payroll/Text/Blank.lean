/-
Blank characters: the white space of Unicode, which is what surrounds
a text without being part of it. A text that is blank throughout names
nothing; `trim` cuts what is blank off both ends.
-/

namespace Payroll.Text

/-- The characters with the property White_Space. -/
def isBlank (c : Char) : Bool :=
  let n := c.toNat
  (9 ≤ n && n ≤ 13) || n == 32 || n == 0x85 || n == 0xA0 || n == 0x1680
    || (0x2000 ≤ n && n ≤ 0x200A) || n == 0x2028 || n == 0x2029
    || n == 0x202F || n == 0x205F || n == 0x3000

/-- What is left after the blanks at the front. -/
def trimLeft (cs : List Char) : List Char := cs.dropWhile isBlank

/-- What is left before the blanks at the end. -/
def trimRight (cs : List Char) : List Char :=
  (cs.reverse.dropWhile isBlank).reverse

def trim (cs : List Char) : List Char := trimRight (trimLeft cs)

/-- A text with no character that is not blank. -/
def isBlankText (s : String) : Bool := s.toList.all isBlank

end Payroll.Text
