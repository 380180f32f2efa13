/-!
# Tabletop.Text.Blank

Characters that leave paper white.

1. A *blank* has the Unicode property `White_Space`.
2. A *space* is a blank or one of the four information separators, U+001C to
   U+001F.

`strip` takes the characters of a class off both ends of a text.
-/

namespace Tabletop.Text.Blank

/-- The code points of the property `White_Space`, as inclusive ranges. -/
def ranges : List (Nat × Nat) :=
  [(0x0009, 0x000d), (0x0020, 0x0020), (0x0085, 0x0085), (0x00a0, 0x00a0), (0x1680, 0x1680),
   (0x2000, 0x200a), (0x2028, 0x2029), (0x202f, 0x202f), (0x205f, 0x205f), (0x3000, 0x3000)]

/-- Whether a character has the property `White_Space`. -/
def isBlank (c : Char) : Bool :=
  ranges.any fun r => r.1 ≤ c.toNat && c.toNat ≤ r.2

/-- Whether a character is a blank or an information separator. -/
def isSpace (c : Char) : Bool := isBlank c || (0x1c ≤ c.toNat && c.toNat ≤ 0x1f)

/-- The text without the characters of a class at its start and its end. -/
def strip (inClass : Char → Bool) (cs : List Char) : List Char :=
  ((cs.dropWhile inClass).reverse.dropWhile inClass).reverse

/-- The text without its leading and trailing blanks. -/
def trim (cs : List Char) : List Char := strip isBlank cs

end Tabletop.Text.Blank
