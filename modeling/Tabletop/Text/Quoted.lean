import Tabletop.Text.Printable

/-!
# Tabletop.Text.Quoted

The quoted form of a text or a byte string, in which every hidden character
is spelled out.

1. The form is enclosed in single quotes, or in double quotes when the
   content has a single quote and no double quote.
2. The enclosing quote and the backslash are written after a backslash.
3. Newline, carriage return and tab are written `\n`, `\r` and `\t`.
4. Any other character that is not shown is written as its code point in
   lower-case hexadecimal, with two digits after `\x`, four after `\u` or
   eight after `\U`, whichever is the first that holds it.
5. A byte string has a `b` in front, and only the bytes from the space to
   the tilde are shown.
-/

namespace Tabletop.Text.Quoted

def singleQuote : Char := '\x27'

def doubleQuote : Char := '\x22'

def backslash : Char := '\\'

/-- The quote that encloses a content. -/
def enclosing (content : List Char) : Char :=
  if content.contains singleQuote && !content.contains doubleQuote then doubleQuote else singleQuote

/-- The lowest `width` hexadecimal digits of a number, the highest first. -/
def hex : Nat → Nat → List Char
  | 0, _ => []
  | width + 1, n => hex width (n / 16) ++ [Nat.digitChar (n % 16)]

/-- A character that is not shown, spelled by its code point. -/
def codePoint (c : Char) : List Char :=
  if c.toNat < 0x100 then backslash :: 'x' :: hex 2 c.toNat
  else if c.toNat < 0x10000 then backslash :: 'u' :: hex 4 c.toNat
  else backslash :: 'U' :: hex 8 c.toNat

/-- One character between quotes `mark`, where `shown` says which characters
may stand as they are. -/
def escape (shown : Char → Bool) (mark c : Char) : List Char :=
  if c = mark ∨ c = backslash then [backslash, c]
  else if c = '\n' then [backslash, 'n']
  else if c = '\r' then [backslash, 'r']
  else if c = '\t' then [backslash, 't']
  else if shown c then [c]
  else codePoint c

/-- A content between its enclosing quotes. -/
def enclose (shown : Char → Bool) (content : List Char) : List Char :=
  let mark := enclosing content
  mark :: content.flatMap (escape shown mark) ++ [mark]

/-- The quoted form of a text. -/
def ofText (content : List Char) : List Char := enclose Printable.isPrintable content

/-- The characters from the space to the tilde. -/
def isVisibleAscii (c : Char) : Bool := 0x20 ≤ c.toNat && c.toNat ≤ 0x7e

/-- The quoted form of a byte string, each byte standing for the character
of its number. -/
def ofBytes (content : List UInt8) : List Char :=
  'b' :: enclose isVisibleAscii (content.map fun b => Char.ofNat b.toNat)

end Tabletop.Text.Quoted
