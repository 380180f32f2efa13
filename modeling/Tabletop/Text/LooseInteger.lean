import Tabletop.Text.Blank
import Tabletop.Text.Decimal

/-!
# Tabletop.Text.LooseInteger

Integers the way people write them.

1. A *plain* numeral is digits without a needless zero in front, after a
   minus sign or not.  It has at most `Decimal.limit` digits, of which the
   minus sign is none: with it, one character more is read than without.
2. A text that is not plain is tidied, and has to be plain then.  Tidying
   takes off, in this order, the blanks at both ends, a plus sign, the zeros
   in front with any underscores among them, a point with zeros after it,
   and single underscores between other characters.
3. Zeros in front of a minus sign are taken off like those in front of a
   digit.
4. A text that starts with too many digits, after a minus sign or not, is
   oversized, whatever follows them; one whose numeral turns out too long after
   tidying is unreadable, like any other that is not plain by then.
-/

namespace Tabletop.Text.LooseInteger

/-- Why a text is not an integer. -/
inductive Flaw where
  | unreadable
  | oversized
  deriving DecidableEq

/-! ## Plain numerals -/

/-- Splits off a minus sign. -/
def splitMinus : List Char → Bool × List Char
  | '-' :: rest => (true, rest)
  | cs => (false, cs)

/-- A nonempty run of digits without a needless zero in front. -/
def IsCanonical (digits : List Char) : Prop :=
  digits = ['0'] ∨ (digits ≠ [] ∧ digits.head? ≠ some '0' ∧ Decimal.IsRun digits)

instance (digits : List Char) : Decidable (IsCanonical digits) :=
  inferInstanceAs (Decidable (_ ∨ _ ∧ _ ∧ _))

/-- The integer that a plain numeral stands for. -/
def plain? (cs : List Char) : Option Int :=
  let (negative, digits) := splitMinus cs
  if IsCanonical digits ∧ digits.length ≤ Decimal.limit then
    some (if negative then -(Decimal.value digits : Int) else Decimal.value digits)
  else none

/-- Whether a text starts with a numeral that is too long. -/
def StartsOversized (cs : List Char) : Prop :=
  let rest := (splitMinus cs).2
  rest.head? ≠ some '0' ∧ Decimal.limit < (rest.takeWhile Char.isDigit).length

instance (cs : List Char) : Decidable (StartsOversized cs) :=
  inferInstanceAs (Decidable (_ ∧ _))

/-! ## Tidying -/

/-- Takes zeros and underscores off the front of what follows the character
`last`, which is one of them.  The last of them stays where nothing follows,
or a point. -/
def dropZerosAfter? (last : Char) : List Char → Option (List Char)
  | [] => some [last]
  | c :: rest =>
    if c = '0' ∨ c = '_' then dropZerosAfter? c rest
    else if c.isDigit ∨ c = '-' then some (c :: rest)
    else if c = '.' then some (last :: c :: rest)
    else none

/-- Takes the zeros off the front of a text that starts with a digit. -/
def dropZeros? : List Char → Option (List Char)
  | [] => none
  | c :: rest =>
    if c = '0' then dropZerosAfter? c rest else if c.isDigit then some (c :: rest) else none

/-- Takes a point and the zeros after it off the end. -/
def dropZeroFraction (cs : List Char) : List Char :=
  let whole := cs.takeWhile (· != '.')
  let fraction := cs.drop (whole.length + 1)
  if fraction ≠ [] ∧ fraction.all (· == '0') then whole else cs

/-- Takes out the underscores, each of which has to stand between two other
characters. -/
def dropUnderscores? : List Char → Option (List Char)
  | [] => some []
  | '_' :: _ => none
  | [_, '_'] => none
  | c :: '_' :: rest => (dropUnderscores? rest).map (c :: ·)
  | c :: rest => (dropUnderscores? rest).map (c :: ·)

/-- The text as a plain numeral, if it can be tidied into one. -/
def tidy? (cs : List Char) : Option (List Char) :=
  let bare? := match Blank.trim cs with
    | '+' :: rest => dropZeros? rest
    | '-' :: rest => (dropZeros? rest).map ('-' :: ·)
    | rest => dropZeros? rest
  bare?.bind fun bare => dropUnderscores? (dropZeroFraction bare)

/-! ## Reading -/

/-- The integer that a text stands for. -/
def read (cs : List Char) : Except Flaw Int :=
  match plain? cs with
  | some n => .ok n
  | none =>
    if StartsOversized cs then .error .oversized
    else match (tidy? cs).bind plain? with
      | some n => .ok n
      | none => .error .unreadable

end Tabletop.Text.LooseInteger
