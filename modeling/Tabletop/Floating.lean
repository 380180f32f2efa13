import Tabletop.Text.Decimal

/-!
# Tabletop.Floating

Double-precision numbers, known by the shortest decimal that reads back.

1. A finite number is its sign, its significant digits and a power of ten.
   The digits have no trailing zero, and zero has the power zero.
2. It is written positionally when its leading digit stands between the
   fourth decimal place and the sixteenth place before the point, always
   with a digit after the point; otherwise with one digit before the point
   and a signed exponent of at least two digits.
3. The shortest decimal of a whole number has no fraction, and rounding it
   to 53 significant bits, ties to even, gives the number itself.
-/

namespace Tabletop

open Text

inductive Floating where
  | nan
  | infinite (negative : Bool)
  | finite (negative : Bool) (digits : Nat) (exponent : Int)
  deriving DecidableEq

namespace Floating

/-! ## Writing -/

/-- The exponent part: the letter, a sign and at least two digits. -/
def exponentPart (e : Int) : List Char :=
  let digits := Decimal.ofNat e.natAbs
  'e' :: (if e < 0 then '-' else '+') :: List.replicate (2 - digits.length) '0' ++ digits

/-- The digits `ds` laid out with the leading one in the place of `10 ^ lead`. -/
def layOut (ds : List Char) (lead : Int) : List Char :=
  if -4 ≤ lead ∧ lead < 16 then
    if lead < 0 then
      '0' :: '.' :: List.replicate ((-lead).toNat - 1) '0' ++ ds
    else
      let whole := lead.toNat + 1
      let fraction := ds.drop whole
      ds.take whole ++ List.replicate (whole - ds.length) '0' ++ '.' ::
        (if fraction = [] then ['0'] else fraction)
  else
    ds.take 1 ++ (if ds.drop 1 = [] then [] else '.' :: ds.drop 1) ++ exponentPart lead

/-- The text of a number. -/
def text : Floating → List Char
  | nan => ['n', 'a', 'n']
  | infinite negative => (if negative then ['-'] else []) ++ ['i', 'n', 'f']
  | finite negative digits exponent =>
    let ds := Decimal.ofNat digits
    (if negative then ['-'] else []) ++ layOut ds (ds.length - 1 + exponent)

/-! ## Reading -/

/-- The power of ten named by an exponent part; zero for an empty one. -/
def readExponent? : List Char → Option Int
  | [] => some 0
  | 'e' :: '-' :: ds => if ds ≠ [] ∧ Decimal.IsRun ds then some (-(Decimal.value ds : Int)) else none
  | 'e' :: '+' :: ds => if ds ≠ [] ∧ Decimal.IsRun ds then some (Decimal.value ds) else none
  | _ => none

/-- The number with digits `ds`, the last in the place of `10 ^ place`. -/
def ofDigits (negative : Bool) (ds : List Char) (place : Int) : Floating :=
  let zeros := (ds.reverse.takeWhile (· = '0')).length
  let digits := Decimal.value (ds.take (ds.length - zeros))
  finite negative digits (if digits = 0 then 0 else place + zeros)

/-- Reads an unsigned number. -/
def readMagnitude? (negative : Bool) (cs : List Char) : Option Floating :=
  if cs = ['i', 'n', 'f'] then some (infinite negative)
  else
    let whole := cs.takeWhile Char.isDigit
    let rest := cs.dropWhile Char.isDigit
    let (fraction, rest) := match rest with
      | '.' :: r => (r.takeWhile Char.isDigit, r.dropWhile Char.isDigit)
      | r => ([], r)
    if whole = [] then none
    else (readExponent? rest).map fun e =>
      ofDigits negative (whole ++ fraction) (e - fraction.length)

/-- Reads the text of a number. -/
def read? (cs : List Char) : Option Floating :=
  if cs = ['n', 'a', 'n'] then some nan
  else match cs with
    | '-' :: r => readMagnitude? true r
    | r => readMagnitude? false r

/-! ## Whole numbers -/

/-- A natural number rounded to 53 significant bits, ties to even. -/
def roundToDouble (n : Nat) : Nat :=
  let shift := Nat.log2 n - 52
  let kept := n >>> shift
  let lost := n - (kept <<< shift)
  let half := 1 <<< (shift - 1)
  if shift = 0 then n
  else if half < lost ∨ (lost = half ∧ kept % 2 = 1) then (kept + 1) <<< shift
  else kept <<< shift

/-- Whether the number is neither an infinity nor `nan`. -/
def isFinite : Floating → Bool
  | finite .. => true
  | _ => false

/-- The number as an integer, if it is finite and whole. -/
def toInt? : Floating → Option Int
  | finite negative digits exponent =>
    if exponent < 0 then none
    else
      let n := roundToDouble (digits * Nat.pow 10 exponent.toNat)
      some (if negative then -(n : Int) else n)
  | _ => none

end Floating

end Tabletop
