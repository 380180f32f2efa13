import Tabletop.Throw

/-!
# Tabletop.Breakdown

How a total comes about, written out: `4 + 2 + 3 = 6 + 3 = 9` with a
modifier, `4 + 2 = 6` without.

1. The dice are joined by ` + `, whatever their signs.
2. A modifier other than zero follows the dice, and then the sum of the
   dice, as a sign and a value between blanks.
3. A modifier of zero is left out.
4. The steps are joined by ` = `, and the last one is the total.
5. Nothing is written when one of the numbers has more than `Decimal.limit`
   digits.

`segments` and `evaluate?` read such a text back: the first cuts it into its
steps, the second computes a step by schoolbook arithmetic, without knowing
how it was written.
-/

namespace Tabletop

open Text

namespace Breakdown

/-! ## Writing -/

/-- The modifier of a throw, unless it is zero. -/
def shownModifier? (t : Throw) : Option Modifier := t.modifier.filter fun m => m.value != 0

/-- A modifier after a number: blank, sign, blank, value. -/
def clause (m : Modifier) : List Char := ' ' :: m.sign.symbol :: ' ' :: Decimal.ofNat m.value

/-- The dice joined by ` + `. -/
def dice (rolls : List Int) : List Char := [' ', '+', ' '].intercalate (rolls.map Decimal.ofInt)

/-- The steps from the dice to the total. -/
def steps (rolls : List Int) (t : Throw) : List (List Char) :=
  match shownModifier? t with
  | some m =>
    [dice rolls ++ clause m, Decimal.ofInt (diceSum rolls) ++ clause m,
      Decimal.ofInt (diceSum rolls + m.signed)]
  | none => [dice rolls, Decimal.ofInt (diceSum rolls)]

/-- The derivation of the total of a throw from its dice. -/
def text (rolls : List Int) (t : Throw) : List Char := [' ', '=', ' '].intercalate (steps rolls t)

/-- The numbers that a derivation writes out, those of the modifier apart. -/
def numbers (rolls : List Int) (t : Throw) : List Int :=
  rolls ++ [diceSum rolls, diceSum rolls + t.offset]

/-- The derivation of a total, unless one of its numbers is too long. -/
def text? (rolls : List Int) (t : Throw) : Option (List Char) :=
  if ∀ n ∈ numbers rolls t, Decimal.Fits n then some (text rolls t) else none

/-! ## Reading back -/

/-- The pieces of a text between the places where ` = ` stands. -/
def segments : List Char → List (List Char)
  | ' ' :: '=' :: ' ' :: rest => [] :: segments rest
  | c :: rest =>
    match segments rest with
    | [] => [[c]]
    | s :: ss => (c :: s) :: ss
  | [] => [[]]

/-- The integer that a numeral stands for: digits, after a minus sign or not. -/
def numeral? : List Char → Option Int
  | '-' :: ds => if ds ≠ [] ∧ Decimal.IsRun ds then some (-(Decimal.value ds : Int)) else none
  | ds => if ds ≠ [] ∧ Decimal.IsRun ds then some (Decimal.value ds) else none

/-- Adds and takes away the numerals that follow, from left to right. -/
def evaluateFrom? (sum : Int) : List (List Char) → Option Int
  | [] => some sum
  | ['+'] :: n :: rest => (numeral? n).bind fun x => evaluateFrom? (sum + x) rest
  | ['-'] :: n :: rest => (numeral? n).bind fun x => evaluateFrom? (sum - x) rest
  | _ => none

/-- The value of a step: numerals with a plus or a minus between each two,
everything separated by single blanks. -/
def evaluate? (cs : List Char) : Option Int :=
  match cs.splitOn ' ' with
  | [] => none
  | n :: rest => (numeral? n).bind fun x => evaluateFrom? x rest

end Breakdown

end Tabletop
