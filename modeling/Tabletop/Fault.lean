import Tabletop.Text.Decimal

/-!
# Tabletop.Fault

Why something that was asked for could not be done at all, as against a
notation or a field that is turned down with a reason.
-/

namespace Tabletop

open Text

inductive Fault where
  /-- A die with so many sides was asked for and none was left. -/
  | outOfDice (sides : Nat)
  /-- The time was asked for and the clock had none left to show. -/
  | outOfTime
  /-- A value of the kind named cannot be gone through. -/
  | notIterable (kindName : String)
  /-- An integer has more digits than are written. -/
  | oversizedInteger
  /-- A value, given as its literal, names no sign. -/
  | notSign (literal : List Char)
  deriving DecidableEq

/-- The wording of a fault. -/
def Fault.message : Fault → String
  | outOfDice sides => "randint(1, " ++ String.ofList (Decimal.ofNat sides) ++ ")"
  | outOfTime => "clock ran out"
  | notIterable kindName => "'" ++ kindName ++ "' object is not iterable"
  | oversizedInteger =>
    "Exceeds the limit (" ++ String.ofList (Decimal.ofNat Decimal.limit) ++
      " digits) for integer string conversion; use sys.set_int_max_str_digits() to increase the limit"
  | notSign literal => String.ofList literal ++ " is not a valid ModifierSign"

end Tabletop
