import Tabletop.Text.Decimal

/-!
# Tabletop.Throw

What is thrown: a number of equal dice and, if wanted, a flat modifier.

* `Part` names the three numbers of a throw and gives each its bounds, once
  for everything that checks them.
* A `Throw` carries the proof that its numbers lie within those bounds.
* `Throw.spell` is the canonical spelling of a throw: all numbers without
  leading zeros, the count always written.
-/

namespace Tabletop

open Text

/-! ## Bounds -/

/-- The numbers that make up a throw. -/
inductive Part where
  | count
  | sides
  | modifier
  deriving DecidableEq

namespace Part

/-- The least number allowed in a part. -/
def lowest : Part → Nat
  | count => 1
  | sides => 2
  | modifier => 0

/-- The greatest number allowed in a part. -/
def highest : Part → Nat
  | count => 100
  | sides => 1000
  | modifier => 100

/-- What a part is called when its number is out of bounds. -/
def label : Part → String
  | count => "Die count"
  | sides => "Die sides"
  | modifier => "Modifier"

/-- Whether a number lies within the bounds of a part. -/
def Admits (p : Part) (n : Nat) : Prop := p.lowest ≤ n ∧ n ≤ p.highest

instance (p : Part) (n : Nat) : Decidable (p.Admits n) :=
  inferInstanceAs (Decidable (_ ∧ _))

end Part

/-! ## Modifiers -/

/-- Whether a modifier is added or taken away. -/
inductive Sign where
  | plus
  | minus
  deriving DecidableEq

namespace Sign

/-- The character that stands for a sign. -/
def symbol : Sign → Char
  | plus => '+'
  | minus => '-'

/-- The name of a sign. -/
def name : Sign → String
  | plus => "plus"
  | minus => "minus"

/-- The number that a modifier's value is multiplied by. -/
def factor : Sign → Int
  | plus => 1
  | minus => -1

/-- The sign that a character stands for. -/
def ofSymbol? (c : Char) : Option Sign :=
  if c = '+' then some plus else if c = '-' then some minus else none

theorem ofSymbol?_symbol (g : Sign) : ofSymbol? g.symbol = some g := by
  cases g <;> rfl

end Sign

/-- A flat amount added to the dice or taken from them.  An amount of zero
keeps its sign. -/
structure Modifier where
  sign : Sign
  value : Nat
  admitted : Part.modifier.Admits value
  deriving DecidableEq

namespace Modifier

/-- What the modifier adds to the sum of the dice. -/
def signed (m : Modifier) : Int := m.sign.factor * m.value

/-- The sign followed by the value. -/
def spell (m : Modifier) : List Char := m.sign.symbol :: Decimal.ofNat m.value

end Modifier

/-! ## Throws -/

/-- What the dice of a throw add up to. -/
def diceSum : List Int → Int
  | [] => 0
  | n :: rest => n + diceSum rest

/-- A number of equal dice and an optional modifier, all within bounds. -/
structure Throw where
  count : Nat
  sides : Nat
  modifier : Option Modifier
  count_admitted : Part.count.Admits count
  sides_admitted : Part.sides.Admits sides
  deriving DecidableEq

namespace Throw

/-- What the modifier adds to the sum of the dice; zero when there is none. -/
def offset (t : Throw) : Int := t.modifier.elim 0 Modifier.signed

/-- The canonical spelling of a throw. -/
def spell (t : Throw) : List Char :=
  Decimal.ofNat t.count ++ 'd' :: Decimal.ofNat t.sides ++ t.modifier.elim [] Modifier.spell

end Throw

end Tabletop
