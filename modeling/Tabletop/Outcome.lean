import Tabletop.Timestamp

/-!
# Tabletop.Outcome

What a roll ends in, and how a table presents itself.

A `Success` keeps the notation, the dice in the order they fell, the total,
the modifier as it is written and the derivation of the total; a `Failure`
keeps the notation and the reason.  Both say when.
-/

namespace Tabletop

/-- A roll that took place. -/
structure Success where
  spelling : String
  rolls : List Int
  total : Int
  modifier : Option String
  breakdown : String
  timestamp : Timestamp
  deriving DecidableEq

/-- A roll that was turned down. -/
structure Failure where
  spelling : String
  error : String
  timestamp : Timestamp
  deriving DecidableEq

/-- What a roll ends in. -/
inductive Outcome where
  | success (s : Success)
  | failure (f : Failure)
  deriving DecidableEq

/-- The name, version and description that a table goes by. -/
structure Profile where
  name : String
  version : String
  description : String
  deriving DecidableEq

namespace Success

/-- Whether two successes have equal fields, moments being compared. -/
def same (s t : Success) : Bool :=
  s.spelling == t.spelling && s.rolls == t.rolls && s.total == t.total &&
    s.modifier == t.modifier && s.breakdown == t.breakdown && s.timestamp.sameMoment t.timestamp

end Success

namespace Failure

/-- Whether two failures have equal fields, moments being compared. -/
def same (f g : Failure) : Bool :=
  f.spelling == g.spelling && f.error == g.error && f.timestamp.sameMoment g.timestamp

end Failure

end Tabletop
