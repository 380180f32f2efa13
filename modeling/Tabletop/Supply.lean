import Tabletop.Fault
import Tabletop.Timestamp
import Tabletop.Twister
import Tabletop.Value

/-!
# Tabletop.Supply

What rolling uses up and leaves behind: a source of dice, a clock and a log.

* `DieSource` and `Clock` are the machines that rolls draw on: each call
  answers or fails, and leaves the machine in a new state either way.
* A `Script` hands out integers given in advance and keeps the bounds it was
  asked for; a `Twister` rolls by its own means and never fails.
* A `Schedule` shows times given in advance; a `Stopped` clock always the
  same.
* An `Act` is something done with a `Supply`.  One that fails keeps what it
  used up and what it logged until then.
-/

namespace Tabletop

open Text

/-! ## Dice -/

/-- Machines that roll one die at a time. -/
class DieSource (σ : Type) where
  /-- Rolls a die with so many sides. -/
  draw : Nat → EStateM Fault σ Int

/-- Integers handed out in order, whatever die is asked for. -/
structure Script where
  left : List Int
  /-- The least and the greatest number asked for in each draw so far. -/
  calls : List (Nat × Nat)
  deriving DecidableEq

instance : DieSource Script where
  draw sides script :=
    let calls := script.calls ++ [(1, sides)]
    match script.left with
    | [] => .error (.outOfDice sides) ⟨[], calls⟩
    | n :: rest => .ok n ⟨rest, calls⟩

instance : DieSource Twister where
  draw sides twister :=
    let (n, after) := twister.below sides
    .ok (n + 1) after

/-! ## Clocks -/

/-- Machines that show the time. -/
class Clock (κ : Type) where
  /-- The time of a call. -/
  now : EStateM Fault κ Timestamp

/-- Times shown one after the other. -/
structure Schedule where
  left : List Timestamp
  deriving DecidableEq

instance : Clock Schedule where
  now schedule :=
    match schedule.left with
    | [] => .error .outOfTime schedule
    | t :: rest => .ok t ⟨rest⟩

/-- A clock that always shows the same time. -/
structure Stopped where
  time : Timestamp
  deriving DecidableEq

instance : Clock Stopped where
  now clock := .ok clock.time clock

/-! ## The log -/

/-- What is noted about a roll. -/
inductive Entry where
  | rolled (spelling : String) (rolls : List Int) (total : Int)
  | rejected (literal : List Char) (message : String)
  deriving DecidableEq

/-- The numbers that an entry writes out. -/
def Entry.numbers : Entry → List Int
  | rolled _ rolls total => rolls ++ [total]
  | rejected .. => []

/-- What an entry says. -/
def Entry.text : Entry → List Char
  | rolled spelling rolls total =>
    "Rolled ".toList ++ spelling.toList ++ ": ".toList ++
      Value.tupleText (rolls.map Decimal.ofInt) ++ " -> ".toList ++ Decimal.ofInt total
  | rejected literal message =>
    "Rejected dice notation ".toList ++ literal ++ ": ".toList ++ message.toList

/-- An entry on its line: the level and the origin in front. -/
def Entry.line (e : Entry) : String :=
  String.ofList ("DEBUG dice_roller.roller ".toList ++ e.text)

/-! ## Supplies -/

/-- A source of dice, a clock and a log, the newest entry last. -/
structure Supply (σ κ : Type) where
  dice : σ
  clock : κ
  log : List Entry
  deriving DecidableEq

/-- Something done with a supply. -/
abbrev Act (σ κ : Type) := EStateM Fault (Supply σ κ)

namespace Supply

variable {σ κ : Type}

/-- Rolls one die. -/
def drawDie [DieSource σ] (sides : Nat) : Act σ κ Int := fun s =>
  match DieSource.draw sides s.dice with
  | .ok n dice => .ok n { s with dice }
  | .error e dice => .error e { s with dice }

/-- Rolls so many dice, one after the other. -/
def drawDice [DieSource σ] (sides : Nat) : Nat → Act σ κ (List Int)
  | 0 => pure []
  | count + 1 => do
    let n ← drawDie sides
    let rest ← drawDice sides count
    return n :: rest

/-- Reads the clock. -/
def readClock [Clock κ] : Act σ κ Timestamp := fun s =>
  match Clock.now s.clock with
  | .ok t clock => .ok t { s with clock }
  | .error e clock => .error e { s with clock }

/-- Adds an entry to the log, unless one of its numbers is too long. -/
def note (e : Entry) : Act σ κ Unit := fun s =>
  if ∀ n ∈ e.numbers, Decimal.Fits n then .ok () { s with log := s.log ++ [e] }
  else .error .oversizedInteger s

end Supply

end Tabletop
