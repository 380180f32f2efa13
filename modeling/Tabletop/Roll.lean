import Tabletop.Breakdown
import Tabletop.Outcome
import Tabletop.Reading
import Tabletop.Settings
import Tabletop.Supply

/-!
# Tabletop.Roll

Rolling: from a notation to a success or a failure.

1. A notation that is refused is logged and ends in a failure; no die is
   rolled for it.
2. For any other, all dice are rolled first, then the roll is logged, then
   the derivation of the total is written, and the clock is read last.
3. Several notations are rolled one after the other, and the first fault
   ends the whole.

`Call` lists what a table can be asked for, `Answer` what it may answer.
-/

namespace Tabletop

open Text

namespace Roll

variable {σ κ : Type} [DieSource σ] [Clock κ]

/-- Writes the derivation of the total of a throw from its dice. -/
def derive (rolls : List Int) (t : Throw) : Act σ κ String :=
  match Breakdown.text? rolls t with
  | some derivation => return String.ofList derivation
  | none => throw .oversizedInteger

/-- Rolls the dice of a throw that was spelled this way. -/
def perform (spelling : String) (t : Throw) : Act σ κ Outcome := do
  let rolls ← Supply.drawDice t.sides t.count
  let total := diceSum rolls + t.offset
  Supply.note (.rolled spelling rolls total)
  let breakdown ← derive rolls t
  let timestamp ← Supply.readClock
  return .success {
    spelling, rolls, total, breakdown, timestamp
    modifier := t.modifier.map fun m => String.ofList m.spell }

/-- Turns down what was offered; `literal` is the offered value as it would
be written down. -/
def turnDown (literal : List Char) (r : Refusal) : Act σ κ Outcome := do
  Supply.note (.rejected literal r.message)
  let timestamp ← Supply.readClock
  return .failure { spelling := r.spelling, error := r.message, timestamp }

/-- Rolls what a text asks for. -/
def rollText (s : String) : Act σ κ Outcome :=
  match Reading.ofText s with
  | .accepted t => perform s t
  | .refused r => turnDown (Quoted.ofText s.toList) r

/-- Rolls what a value asks for; a missing one asks for the notation that the
settings fall back on. -/
def roll (settings : Settings) : Value → Act σ κ Outcome
  | .null => rollText settings.fallback
  | .text s => rollText s
  | v =>
    match v.literal? with
    | some literal => turnDown literal (Reading.refuseKind v.kindName literal)
    | none => throw .oversizedInteger

/-- Whatever is neither a text nor missing is turned down under its literal, if
it has one. -/
theorem roll_of_ne_text {settings : Settings} {v : Value} (hnull : v ≠ .null)
    (htext : ∀ s, v ≠ .text s) :
    roll (σ := σ) (κ := κ) settings v = match v.literal? with
      | some literal => turnDown literal (Reading.refuseKind v.kindName literal)
      | none => throw .oversizedInteger := by
  cases v with
  | null => exact absurd rfl hnull
  | text s => exact absurd rfl (htext s)
  | _ => rfl

/-- Rolls what each of several values asks for. -/
def rollEach (settings : Settings) : List Value → Act σ κ (List Outcome)
  | [] => pure []
  | v :: rest => do
    let first ← roll settings v
    let others ← rollEach settings rest
    return first :: others

/-- Rolls what the values met in a value ask for. -/
def rollMany (settings : Settings) (v : Value) : Act σ κ (List Outcome) :=
  match v.elements? with
  | some vs => rollEach settings vs
  | none => throw (.notIterable v.kindName)

/-- Rolls six-sided dice, as many as the value shown says. -/
def rollSixes (count : Value) : Act σ κ Outcome :=
  match count.display? with
  | some shown => rollText (String.ofList (shown ++ ['d', '6']))
  | none => throw .oversizedInteger

end Roll

/-! ## Calls and answers -/

/-- What a table can be asked for. -/
inductive Call where
  | roll (given : Value)
  | rollMany (given : Value)
  | rollSixes (count : Value)
  | rollD20
  | rollD100
  | profile

/-- What a table answers. -/
inductive Answer where
  | outcome (o : Outcome)
  | outcomes (os : List Outcome)
  | profile (p : Profile)
  deriving DecidableEq

namespace Call

variable {σ κ : Type} [DieSource σ] [Clock κ]

/-- Does what is asked for. -/
def run (settings : Settings) : Call → Act σ κ Answer
  | roll given => return .outcome (← Roll.roll settings given)
  | rollMany given => return .outcomes (← Roll.rollMany settings given)
  | rollSixes count => return .outcome (← Roll.rollSixes count)
  | rollD20 => return .outcome (← Roll.rollText "1d20")
  | rollD100 => return .outcome (← Roll.rollText "1d100")
  | profile => return .profile settings.profile

/-- Does what is asked for and, whether it fails or not, gives the supply
that is left. -/
def answer (settings : Settings) (c : Call) (s : Supply σ κ) : Except Fault Answer × Supply σ κ :=
  match c.run settings s with
  | .ok a after => (.ok a, after)
  | .error e after => (.error e, after)

/-- The answers to calls made one after the other; one that fails does not
stop those after it. -/
def answers (settings : Settings) : List Call → Supply σ κ →
    List (Except Fault Answer) × Supply σ κ
  | [], s => ([], s)
  | c :: rest, s =>
    let (a, after) := c.answer settings s
    let (as, final) := answers settings rest after
    (a :: as, final)

end Call

end Tabletop
