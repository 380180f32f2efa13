import Tabletop.Roll

/-!
# Tabletop.Session

A session with one shared table.

1. The table is set up by the first call, with the settings of that moment
   and dice seeded by them, and serves all later calls.
2. Changing variables or settings does not touch a table that is set up; a
   change of settings that is not valid changes nothing at all.
3. Clearing the table makes the next call set up a new one.

Dice whose settings name no seed are seeded by chance; a session keeps what
chance has in store for its tables.
-/

namespace Tabletop

/-- A table that is set up: its settings and its dice. -/
structure Table where
  settings : Settings
  dice : Twister

/-- The state of a session. -/
structure Session (κ : Type) where
  environment : Variables
  /-- The text of the file of variables. -/
  file : String
  settings : Settings
  table : Option Table
  clock : κ
  /-- The seeds of dice whose settings name none: the first for a table set up
  now, the others for those set up after it is cleared. -/
  entropy : Nat → Int

/-- What can be done in a session. -/
inductive Command where
  | call (c : Call)
  | setVariables (vs : Variables)
  | assign (fs : Fields)
  | clear

/-- What comes of a command. -/
inductive Reply where
  | answered (a : Except Fault Answer) (log : List Entry)
  | assigned (s : Checked Settings)
  | done

/-- A table with these settings. -/
def Table.setUp (entropy : Int) (settings : Settings) : Table :=
  ⟨settings, Twister.ofSeed (settings.seed.getD entropy)⟩

namespace Session

variable {κ : Type}

/-- A session in which nothing has been done, in which chance seeds all dice
alike. -/
def start (clock : κ) (entropy : Int) (settings : Settings) : Session κ :=
  ⟨[], "", settings, none, clock, fun _ => entropy⟩

/-- The table that serves the next call. -/
def readyTable (s : Session κ) : Table := s.table.getD (Table.setUp (s.entropy 0) s.settings)

/-- Makes a call at the shared table. -/
def call [Clock κ] (c : Call) (s : Session κ) : Reply × Session κ :=
  let table := s.readyTable
  let (a, after) := c.answer table.settings ⟨table.dice, s.clock, []⟩
  (.answered a after.log,
    { s with table := some { table with dice := after.dice }, clock := after.clock })

/-- Carries out a command. -/
def step [Clock κ] (s : Session κ) : Command → Reply × Session κ
  | .call c => s.call c
  | .setVariables vs =>
    (.done, { s with environment := s.environment.putAll vs })
  | .assign fs =>
    let resolved := Settings.resolve ⟨fs, s.environment, s.file⟩
    (.assigned resolved, { s with settings := resolved.result?.getD s.settings })
  | .clear => (.done, { s with table := none, entropy := fun n => s.entropy (n + 1) })

/-- Whether a session that came from this one by one command has the same
table, or neither has one. -/
def sameTable (s after : Session κ) : Bool := s.table.isSome == after.table.isSome

/-- The replies to commands carried out one after the other. -/
def replies [Clock κ] (s : Session κ) : List Command → List Reply × Session κ
  | [] => ([], s)
  | c :: rest =>
    let (r, after) := s.step c
    let (rs, final) := after.replies rest
    (r :: rs, final)

end Session

end Tabletop
