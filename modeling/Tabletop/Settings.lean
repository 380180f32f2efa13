import Tabletop.Record
import Tabletop.Settings.VariableFile

/-!
# Tabletop.Settings

What a table is called, which notation it throws when none is given, and the
seed of its dice.

Each setting is looked for in four places: among the fields given by name,
in the environment, in a file of variables, and among the defaults.  The
first place that has a value wins, and only that value is checked.

A field may be named in capital or small letters; the variable of a setting
is its field name after `variablePrefix`.  Of several fields whose names
differ in letter case only the first wins, of several variables the last.
-/

namespace Tabletop

structure Settings where
  name : String
  version : String
  description : String
  /-- The notation thrown when none is given. -/
  fallback : String
  seed : Option Int
  deriving DecidableEq

/-- Where settings come from, defaults apart. -/
structure Sources where
  given : Fields
  environment : Variables
  /-- The text of the file of variables. -/
  file : String

namespace Settings

/-- The settings of a table that nobody has set up. -/
def defaults : Settings where
  name := "Dice Roller"
  version := "1.0.0"
  description := "A dice rolling skill supporting standard XdY+Z notation"
  fallback := "1d6"
  seed := none

/-- What the names of the variables begin with, in small letters. -/
def variablePrefix : String := "dice_roller_"

/-- A name in small letters. -/
def smallLetters (name : String) : String := String.ofList (name.toList.map Char.toLower)

/-- The field that a variable sets, if its name has the prefix. -/
def fieldOfVariable? (variableName : String) : Option String :=
  let name := (smallLetters variableName).toList
  if variablePrefix.toList.isPrefixOf name then
    some (String.ofList (name.drop variablePrefix.length))
  else none

/-- The fields that variables set.  Where the last variable of a field has no
value, the field is not set. -/
def fieldsOfVariables (bindings : List Binding) : Fields :=
  let settled := Entries.ofList (· == ·) <| bindings.filterMap fun (name, value) =>
    (fieldOfVariable? name).map fun field => (field, value)
  settled.filterMap fun (field, value) => value.map fun s => (field, Value.text s)

/-- All values that the sources have for fields, the winning ones first. -/
def candidates (sources : Sources) : Fields :=
  sources.given.map (fun (name, value) => (smallLetters name, value)) ++
    fieldsOfVariables (sources.environment.map fun (name, value) => (name, some value)) ++
    fieldsOfVariables (VariableFile.read sources.environment sources.file)

/-- The settings that fields ask for. -/
def ofFields (fs : Fields) : Checked Settings :=
  Settings.mk <$> Field.withDefault fs "name" defaults.name Field.text
    <*> Field.withDefault fs "version" defaults.version Field.text
    <*> Field.withDefault fs "description" defaults.description Field.text
    <*> Field.withDefault fs "default_notation" defaults.fallback Field.text
    <*> Field.withDefault fs "seed" defaults.seed (Field.optional Field.integer)

/-- The settings that the sources ask for. -/
def resolve (sources : Sources) : Checked Settings := ofFields (candidates sources)

/-- The settings as fields. -/
def payload (s : Settings) : Fields :=
  [("name", .text s.name), ("version", .text s.version), ("description", .text s.description),
   ("default_notation", .text s.fallback), ("seed", s.seed.elim .null .int)]

/-- How a table with these settings presents itself. -/
def profile (s : Settings) : Profile := ⟨s.name, s.version, s.description⟩

end Settings

end Tabletop
