import Tabletop.Checked
import Tabletop.Throw
import Tabletop.Timestamp
import Tabletop.Value
import Tabletop.Text.LooseInteger

/-!
# Tabletop.Field

Named values, and what each kind of field accepts.

* Integers are taken from integers, truth values, whole floating numbers
  below `wholeBound` and texts in the form of `Text.LooseInteger`; bounds
  are checked afterwards.
* Texts are taken from texts, and from byte strings that hold one.
* Signs and timestamps are taken from their own spellings only; a truth
  value from whatever amounts to it; integer sequences from lists and
  tuples, element by element.
-/

namespace Tabletop

open Text

/-- The fields given for a record, by name. -/
abbrev Fields := List (String × Value)

namespace Field

/-! ## Kinds of fields -/

/-- The integer in a text. -/
def integerOfText (s : String) : Except Issue Int :=
  match LooseInteger.read s.toList with
  | .ok n => .ok n
  | .error .unreadable => .error .unreadableInteger
  | .error .oversized => .error .oversizedInteger

/-- A floating number of this magnitude or more is not taken as an integer. -/
def wholeBound : Nat := Nat.pow 2 63

/-- Accepts an integer. -/
def integer (v : Value) : Except Issue Int :=
  match v with
  | .int n => .ok n
  | .bool b => .ok (if b then 1 else 0)
  | .float x =>
    if x.isFinite then
      match x.toInt? with
      | some n => if n.natAbs < wholeBound then .ok n else .error .oversizedInteger
      | none => .error .fractionalInteger
    else .error .notFinite
  | v =>
    match v.heldText? with
    | some (some s) => integerOfText s
    | some none => .error .unreadableInteger
    | none => .error .notInteger

/-- Accepts an integer that a part of a throw admits. -/
def part (p : Part) (v : Value) : Except Issue { n : Nat // p.Admits n } :=
  match integer v with
  | .error e => .error e
  | .ok n =>
    if (p.highest : Int) < n then .error (.tooLarge p.highest)
    else if h : p.Admits n.toNat ∧ 0 ≤ n then .ok ⟨n.toNat, h.1⟩
    else .error (.tooSmall p.lowest)

/-- Accepts a text. -/
def text (v : Value) : Except Issue String :=
  match v.heldText? with
  | some (some s) => .ok s
  | some none => .error .undecodableText
  | none => .error .notText

/-- Accepts a plus or a minus sign. -/
def sign (v : Value) : Except Issue Sign :=
  match v.heldText? with
  | some (some s) =>
    match s.toList with
    | [c] => match Sign.ofSymbol? c with
      | some g => .ok g
      | none => .error .notSign
    | _ => .error .notSign
  | _ => .error .notSign

/-- Accepts one truth value only, or the number that it amounts to. -/
def literal (wanted : Bool) (v : Value) : Except Issue Unit :=
  if v.same (.bool wanted) then .ok () else .error (.notLiteral wanted)

/-- The timestamp in a text of so many bytes. -/
def timestampOfText (size : Nat) (cs : List Char) : Except Issue Timestamp :=
  match Timestamp.read? cs with
  | some t => .ok t
  | none =>
    .error (if Timestamp.showsYearZero cs then .yearZero
      else .unreadableTimestamp (Timestamp.flaw size cs))

/-- Accepts the text of a timestamp, or the bytes of one. -/
def timestamp (v : Value) : Except Issue Timestamp :=
  match v, v.heldText? with
  | _, some (some s) => timestampOfText s.utf8ByteSize s.toList
  | .bytes content, _ =>
    timestampOfText content.length (content.map fun b => Char.ofNat b.toNat)
  | _, _ => .error .notTimestamp

/-- Accepts nothing, or what `accept` accepts. -/
def optional {α : Type} (accept : Value → Except Issue α) : Value → Except Issue (Option α)
  | .null => .ok none
  | v => (accept v).map some

/-! ## Fields by name -/

variable {α : Type}

/-- What a kind of field makes of a value, any issue being at `place`. -/
def check (place : Place) (accept : Value → Except Issue α) (v : Value) : Checked α :=
  match accept v with
  | .ok a => .valid a
  | .error e => .complain place e

/-- A field that has to be given. -/
def required (fs : Fields) (name : String) (accept : Value → Except Issue α) : Checked α :=
  match fs.lookup name with
  | some v => check (.field name) accept v
  | none => .complain (.field name) .missing

/-- A field with a default. -/
def withDefault (fs : Fields) (name : String) (default : α) (accept : Value → Except Issue α) :
    Checked α :=
  match fs.lookup name with
  | some v => check (.field name) accept v
  | none => .valid default

/-- Checks the elements of a sequence, from the one with number `index` on. -/
def elementsFrom (name : String) (accept : Value → Except Issue α) (index : Nat) :
    List Value → Checked (List α)
  | [] => .valid []
  | v :: rest =>
    (· :: ·) <$> check (.element name index) accept v <*> elementsFrom name accept (index + 1) rest

/-- A field that has to be given and holds a list or tuple. -/
def requiredSequence (fs : Fields) (name : String) (accept : Value → Except Issue α) :
    Checked (List α) :=
  match fs.lookup name with
  | some (.list items) | some (.tuple items) => elementsFrom name accept 0 items
  | some _ => .complain (.field name) .notTuple
  | none => .complain (.field name) .missing

end Field

end Tabletop
