import Tabletop.Fault
import Tabletop.Notation
import Tabletop.Value

/-!
# Tabletop.Reading

What comes of offering a value as a notation: a throw, or a refusal that
keeps the offered value as text beside the reason.

A value that is not a text is refused under its literal, so reading one fails
only where the literal cannot be written.
-/

namespace Tabletop

/-- Why a notation could not be turned into a throw: the notation itself, in
full, and a message. -/
structure Refusal where
  spelling : String
  message : String
  deriving DecidableEq

/-- The outcome of reading a notation. -/
inductive Reading where
  | accepted (t : Throw)
  | refused (r : Refusal)
  deriving DecidableEq

namespace Reading

/-- Reads a text as a notation. -/
def ofText (s : String) : Reading :=
  match Notation.read s.toList with
  | .ok t => accepted t
  | .error e => refused ⟨s, String.ofList (e.message s.toList)⟩

/-- The refusal of a value of this kind that is shown as this text. -/
def refuseKind (kindName : String) (shown : List Char) : Refusal :=
  ⟨String.ofList shown, String.ofList ((Notation.Rejection.notText kindName).message shown)⟩

/-- Reads any value as a notation. -/
def ofValue : Value → Except Fault Reading
  | .text s => .ok (ofText s)
  | v =>
    match v.literal? with
    | some shown => .ok (refused (refuseKind v.kindName shown))
    | none => .error .oversizedInteger

/-- Whatever is not a text is refused under its literal, if it has one. -/
theorem ofValue_of_ne_text {v : Value} (h : ∀ s, v ≠ .text s) :
    ofValue v = match v.literal? with
      | some shown => .ok (refused (refuseKind v.kindName shown))
      | none => .error .oversizedInteger := by
  cases v with
  | text s => exact absurd rfl (h s)
  | _ => rfl

end Reading

/-- The sign that a value is: a text that is its symbol and nothing else. -/
def Sign.ofValue (v : Value) : Except Fault Sign :=
  match v with
  | .text "+" => .ok .plus
  | .text "-" => .ok .minus
  | v =>
    match v.literal? with
    | some literal => .error (.notSign literal)
    | none => .error .oversizedInteger

end Tabletop
