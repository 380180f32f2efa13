import Tabletop.Proofs.Agreement
import Tabletop.Proofs.TimestampText

/-!
# Tabletop.Proofs.RoundTrip

What is given out as fields can be taken in again.

Whatever a record was made from, its payload holds plain values only, and each
field accepts what the payload has for it.  So a record is built again from its
payload (`Record.Lossless`), and the payload of a success never makes a failure
or the other way round (`Record.payload_lossless`).
-/

namespace Tabletop

open Text

namespace Field

/-! ## Fields that are given what they hold -/

variable {α : Type} {accept : Value → Except Issue α} {v : Value} {a : α} (fs : Fields)
  (name : String)

theorem required_of_lookup (hlookup : fs.lookup name = some v) (h : accept v = .ok a) :
    required fs name accept = .valid a := by
  simp only [required, hlookup, check, h]

theorem withDefault_of_lookup (hlookup : fs.lookup name = some v) (h : accept v = .ok a)
    (default : α) : withDefault fs name default accept = .valid a := by
  simp only [withDefault, hlookup, check, h]

/-- Integers are accepted one by one. -/
theorem elementsFrom_map_int (index : Nat) (ns : List Int) :
    elementsFrom name integer index (ns.map .int) = .valid ns := by
  induction ns generalizing index with
  | nil => rfl
  | cons n rest ih =>
      rw [List.map_cons, elementsFrom, ih]
      rfl

theorem requiredSequence_of_lookup {ns : List Int}
    (hlookup : fs.lookup name = some (.list (ns.map .int))) :
    requiredSequence fs name integer = .valid ns := by
  simp only [requiredSequence, hlookup, elementsFrom_map_int]

theorem timestamp_text (t : Timestamp) :
    timestamp (.text (String.ofList t.text)) = .ok t := by
  simp only [timestamp, Value.heldText?, timestampOfText, String.toList_ofList,
    Timestamp.read?_text]

/-- A text that may be missing is given as it is or as nothing. -/
theorem optional_text (s : Option String) : optional text (s.elim .null .text) = .ok s := by
  cases s <;> rfl

/-- So are the value and the sign of a modifier. -/
theorem optional_modifier_value (modifier : Option Modifier) :
    optional (part .modifier) (modifier.elim .null fun m => .int m.value) =
      .ok (modifier.map fun m => ⟨m.value, m.admitted⟩) := by
  cases modifier with
  | none => rfl
  | some m =>
      simp only [Option.elim_some, optional, part_int .modifier m.admitted]
      rfl

theorem optional_modifier_sign (modifier : Option Modifier) :
    optional sign (modifier.elim .null fun m => .text (String.singleton m.sign.symbol)) =
      .ok (modifier.map Modifier.sign) := by
  cases modifier with
  | none => rfl
  | some m =>
      simp only [Option.elim_some, optional, sign_symbol]
      rfl

end Field

namespace Record

/-! ## Records from their payloads -/

theorem ofFields_payload_throw (t : Throw) : ofFields (payload t) = .valid t := by
  have hcount := Field.required_of_lookup (payload t) "count" rfl
    (Field.part_int .count t.count_admitted)
  have hsides := Field.required_of_lookup (payload t) "sides" rfl
    (Field.part_int .sides t.sides_admitted)
  have hvalue := Field.withDefault_of_lookup (payload t) "modifier_value" rfl
    (Field.optional_modifier_value t.modifier) none
  have hsign := Field.withDefault_of_lookup (payload t) "modifier_sign" rfl
    (Field.optional_modifier_sign t.modifier) none
  simp only [ofFields, hcount, hsides, hvalue, hsign]
  obtain ⟨count, sides, modifier, -, -⟩ := t
  cases modifier <;> rfl

theorem ofFields_payload_refusal (r : Refusal) : ofFields (payload r) = .valid r := rfl

theorem ofFields_payload_success (s : Success) : ofFields (payload s) = .valid s := by
  have hrolls := Field.requiredSequence_of_lookup (payload s) "rolls" rfl
  have hmodifier := Field.withDefault_of_lookup (payload s) "modifier" rfl
    (Field.optional_text s.modifier) none
  have htimestamp := Field.required_of_lookup (payload s) "timestamp" rfl
    (Field.timestamp_text s.timestamp)
  simp only [ofFields, hrolls, hmodifier, htimestamp]
  rfl

theorem ofFields_payload_failure (f : Failure) : ofFields (payload f) = .valid f := by
  have htimestamp := Field.required_of_lookup (payload f) "timestamp" rfl
    (Field.timestamp_text f.timestamp)
  simp only [ofFields, htimestamp]
  rfl

theorem ofFields_payload_profile (p : Profile) : ofFields (payload p) = .valid p := rfl

/-! ## Records of the other type -/

/-- The payload of a success is no failure: it says so, and gives no reason. -/
theorem ofFields_payload_success_as_failure (s : Success) :
    ofFields (α := Failure) (payload s) =
      .invalid ⟨.field "success", .notLiteral false⟩ [⟨.field "error", .missing⟩] := by
  have htimestamp := Field.required_of_lookup (payload s) "timestamp" rfl
    (Field.timestamp_text s.timestamp)
  simp only [ofFields, htimestamp]
  rfl

/-- The payload of a failure is no success: it says so, and has no dice. -/
theorem ofFields_payload_failure_as_success (f : Failure) :
    ofFields (α := Success) (payload f) =
      .invalid ⟨.field "success", .notLiteral true⟩ [⟨.field "rolls", .missing⟩,
        ⟨.field "total", .missing⟩, ⟨.field "breakdown", .missing⟩] := by
  have htimestamp := Field.required_of_lookup (payload f) "timestamp" rfl
    (Field.timestamp_text f.timestamp)
  simp only [ofFields, htimestamp]
  rfl

/-! ## All five types -/

theorem same_success_self (s : Success) : s.same s = true := by
  simp [Success.same, Timestamp.sameMoment]

theorem same_failure_self (f : Failure) : f.same f = true := by
  simp [Failure.same, Timestamp.sameMoment]

/-- The records of a type lose nothing in their payloads: each, whatever it was
built from, is built again from its own, equal to itself. -/
def Lossless (α : Type) [Record α] : Prop :=
  ∀ m : α, ofFields (payload m) = .valid m ∧ same m m = true

/-- **Payloads lose nothing, and say what they are.**

1. Throws, refusals, successes, failures and profiles are built again from their
   payloads; as nothing has changed, the payloads are then the same again.
2. The payload of a success makes no failure, and that of a failure no success:
   the first complaint is that it is tagged as the other. -/
theorem payload_lossless :
    (Lossless Throw ∧ Lossless Refusal ∧ Lossless Success ∧ Lossless Failure ∧
      Lossless Profile) ∧
    (∀ s : Success, ofFields (α := Failure) (payload s) =
      .invalid ⟨.field "success", .notLiteral false⟩ [⟨.field "error", .missing⟩]) ∧
    ∀ f : Failure, ofFields (α := Success) (payload f) =
      .invalid ⟨.field "success", .notLiteral true⟩ [⟨.field "rolls", .missing⟩,
        ⟨.field "total", .missing⟩, ⟨.field "breakdown", .missing⟩] := by
  refine ⟨⟨?_, ?_, ?_, ?_, ?_⟩, ofFields_payload_success_as_failure,
    ofFields_payload_failure_as_success⟩
  · exact fun t => ⟨ofFields_payload_throw t, beq_self_eq_true t⟩
  · exact fun r => ⟨ofFields_payload_refusal r, beq_self_eq_true r⟩
  · exact fun s => ⟨ofFields_payload_success s, same_success_self s⟩
  · exact fun f => ⟨ofFields_payload_failure f, same_failure_self f⟩
  · exact fun p => ⟨ofFields_payload_profile p, beq_self_eq_true p⟩

/-- A success made from fields of other kinds is given out in plain ones. -/
example :
    (ofFields (α := Success) [("success", .int 1), ("notation", .text "2d6"),
      ("rolls", .tuple [.bool true, .text " 06 "]), ("total", .text "+7.0"),
      ("breakdown", .bytes [55]), ("timestamp", .text "2024-02-29 08:05:00,25-0330")]).map payload =
    .valid [("success", .bool true), ("notation", .text "2d6"), ("rolls", .list [.int 1, .int 6]),
      ("total", .int 7), ("modifier", .null), ("breakdown", .text "7"),
      ("timestamp", .text "2024-02-29T08:05:00.250000-03:30")] := rfl

end Record

end Tabletop
