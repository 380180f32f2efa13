import Tabletop.Field
import Tabletop.Outcome
import Tabletop.Reading

/-!
# Tabletop.Record

Records as named fields: how throws, refusals, successes, failures and
profiles are built from fields and given out as fields.

* `ofFields` checks every field and complains about each that is wrong, in
  the order of the record.  Fields that a record does not know are ignored.
* `payload` gives all fields, in that order, as plain values.
* `same` compares two records of one type field by field.
* A record is never changed once it is built: `edit` only complains.
-/

namespace Tabletop

open Text

/-- Types whose values are records with named fields. -/
class Record (α : Type) where
  /-- Builds a record, or says what is wrong with the fields. -/
  ofFields : Fields → Checked α
  /-- The fields of a record. -/
  payload : α → Fields
  /-- Whether two records have equal fields. -/
  same : α → α → Bool

namespace Record

/-- What comes of changing or removing the field `name` of a record. -/
def edit (α : Type) (name : String) : Checked α := .complain (.field name) .frozen

/-! ## Throws -/

/-- A throw with these numbers.  The value of a modifier and its sign have to
be given together. -/
def assembleThrow : { n : Nat // Part.count.Admits n } → { n : Nat // Part.sides.Admits n } →
    Option { n : Nat // Part.modifier.Admits n } → Option Sign → Checked Throw
  | ⟨count, hcount⟩, ⟨sides, hsides⟩, none, none => .valid ⟨count, sides, none, hcount, hsides⟩
  | ⟨count, hcount⟩, ⟨sides, hsides⟩, some ⟨value, hvalue⟩, some sign =>
    .valid ⟨count, sides, some ⟨sign, value, hvalue⟩, hcount, hsides⟩
  | _, _, _, _ => .complain .record .unpairedModifier

instance : Record Throw where
  ofFields fs :=
    Checked.flatten <| assembleThrow <$> Field.required fs "count" (Field.part .count)
      <*> Field.required fs "sides" (Field.part .sides)
      <*> Field.withDefault fs "modifier_value" none (Field.optional (Field.part .modifier))
      <*> Field.withDefault fs "modifier_sign" none (Field.optional Field.sign)
  payload t :=
    [("count", .int t.count), ("sides", .int t.sides),
     ("modifier_value", t.modifier.elim .null fun m => .int m.value),
     ("modifier_sign", t.modifier.elim .null fun m => .text (String.singleton m.sign.symbol))]
  same t u := t == u

/-! ## Refusals -/

instance : Record Refusal where
  ofFields fs := Refusal.mk <$> Field.required fs "notation" Field.text
    <*> Field.required fs "message" Field.text
  payload r := [("notation", .text r.spelling), ("message", .text r.message)]
  same r s := r == s

/-! ## Outcomes -/

instance : Record Success where
  ofFields fs := (fun _ => Success.mk) <$> Field.withDefault fs "success" () (Field.literal true)
    <*> Field.required fs "notation" Field.text
    <*> Field.requiredSequence fs "rolls" Field.integer
    <*> Field.required fs "total" Field.integer
    <*> Field.withDefault fs "modifier" none (Field.optional Field.text)
    <*> Field.required fs "breakdown" Field.text
    <*> Field.required fs "timestamp" Field.timestamp
  payload s :=
    [("success", .bool true), ("notation", .text s.spelling), ("rolls", .list (s.rolls.map .int)),
     ("total", .int s.total), ("modifier", s.modifier.elim .null .text),
     ("breakdown", .text s.breakdown), ("timestamp", .text (String.ofList s.timestamp.text))]
  same := Success.same

instance : Record Failure where
  ofFields fs := (fun _ => Failure.mk) <$> Field.withDefault fs "success" () (Field.literal false)
    <*> Field.required fs "notation" Field.text
    <*> Field.required fs "error" Field.text
    <*> Field.required fs "timestamp" Field.timestamp
  payload f :=
    [("success", .bool false), ("notation", .text f.spelling), ("error", .text f.error),
     ("timestamp", .text (String.ofList f.timestamp.text))]
  same := Failure.same

/-- The fields of an outcome. -/
def outcomePayload : Outcome → Fields
  | .success s => payload s
  | .failure f => payload f

/-! ## Profiles -/

instance : Record Profile where
  ofFields fs := Profile.mk <$> Field.required fs "name" Field.text
    <*> Field.required fs "version" Field.text
    <*> Field.required fs "description" Field.text
  payload p := [("name", .text p.name), ("version", .text p.version),
    ("description", .text p.description)]
  same p q := p == q

end Record

end Tabletop
