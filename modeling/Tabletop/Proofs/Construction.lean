import Mathlib.Data.List.Basic
import Tabletop.Proofs.Agreement
import Tabletop.Proofs.Fairness

/-!
# Tabletop.Proofs.Construction

Which throws are built from which fields, and what is said of fields that make
none.

`Throw.Slot` lists the fields of a throw.  What a field holds is said by
`HoldsNumber`, `HoldsSign` and `Empty`, without regard to how fields are
checked; `Sound` and `fault?` say whether it is right by itself and, if not,
what is wrong.

* Fields make a throw exactly when they describe it
  (`Throw.ofFields_eq_valid_iff`), so exactly when each of them is sound and the
  value of the modifier comes with its sign.
* The complaints are the faults of the fields, in order
  (`Throw.complaints_of_not_sound`); the sign and the value are compared only
  where there are none.
-/

namespace Tabletop

open Text

/-! ## Values that are accepted -/

namespace Field

/-- A part takes a value for a number exactly when it converts to that number. -/
theorem part_eq_ok_iff {p : Part} {v : Value} {n : { n : Nat // p.Admits n }} :
    part p v = .ok n ↔ integer v = .ok (n.1 : Int) := by
  obtain ⟨n, hn⟩ := n
  unfold part
  cases integer v with
  | error e => exact ⟨nofun, nofun⟩
  | ok m =>
      constructor
      · intro h
        simp only at h
        split at h
        · contradiction
        · split at h
          · next hm =>
              cases h
              rw [Int.toNat_of_nonneg hm.2]
          · contradiction
      · rintro ⟨⟩
        have hsmall : ¬(p.highest : Int) < n := Int.not_lt.mpr (Int.ofNat_le.mpr hn.2)
        simp [hsmall, hn]

/-- A sign is taken from a text, or from bytes, that hold its symbol alone. -/
theorem sign_eq_ok_iff {v : Value} {g : Sign} :
    sign v = .ok g ↔ v.heldText? = some (some (String.singleton g.symbol)) := by
  unfold sign
  split
  · next s hs =>
      have hsingleton : v.heldText? = some (some (String.singleton g.symbol)) ↔
          s.toList = [g.symbol] := by
        rw [hs, Option.some_inj, Option.some_inj, ← String.toList_inj, String.toList_singleton]
      rw [hsingleton]
      split
      · next c hc =>
          rw [hc, List.cons.injEq, and_iff_left rfl, ← Notation.Form.ofSymbol?_eq_some_iff]
          cases Sign.ofSymbol? c <;> simp
      · next hne => exact ⟨nofun, fun h => absurd h (hne _)⟩
  · next hne => exact ⟨nofun, fun h => absurd h (hne _)⟩

/-- There is one thing only that can be wrong with a sign. -/
theorem eq_notSign_of_sign_eq_error {v : Value} {e : Issue} (h : sign v = .error e) :
    e = .notSign := by
  unfold sign at h
  grind

end Field

namespace Throw

/-! ## The fields of a throw -/

/-- The fields that a throw is built from: one for each of its numbers, and one
for the sign of its modifier. -/
inductive Slot where
  | number (p : Part)
  | sign

namespace Slot

/-- The fields in the order of the record. -/
def all : List Slot := [number .count, number .sides, number .modifier, sign]

def name : Slot → String
  | number p => p.fieldName
  | sign => "modifier_sign"

/-- Whether a throw can do without the field. -/
def isOptional : Slot → Bool
  | number .modifier | sign => true
  | number _ => false

/-! ## What a field holds -/

variable (fs : Fields)

/-- Nothing is given for the field. -/
def Empty (s : Slot) : Prop := fs.lookup s.name = none ∨ fs.lookup s.name = some .null

/-- The field of a part is given a value that converts to a number which the part
admits. -/
def HoldsNumber (p : Part) (n : Nat) : Prop :=
  p.Admits n ∧ ∃ v, fs.lookup (number p).name = some v ∧ Field.integer v = .ok (n : Int)

/-- The field of the sign is given a sign. -/
def HoldsSign (g : Sign) : Prop :=
  ∃ v, fs.lookup sign.name = some v ∧ v.heldText? = some (some (String.singleton g.symbol))

/-- The field is given what a throw can be built from. -/
def Held : Slot → Prop
  | number p => ∃ n, HoldsNumber fs p n
  | sign => ∃ g, HoldsSign fs g

/-- The field is right by itself. -/
def Sound (s : Slot) : Prop := s.isOptional = true ∧ s.Empty fs ∨ s.Held fs

/-- What is wrong with a value in the field. -/
def faultOf? : Slot → Value → Option Issue
  | number p, v =>
    match Field.integer v with
    | .error e => some e
    | .ok n =>
      if n < p.lowest then some (.tooSmall p.lowest)
      else if (p.highest : Int) < n then some (.tooLarge p.highest)
      else none
  | sign, v =>
    if v.heldText? = some (some "+") ∨ v.heldText? = some (some "-") then none else some .notSign

/-- What is wrong with the field. -/
def fault? (s : Slot) : Option Issue :=
  match fs.lookup s.name with
  | none => if s.isOptional then none else some .missing
  | some .null => if s.isOptional then none else s.faultOf? .null
  | some v => s.faultOf? v

/-- What a report says of the field. -/
def complaint? (s : Slot) : Option Complaint := (s.fault? fs).map (⟨.field s.name, ·⟩)

variable {fs}

theorem mem_all (s : Slot) : s ∈ all := by
  cases s with
  | number p => cases p <;> simp [all]
  | sign => simp [all]

theorem not_empty_of_holdsNumber {p : Part} {n : Nat} (h : HoldsNumber fs p n) :
    ¬(number p).Empty fs := by
  obtain ⟨-, v, hv, hn⟩ := h
  rintro (hnone | hnull)
  · simp [hnone] at hv
  · rw [hnull] at hv
    cases hv
    contradiction

theorem not_empty_of_holdsSign {g : Sign} (h : HoldsSign fs g) : ¬sign.Empty fs := by
  obtain ⟨v, hv, hg⟩ := h
  rintro (hnone | hnull)
  · simp [hnone] at hv
  · rw [hnull] at hv
    cases hv
    contradiction

/-! ## Checking one field -/

theorem objection?_part (p : Part) (v : Value) :
    Field.objection? (Field.part p) v = (number p).faultOf? v := by
  cases hv : Field.integer v with
  | error e => simp only [Field.objection?, Field.part, faultOf?, hv]
  | ok n =>
      simp only [Field.objection?, Field.part, faultOf?, hv]
      have hordered : p.lowest ≤ p.highest := by cases p <;> decide
      by_cases hlow : n < p.lowest
      · have hhigh : ¬(p.highest : Int) < n := by omega
        have hadmits : ¬(p.Admits n.toNat ∧ 0 ≤ n) := fun h => by
          have hle := h.1.1
          have hnonneg := h.2
          omega
        rw [if_neg hhigh, dif_neg hadmits, if_pos hlow]
      · by_cases hhigh : (p.highest : Int) < n
        · rw [if_pos hhigh, if_neg hlow, if_pos hhigh]
        · have hadmits : p.Admits n.toNat ∧ 0 ≤ n := by
            refine ⟨⟨?_, ?_⟩, ?_⟩ <;> omega
          rw [if_neg hhigh, dif_pos hadmits, if_neg hlow, if_neg hhigh]

theorem objection?_sign (v : Value) : Field.objection? Field.sign v = sign.faultOf? v := by
  have hsign : (∃ g, Field.sign v = .ok g) ↔
      v.heldText? = some (some "+") ∨ v.heldText? = some (some "-") := by
    simp only [Field.sign_eq_ok_iff]
    constructor
    · rintro ⟨_ | _, h⟩
      · exact .inl h
      · exact .inr h
    · rintro (h | h)
      · exact ⟨.plus, h⟩
      · exact ⟨.minus, h⟩
  by_cases hv : ∃ g, Field.sign v = .ok g
  · rw [Field.objection?_eq_none_iff.mpr hv, faultOf?, if_pos (hsign.mp hv)]
  · rw [faultOf?, if_neg (mt hsign.mpr hv), Field.objection?]
    cases h : Field.sign v with
    | ok g => exact absurd ⟨g, h⟩ hv
    | error e => rw [Field.eq_notSign_of_sign_eq_error h]

/-- The field of a part that is needed. -/
theorem complaints_required {s : Slot} (hs : s.isOptional = false) {α : Type}
    {accept : Value → Except Issue α} (h : ∀ v, Field.objection? accept v = s.faultOf? v) :
    (Field.required fs s.name accept).complaints = (s.complaint? fs).toList := by
  rw [Field.complaints_required, complaint?, ← Option.toList_map]
  congr 2
  unfold fault?
  cases fs.lookup s.name with
  | none => simp [hs]
  | some v => cases v <;> simp [h, hs]

/-- A field that may be left empty. -/
theorem complaints_withDefault {s : Slot} (hs : s.isOptional = true) {α : Type}
    {accept : Value → Except Issue α} (h : ∀ v, Field.objection? accept v = s.faultOf? v) :
    (Field.withDefault fs s.name none (Field.optional accept)).complaints =
      (s.complaint? fs).toList := by
  rw [Field.complaints_withDefault, complaint?, ← Option.toList_map]
  congr 2
  unfold fault?
  cases fs.lookup s.name with
  | none => simp [hs]
  | some v =>
      by_cases hnil : v = .null
      · subst hnil
        simp [hs, Field.objection?, Field.optional]
      · rw [Option.bind_some, Field.objection?_optional accept hnil, h]
        cases v <;> first | contradiction | rfl

theorem exists_faultOf?_eq_none_iff {s : Slot} :
    (∃ v, fs.lookup s.name = some v ∧ s.faultOf? v = none) ↔ s.Held fs := by
  cases s with
  | number p =>
      have hfault : ∀ v, (number p).faultOf? v = none ↔
          ∃ n, p.Admits n ∧ Field.integer v = .ok (n : Int) := by
        intro v
        simp only [← objection?_part, Field.objection?_eq_none_iff, Field.part_eq_ok_iff,
          Subtype.exists, exists_prop]
      simp only [hfault, Held, HoldsNumber]
      grind
  | sign =>
      have hfault : ∀ v, sign.faultOf? v = none ↔
          ∃ g : Sign, v.heldText? = some (some (String.singleton g.symbol)) := by
        intro v
        simp only [← objection?_sign, Field.objection?_eq_none_iff, Field.sign_eq_ok_iff]
      simp only [hfault, Held, HoldsSign]
      grind

/-- A field is sound exactly when nothing is wrong with it. -/
theorem fault?_eq_none_iff (s : Slot) : s.fault? fs = none ↔ s.Sound fs := by
  rw [Sound, ← exists_faultOf?_eq_none_iff, Empty, fault?]
  cases fs.lookup s.name with
  | none => simp
  | some v =>
      by_cases hnil : v = .null
      · subst hnil
        have hnull : s.faultOf? .null ≠ none := by
          cases s <;> simp [faultOf?, Field.integer, Value.heldText?]
        simp [hnull]
      · cases v <;> first | contradiction | simp

end Slot

/-! ## Building a throw -/

variable {fs : Fields} {t : Throw}

open Slot

/-- The fields hold the numbers of the throw, and its sign where it has one. -/
structure DescribedBy (t : Throw) (fs : Fields) : Prop where
  count : HoldsNumber fs .count t.count
  sides : HoldsNumber fs .sides t.sides
  modifier : match t.modifier with
    | none => (number .modifier).Empty fs ∧ sign.Empty fs
    | some m => HoldsNumber fs .modifier m.value ∧ HoldsSign fs m.sign

theorem assembleThrow_eq_valid_iff {count : { n : Nat // Part.count.Admits n }}
    {sides : { n : Nat // Part.sides.Admits n }}
    {value : Option { n : Nat // Part.modifier.Admits n }} {sign : Option Sign} :
    Record.assembleThrow count sides value sign = .valid t ↔
      t.count = count.1 ∧ t.sides = sides.1 ∧
        t.modifier.map Modifier.value = value.map Subtype.val ∧
        t.modifier.map Modifier.sign = sign := by
  obtain ⟨tcount, tsides, modifier, _, _⟩ := t
  obtain ⟨count, _⟩ := count
  obtain ⟨sides, _⟩ := sides
  rcases value with _ | ⟨value, _⟩ <;> rcases sign with _ | sign <;>
    rcases modifier with _ | ⟨_, _, _⟩ <;> simp [Record.assembleThrow, Checked.complain] <;> grind

/-- The numbers and the sign of a throw are what its fields are checked to be. -/
theorem ofFields_eq_valid_iff_assembled : Record.ofFields fs = .valid t ↔
    ∃ count sides value sign,
      Field.required fs "count" (Field.part .count) = .valid count ∧
      Field.required fs "sides" (Field.part .sides) = .valid sides ∧
      Field.withDefault fs "modifier_value" none (Field.optional (Field.part .modifier)) =
        .valid value ∧
      Field.withDefault fs "modifier_sign" none (Field.optional Field.sign) = .valid sign ∧
      Record.assembleThrow count sides value sign = .valid t := by
  constructor
  · intro h
    obtain ⟨_, hthrow, ht⟩ := Checked.flatten_eq_valid_iff.mp h
    obtain ⟨_, sign, hfirst₃, hsign, rfl⟩ := Checked.seq_eq_valid_iff.mp hthrow
    obtain ⟨_, value, hfirst₂, hvalue, rfl⟩ := Checked.seq_eq_valid_iff.mp hfirst₃
    obtain ⟨_, sides, hfirst, hsides, rfl⟩ := Checked.seq_eq_valid_iff.mp hfirst₂
    obtain ⟨count, hcount, rfl⟩ := Checked.map_eq_valid_iff.mp hfirst
    exact ⟨count, sides, value, sign, hcount, hsides, hvalue, hsign, ht⟩
  · rintro ⟨count, sides, value, sign, hcount, hsides, hvalue, hsign, ht⟩
    simp only [Record.ofFields, hcount, hsides, hvalue, hsign]
    exact ht

/-- Fields make a throw exactly when they describe it. -/
theorem ofFields_eq_valid_iff : Record.ofFields fs = .valid t ↔ t.DescribedBy fs := by
  have hpart : ∀ p (n : { n : Nat // Part.Admits p n }),
      (∃ v, fs.lookup p.fieldName = some v ∧ Field.part p v = .ok n) ↔ HoldsNumber fs p n.1 :=
    fun p n => by
      simp only [Field.part_eq_ok_iff, HoldsNumber, n.2, true_and]
      rfl
  have hsign : ∀ g, (∃ v, fs.lookup "modifier_sign" = some v ∧ Field.sign v = .ok g) ↔
      HoldsSign fs g := fun g => by
    simp only [Field.sign_eq_ok_iff]
    rfl
  have hnull : ∀ n, Field.part .modifier .null ≠ .ok n := fun _ => nofun
  have hnull' : ∀ g, Field.sign .null ≠ .ok g := fun _ => nofun
  simp only [ofFields_eq_valid_iff_assembled, Field.required_eq_valid_iff,
    assembleThrow_eq_valid_iff, Field.withDefault_optional_eq_valid_iff hnull,
    Field.withDefault_optional_eq_valid_iff hnull']
  constructor
  · rintro ⟨count, sides, value, sign, hcount, hsides, hvalue, hg, hthrow⟩
    obtain ⟨htcount, htsides, htvalue, htsign⟩ := hthrow
    refine ⟨htcount ▸ (hpart .count count).mp hcount, htsides ▸ (hpart .sides sides).mp hsides, ?_⟩
    rcases hm : t.modifier with _ | m <;> rw [hm] at htvalue htsign
    · cases Option.map_eq_none_iff.mp htvalue.symm
      cases htsign
      exact ⟨hvalue, hg⟩
    · obtain ⟨n, rfl, hn⟩ := Option.map_eq_some_iff.mp htvalue.symm
      cases htsign
      exact ⟨hn ▸ (hpart .modifier n).mp hvalue, (hsign m.sign).mp hg⟩
  · rintro ⟨hcount, hsides, hmodifier⟩
    refine ⟨⟨t.count, t.count_admitted⟩, ⟨t.sides, t.sides_admitted⟩,
      t.modifier.map fun m => ⟨m.value, m.admitted⟩, t.modifier.map Modifier.sign,
      (hpart .count _).mpr hcount, (hpart .sides _).mpr hsides, ?_, ?_, rfl, rfl, ?_, rfl⟩
    · rcases hm : t.modifier with _ | m <;> rw [hm] at hmodifier
      · exact hmodifier.1
      · exact (hpart .modifier _).mpr hmodifier.1
    · rcases hm : t.modifier with _ | m <;> rw [hm] at hmodifier
      · exact hmodifier.2
      · exact (hsign m.sign).mpr hmodifier.2
    · rw [Option.map_map]
      rfl

/-- Some throw is described when every field is sound and the value of a modifier
comes with its sign. -/
theorem exists_describedBy_iff : (∃ t : Throw, t.DescribedBy fs) ↔
    (∀ s : Slot, s.Sound fs) ∧ ((number .modifier).Empty fs ↔ sign.Empty fs) := by
  constructor
  · rintro ⟨t, hcount, hsides, hmodifier⟩
    rcases hm : t.modifier with _ | m <;> rw [hm] at hmodifier
    · obtain ⟨hvalue, hsign⟩ := hmodifier
      refine ⟨fun s => ?_, iff_of_true hvalue hsign⟩
      match s with
      | number .count => exact .inr ⟨_, hcount⟩
      | number .sides => exact .inr ⟨_, hsides⟩
      | number .modifier => exact .inl ⟨rfl, hvalue⟩
      | sign => exact .inl ⟨rfl, hsign⟩
    · obtain ⟨hvalue, hsign⟩ := hmodifier
      refine ⟨fun s => ?_,
        iff_of_false (not_empty_of_holdsNumber hvalue) (not_empty_of_holdsSign hsign)⟩
      match s with
      | number .count => exact .inr ⟨_, hcount⟩
      | number .sides => exact .inr ⟨_, hsides⟩
      | number .modifier => exact .inr ⟨_, hvalue⟩
      | sign => exact .inr ⟨_, hsign⟩
  · rintro ⟨hsound, hpaired⟩
    obtain ⟨count, hcount⟩ : Slot.Held fs (number .count) :=
      (hsound _).resolve_left (by simp [isOptional])
    obtain ⟨sides, hsides⟩ : Slot.Held fs (number .sides) :=
      (hsound _).resolve_left (by simp [isOptional])
    by_cases hempty : (number .modifier).Empty fs
    · exact ⟨⟨count, sides, none, hcount.1, hsides.1⟩, hcount, hsides, hempty, hpaired.mp hempty⟩
    · obtain ⟨value, hvalue⟩ : Slot.Held fs (number .modifier) :=
        (hsound _).resolve_left fun h => hempty h.2
      obtain ⟨g, hg⟩ : Slot.Held fs sign :=
        (hsound _).resolve_left fun h => hempty (hpaired.mpr h.2)
      exact ⟨⟨count, sides, some ⟨g, value, hvalue.1⟩, hcount.1, hsides.1⟩, hcount, hsides,
        hvalue, hg⟩

/-! ## Complaints -/

theorem exists_valid_of_sound {α : Type} {x : Checked α} {s : Slot}
    (hx : x.complaints = (s.complaint? fs).toList) (h : s.Sound fs) : ∃ a, x = .valid a := by
  rw [Checked.exists_eq_valid_iff, hx, complaint?, (fault?_eq_none_iff s).mpr h]
  rfl

section Checks

variable (fs)

theorem complaints_count : (Field.required fs "count" (Field.part .count)).complaints =
    ((number .count).complaint? fs).toList :=
  complaints_required (s := number .count) rfl (objection?_part .count)

theorem complaints_sides : (Field.required fs "sides" (Field.part .sides)).complaints =
    ((number .sides).complaint? fs).toList :=
  complaints_required (s := number .sides) rfl (objection?_part .sides)

theorem complaints_value :
    (Field.withDefault fs "modifier_value" none
      (Field.optional (Field.part .modifier))).complaints =
        ((number .modifier).complaint? fs).toList :=
  complaints_withDefault (s := number .modifier) rfl (objection?_part .modifier)

theorem complaints_sign :
    (Field.withDefault fs "modifier_sign" none (Field.optional Field.sign)).complaints =
      (sign.complaint? fs).toList :=
  complaints_withDefault (s := sign) rfl objection?_sign

/-- Before the fields are put together, each has been complained of for what is
wrong with it. -/
theorem exists_checks :
    ∃ x : Checked (Checked Throw), Record.ofFields fs = x.flatten ∧
      x.complaints = Slot.all.filterMap (complaint? fs) := by
  refine ⟨_, rfl, ?_⟩
  rw [Checked.complaints_seq, Checked.complaints_seq, Checked.complaints_seq,
    Checked.complaints_map, complaints_count, complaints_sides, complaints_value, complaints_sign,
    List.filterMap_eq_flatMap_toList]
  simp [Slot.all]

end Checks

/-- Where a field is wrong, the complaints are about the fields that are. -/
theorem complaints_of_not_sound (h : ¬∀ s : Slot, s.Sound fs) :
    (Record.ofFields (α := Throw) fs).complaints = Slot.all.filterMap (complaint? fs) := by
  obtain ⟨x, hx, hcomplaints⟩ := exists_checks fs
  obtain ⟨s, hs⟩ := not_forall.mp h
  have hne : x.complaints ≠ [] := by
    rw [hcomplaints]
    intro hnil
    have hnone := List.filterMap_eq_nil_iff.mp hnil s (mem_all s)
    exact hs ((fault?_eq_none_iff s).mp (Option.map_eq_none_iff.mp hnone))
  rw [hx, Checked.complaints_flatten_of_ne_nil hne, hcomplaints]

theorem assembleThrow_of_unpaired {count : { n : Nat // Part.count.Admits n }}
    {sides : { n : Nat // Part.sides.Admits n }}
    {value : Option { n : Nat // Part.modifier.Admits n }} {sign : Option Sign}
    (h : ∀ t, Record.assembleThrow count sides value sign ≠ .valid t) :
    Record.assembleThrow count sides value sign = .complain .record .unpairedModifier := by
  rcases value with _ | value <;> rcases sign with _ | sign
  · exact absurd rfl (h _)
  · rfl
  · rfl
  · exact absurd rfl (h _)

/-- Where none is, but there is a value without a sign or a sign without a value,
that is the complaint. -/
theorem complaints_of_unpaired (h : ∀ s : Slot, s.Sound fs)
    (hunpaired : ¬((number .modifier).Empty fs ↔ sign.Empty fs)) :
    (Record.ofFields (α := Throw) fs).complaints = [⟨.record, .unpairedModifier⟩] := by
  obtain ⟨count, hcount⟩ := exists_valid_of_sound (complaints_count fs) (h _)
  obtain ⟨sides, hsides⟩ := exists_valid_of_sound (complaints_sides fs) (h _)
  obtain ⟨value, hvalue⟩ := exists_valid_of_sound (complaints_value fs) (h _)
  obtain ⟨g, hsign⟩ := exists_valid_of_sound (complaints_sign fs) (h _)
  have hnone : ∀ t, Record.assembleThrow count sides value g ≠ .valid t := fun t ht => by
    have hvalid := ofFields_eq_valid_iff_assembled.mpr
      ⟨count, sides, value, g, hcount, hsides, hvalue, hsign, ht⟩
    exact hunpaired (exists_describedBy_iff.mp ⟨t, ofFields_eq_valid_iff.mp hvalid⟩).2
  have hthrow : Record.ofFields (α := Throw) fs = Record.assembleThrow count sides value g := by
    simp only [Record.ofFields, hcount, hsides, hvalue, hsign]
    rfl
  rw [hthrow, assembleThrow_of_unpaired hnone]
  rfl

/-- Nothing is complained of but the fields and a value or sign that stands alone;
the latter only where no field is. -/
theorem mem_complaints {c : Complaint}
    (hc : c ∈ (Record.ofFields (α := Throw) fs).complaints) :
    (∃ s ∈ Slot.all, c.place = .field s.name) ∨
      c.place = .record ∧ (∀ s : Slot, s.Sound fs) ∧
        ¬((number .modifier).Empty fs ↔ sign.Empty fs) := by
  by_cases hsound : ∀ s : Slot, s.Sound fs
  · by_cases hpaired : (number .modifier).Empty fs ↔ sign.Empty fs
    · obtain ⟨t, ht⟩ := exists_describedBy_iff.mpr ⟨hsound, hpaired⟩
      rw [ofFields_eq_valid_iff.mpr ht] at hc
      exact absurd hc List.not_mem_nil
    · rw [complaints_of_unpaired hsound hpaired, List.mem_singleton] at hc
      exact .inr ⟨congrArg Complaint.place hc, hsound, hpaired⟩
  · rw [complaints_of_not_sound hsound, List.mem_filterMap] at hc
    obtain ⟨s, hs, hc⟩ := hc
    obtain ⟨e, -, rfl⟩ := Option.map_eq_some_iff.mp hc
    exact .inl ⟨s, hs, rfl⟩

/-- A sign and a value are compared exactly where no field is wrong by itself. -/
theorem unpaired_mem_complaints_iff :
    ⟨.record, .unpairedModifier⟩ ∈ (Record.ofFields (α := Throw) fs).complaints ↔
      (∀ s : Slot, s.Sound fs) ∧ ¬((number .modifier).Empty fs ↔ sign.Empty fs) := by
  constructor
  · intro hc
    rcases mem_complaints hc with ⟨s, -, hplace⟩ | ⟨-, h⟩
    · contradiction
    · exact h
  · rintro ⟨hsound, hunpaired⟩
    rw [complaints_of_unpaired hsound hunpaired]
    exact List.mem_singleton_self _

/-- The complaints about a throw are each a line of their report. -/
theorem splitOn_report (hne : (Record.ofFields (α := Throw) fs).complaints ≠ []) :
    (Complaint.report (Record.ofFields (α := Throw) fs).complaints).toList.splitOn '\n' =
      (Record.ofFields (α := Throw) fs).complaints.map (·.line.toList) := by
  refine Complaint.splitOn_report hne fun c hc => ?_
  rcases mem_complaints hc with ⟨s, hs, hplace⟩ | ⟨hplace, -⟩
  · have hnames : ∀ s ∈ Slot.all, '\n' ∉ s.name.toList := by
      intro s hs
      simp only [Slot.all, List.mem_cons, List.not_mem_nil, or_false] at hs
      rcases hs with rfl | rfl | rfl | rfl <;> exact newline_not_mem_literal (by decide)
    rw [hplace]
    exact hnames s hs
  · rw [hplace]
    decide

/-! ## The modifier -/

/-- The modifier of a throw is its value, negated exactly for a minus sign. -/
theorem offset_of_modifier {m : Modifier} (hm : t.modifier = some m) :
    t.offset = if m.sign = .minus then -(m.value : Int) else m.value := by
  rw [offset, hm, Option.elim_some, Modifier.signed]
  cases m.sign <;> simp [Sign.factor]

theorem offset_eq_zero_iff : t.offset = 0 ↔ ∀ m ∈ t.modifier, m.value = 0 := by
  cases hm : t.modifier with
  | none => simp [offset, hm]
  | some m =>
      rw [offset_of_modifier hm]
      split <;> simp

/-- A throw that fields describe has a modifier exactly when they have a sign. -/
theorem isSome_modifier_iff (h : t.DescribedBy fs) : t.modifier.isSome ↔ ¬sign.Empty fs := by
  have hmodifier := h.modifier
  cases hm : t.modifier with
  | none =>
      rw [hm] at hmodifier
      simp [hmodifier.2]
  | some m =>
      rw [hm] at hmodifier
      simp [not_empty_of_holdsSign hmodifier.2]

/-! ## Exactness -/

/-- **Throws are built exactly from what describes them.**

1. Fields make a throw exactly when each of them is sound and there is a value
   for the modifier just where there is a sign.
2. The throw has the numbers that the fields convert to and the sign that they
   name.  Its modifier is the value, negated for a minus sign, and lies between
   -100 and 100; it is zero when there is none or its value is zero.
3. A field has a fault exactly when it is not sound.  If one is not, the
   complaints are the faults of the fields in order, and nothing else is
   complained of.
4. That the value and the sign do not go together is complained of exactly when
   no field has a fault, and then it is the only complaint.
5. A report has a line for each complaint. -/
theorem ofFields_exact (fs : Fields) :
    ((∃ t : Throw, Record.ofFields fs = .valid t) ↔
      (∀ s : Slot, s.Sound fs) ∧ ((number .modifier).Empty fs ↔ sign.Empty fs)) ∧
    (∀ t : Throw, Record.ofFields fs = .valid t →
      t.DescribedBy fs ∧ (t.modifier.isSome ↔ ¬sign.Empty fs) ∧
      (∀ m ∈ t.modifier, t.offset = if m.sign = .minus then -(m.value : Int) else m.value) ∧
      (-100 ≤ t.offset ∧ t.offset ≤ 100) ∧ (t.offset = 0 ↔ ∀ m ∈ t.modifier, m.value = 0)) ∧
    (∀ s : Slot, s.fault? fs = none ↔ s.Sound fs) ∧
    let complaints := (Record.ofFields (α := Throw) fs).complaints
    ((¬∀ s : Slot, s.Sound fs) → complaints = Slot.all.filterMap (complaint? fs)) ∧
    (⟨.record, .unpairedModifier⟩ ∈ complaints ↔
      (∀ s : Slot, s.Sound fs) ∧ ¬((number .modifier).Empty fs ↔ sign.Empty fs)) ∧
    (⟨.record, .unpairedModifier⟩ ∈ complaints → complaints = [⟨.record, .unpairedModifier⟩]) ∧
    (complaints ≠ [] →
      (Complaint.report complaints).toList.splitOn '\n' = complaints.map (·.line.toList)) := by
  refine ⟨?_, fun t ht => ?_, fault?_eq_none_iff, complaints_of_not_sound,
    unpaired_mem_complaints_iff, fun hc => ?_, splitOn_report⟩
  · simp only [ofFields_eq_valid_iff]
    exact exists_describedBy_iff
  · have hdescribed := ofFields_eq_valid_iff.mp ht
    exact ⟨hdescribed, isSome_modifier_iff hdescribed, fun m hm => offset_of_modifier hm,
      offset_bounds t, offset_eq_zero_iff⟩
  · obtain ⟨hsound, hunpaired⟩ := unpaired_mem_complaints_iff.mp hc
    exact complaints_of_unpaired hsound hunpaired

/-- A throw from four kinds of values; fields each wrong in its own way; and a
sign that stands alone. -/
theorem ofFields_exact_of_mixed_values :
    let described : Fields := [("modifier_sign", .bytes [45]), ("modifier_value", .text " +007.0 "),
      ("sides", .float (.finite false 6 0)), ("count", .bool true)]
    let faulty : Fields := [("count", .int 0), ("modifier_value", .float .nan),
      ("modifier_sign", .text "x")]
    let unpaired : Fields := [("count", .int 2), ("sides", .int 6), ("modifier_sign", .text "+")]
    let t : Throw := ⟨1, 6, some ⟨.minus, 7, by decide⟩, by decide, by decide⟩
    (Record.ofFields described = .valid t ∧ t.DescribedBy described ∧ t.offset = -7) ∧
    (Record.ofFields (α := Throw) faulty).complaints =
      [⟨.field "count", .tooSmall 1⟩, ⟨.field "sides", .missing⟩,
        ⟨.field "modifier_value", .notFinite⟩, ⟨.field "modifier_sign", .notSign⟩] ∧
    (Record.ofFields (α := Throw) unpaired).complaints = [⟨.record, .unpairedModifier⟩] := by
  intro described faulty unpaired t
  have hvalid : Record.ofFields described = .valid t := rfl
  obtain ⟨-, hbuilt, -⟩ := ofFields_exact described
  obtain ⟨hdescribed, -, hoffset, -⟩ := hbuilt t hvalid
  obtain ⟨-, -, hfault, hfaults, -⟩ := ofFields_exact faulty
  obtain ⟨-, -, -, -, -, halone, -⟩ := ofFields_exact unpaired
  refine ⟨⟨hvalid, hdescribed, hoffset _ rfl⟩, ?_, halone (List.mem_singleton_self _)⟩
  have hcount : ¬(number .count).Sound faulty := fun h => by
    have hnone := (hfault _).mpr h
    contradiction
  exact hfaults fun h => hcount (h _)

end Throw

end Tabletop
