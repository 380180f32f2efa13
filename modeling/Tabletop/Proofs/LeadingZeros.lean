import Mathlib.Data.List.Induction
import Tabletop.Proofs.Agreement
import Tabletop.Proofs.Identification

/-!
# Tabletop.Proofs.LeadingZeros

Zeros in front of the numbers of a notation.

1. They change no number (`Decimal.value_zeros_append`), and a run of digits is
   nothing but zeros in front of a numeral
   (`Decimal.exists_zeros_append_ofNat`).
2. They do count as digits, though, and a run of more than `Decimal.limit`
   digits is out of bounds whatever it stands for.  So a refusal that names a
   part as out of bounds is right about its number unless the run is that long
   and is a numeral within bounds behind zeros
   (`Form.admits_iff_of_not_inBounds`).
3. With zeros in front of its numbers a notation asks for the same throw
   (`Form.asksFor_pad`).  One that is accepted stays so until one of its runs
   becomes that long, and is refused for the first that does
   (`Reading.ofText_pad_of_long`).
-/

namespace Tabletop

open Text

/-! ## Runs of digits -/

namespace Text.Decimal

/-- Zeros in front do not matter. -/
theorem value_zeros_append (zeros : Nat) (ds : List Char) :
    value (List.replicate zeros '0' ++ ds) = value ds := by
  induction zeros with
  | zero => rfl
  | succ zeros ih => rw [List.replicate_succ, List.cons_append, value_zero_cons, ih]

theorem isRun_zeros_append (zeros : Nat) {ds : List Char} (h : IsRun ds) :
    IsRun (List.replicate zeros '0' ++ ds) := by
  intro c hc
  rcases List.mem_append.mp hc with hc | hc
  · rw [List.eq_of_mem_replicate hc]
    rfl
  · exact h c hc

/-- A digit is the numeral of a number below ten. -/
theorem exists_ofNat_of_isDigit {c : Char} (h : c.isDigit = true) :
    ∃ d < 10, [c] = ofNat d ∧ c.toNat - '0'.toNat = d := by
  have hbounds := toNat_bounds_of_isDigit h
  obtain ⟨d, hd⟩ := Nat.exists_eq_add_of_le hbounds.1
  have hten : d < 10 := by omega
  have hc : c = d.digitChar := by
    have hchar : c = Char.ofNat (48 + d) := by rw [← hd, Char.ofNat_toNat]
    rw [hchar]
    clear hd hchar
    decide +revert
  refine ⟨d, hten, ?_, ?_⟩
  · rw [ofNat, Nat.toDigits_of_lt_base hten, hc]
  · rw [hd]
    exact Nat.add_sub_cancel_left 48 d

/-- A run of digits is its numeral behind zeros. -/
theorem exists_zeros_append_ofNat {ds : List Char} (h : IsRun ds) (hne : ds ≠ []) :
    ∃ zeros, ds = List.replicate zeros '0' ++ ofNat (value ds) := by
  induction ds using List.reverseRecOn with
  | nil => contradiction
  | append_singleton ds c ih =>
      obtain ⟨d, hd, hc, hdigit⟩ := exists_ofNat_of_isDigit (h c (by simp))
      have hvalue : value (ds ++ [c]) = 10 * value ds + d := by
        rw [value, Nat.ofDigitChars_append, Nat.ofDigitChars_cons, Nat.ofDigitChars_nil, hdigit]
        rfl
      by_cases hds : ds = []
      · refine ⟨0, ?_⟩
        rw [hvalue, hds, hc]
        simp [value, Nat.ofDigitChars]
      · obtain ⟨zeros, hzeros⟩ := ih (fun e he => h e (List.mem_append_left _ he)) hds
        rw [hvalue]
        by_cases hzero : value ds = 0
        · -- Only zeros so far: the last of them is no part of the numeral.
          refine ⟨zeros + 1, ?_⟩
          rw [hzero] at hzeros ⊢
          rw [hzeros, hc, List.replicate_succ', Nat.mul_zero, Nat.zero_add]
          rfl
        · refine ⟨zeros, ?_⟩
          have hnext : ofNat (value ds) ++ ofNat d = ofNat (10 * value ds + d) :=
            Nat.toDigits_append_toDigits (by decide) (Nat.pos_of_ne_zero hzero) hd
          rw [← hnext, ← List.append_assoc, ← hzeros, hc]

end Text.Decimal

/-! ## Notations with zeros put in front -/

namespace Notation.Form

/-- A run of digits with so many zeros in front; none are put where there are no
digits. -/
def padRun (zeros : Nat) (ds : List Char) : List Char :=
  if ds = [] then [] else List.replicate zeros '0' ++ ds

/-- The pieces of a notation with zeros in front of its numbers, as many for each
part as said. -/
def pad (zeros : Part → Nat) (f : Form) : Form where
  lead := f.lead.map fun l => { l with count := padRun (zeros .count) l.count }
  sides := padRun (zeros .sides) f.sides
  tail := f.tail.map fun (g, ds) => (g, padRun (zeros .modifier) ds)

theorem value_padRun (zeros : Nat) (ds : List Char) :
    Decimal.value (padRun zeros ds) = Decimal.value ds := by
  unfold padRun
  split
  · next h => rw [h]
  · exact Decimal.value_zeros_append zeros ds

theorem isRun_padRun (zeros : Nat) {ds : List Char} (h : Decimal.IsRun ds) :
    Decimal.IsRun (padRun zeros ds) := by
  unfold padRun
  split
  · exact fun c hc => absurd hc List.not_mem_nil
  · exact Decimal.isRun_zeros_append zeros h

theorem padRun_ne_nil (zeros : Nat) {ds : List Char} (h : ds ≠ []) : padRun zeros ds ≠ [] := by
  rw [padRun, if_neg h]
  exact List.append_ne_nil_of_right_ne_nil _ h

theorem wellFormed_pad (zeros : Part → Nat) {f : Form} (hf : f.WellFormed) :
    (f.pad zeros).WellFormed where
  count_run := by
    intro l hl
    obtain ⟨l, hlead, rfl⟩ := Option.map_eq_some_iff.mp hl
    exact isRun_padRun _ (hf.count_run l hlead)
  sides_run := isRun_padRun _ hf.sides_run
  sides_ne_nil := padRun_ne_nil _ hf.sides_ne_nil
  tail_run := by
    intro t ht
    obtain ⟨t, htail, rfl⟩ := Option.map_eq_some_iff.mp ht
    exact isRun_padRun _ (hf.tail_run t htail)
  tail_ne_nil := by
    intro t ht
    obtain ⟨t, htail, rfl⟩ := Option.map_eq_some_iff.mp ht
    exact padRun_ne_nil _ (hf.tail_ne_nil t htail)

/-- A count that is missing or empty stays so. -/
theorem value_countDigits_pad (zeros : Part → Nat) (f : Form) :
    Decimal.value (f.pad zeros).countDigits = Decimal.value f.countDigits := by
  obtain ⟨lead, sides, tail⟩ := f
  match lead with
  | none => rfl
  | some ⟨[], capital⟩ => rfl
  | some ⟨c :: ds, capital⟩ =>
      have hne := padRun_ne_nil (zeros .count) (List.cons_ne_nil c ds)
      have hcount : (pad zeros ⟨some ⟨c :: ds, capital⟩, sides, tail⟩).countDigits =
          padRun (zeros .count) (c :: ds) := by
        cases h : padRun (zeros .count) (c :: ds) with
        | nil => contradiction
        | cons d es => simp only [pad, Option.map_some, h, countDigits]
      rw [hcount, value_padRun]
      rfl

/-- The parts keep their numbers. -/
theorem values_pad (zeros : Part → Nat) (f : Form) :
    (f.pad zeros).parts.map (fun p => (p.1, Decimal.value p.2)) =
      f.parts.map fun p => (p.1, Decimal.value p.2) := by
  have hsides := value_padRun (zeros .sides) f.sides
  simp only [parts, List.map_cons, value_countDigits_pad]
  cases htail : f.tail with
  | none => simp [pad, htail, hsides]
  | some t => simp [pad, htail, hsides, value_padRun]

theorem asksFor_pad {zeros : Part → Nat} {f : Form} {t : Throw} (h : f.AsksFor t) :
    (f.pad zeros).AsksFor t where
  count := by rw [h.count, value_countDigits_pad]
  sides := by rw [h.sides, pad, value_padRun]
  modifier := by
    rw [h.modifier, pad, Option.map_map]
    simp only [Function.comp_def, value_padRun]

/-- Where a part is out of bounds, its number is admitted exactly when there are
too many zeros in front of it. -/
theorem admits_iff_of_not_inBounds {part : Part} {ds : List Char} (hrun : Decimal.IsRun ds)
    (hne : ds ≠ []) (h : ¬InBounds (part, ds)) :
    part.Admits (Decimal.value ds) ↔
      Decimal.limit < ds.length ∧
        ∃ zeros n, part.Admits n ∧ ds = List.replicate zeros '0' ++ Decimal.ofNat n := by
  constructor
  · intro hadmits
    obtain ⟨zeros, hzeros⟩ := Decimal.exists_zeros_append_ofNat hrun hne
    have hlong : ¬ds.length ≤ Decimal.limit := fun hlength => h ⟨hlength, hadmits⟩
    exact ⟨Nat.lt_of_not_le hlong, zeros, _, hadmits, hzeros⟩
  · rintro ⟨-, zeros, n, hn, rfl⟩
    rw [Decimal.value_zeros_append, Decimal.value_ofNat]
    exact hn

/-- The parts of a notation within bounds stay admitted. -/
theorem admits_of_mem_parts_pad (zeros : Part → Nat) {f : Form}
    (h : ∀ p ∈ f.parts, InBounds p) :
    ∀ p ∈ (f.pad zeros).parts, p.1.Admits (Decimal.value p.2) := by
  intro p hp
  have hmem := List.mem_map_of_mem (f := fun p => (p.1, Decimal.value p.2)) hp
  rw [values_pad, List.mem_map] at hmem
  obtain ⟨q, hq, heq⟩ := hmem
  obtain ⟨hpart, hvalue⟩ := Prod.mk.inj heq
  rw [← hpart, ← hvalue]
  exact (h q hq).2

/-- A notation has each of its parts once. -/
theorem eq_of_mem_parts {f : Form} {part : Part} {ds es : List Char} (h : (part, ds) ∈ f.parts)
    (h' : (part, es) ∈ f.parts) : ds = es := by
  obtain ⟨lead, sides, tail⟩ := f
  cases tail with
  | none => cases part <;> simp_all [parts]
  | some t => cases part <;> simp_all [parts]

end Notation.Form

/-! ## Reading them -/

/-- Parts are called by different names. -/
theorem Part.label_injective : Function.Injective Part.label := by
  intro p q h
  cases p <;> cases q <;> simp [label] at h ⊢

namespace Reading

open Notation

/-- A part that a refusal is about is out of bounds. -/
theorem not_inBounds_of_refused {s : String} {f : Form} {part : Part} {ds : List Char}
    (hf : f.WellFormed) (hs : f.spell = s.toList) (hmem : (part, ds) ∈ f.parts)
    (h : ofText s =
      .refused ⟨s, String.ofList ((Rejection.outOfBounds part ds).message s.toList)⟩) :
    ¬Form.InBounds (part, ds) := by
  cases hfind : f.parts.find? (fun p => ¬Form.InBounds p) with
  | none =>
      obtain ⟨t, ht, -⟩ := ofText_of_inBounds hf hs (by simpa using hfind)
      rw [ht] at h
      contradiction
  | some p =>
      -- Messages about different parts begin differently, so it is the first one.
      rw [ofText_of_outOfBounds hf hs hfind] at h
      have hmessage := String.ofList_injective (congrArg Refusal.message (Reading.refused.inj h))
      have hpart : p.1 = part :=
        Part.label_injective (Rejection.opening_eq_of_message_eq hmessage)
      have hp : (part, p.2) ∈ f.parts := hpart ▸ List.mem_of_find?_eq_some hfind
      rw [Form.eq_of_mem_parts hmem hp]
      have hbad := List.find?_some hfind
      rw [← hpart]
      simpa using hbad

/-- With zeros in front of its numbers, an accepted notation is refused for the
first part whose run of digits becomes too long, if there is one. -/
theorem ofText_pad_of_long {f : Form} (hf : f.WellFormed) (hall : ∀ p ∈ f.parts, Form.InBounds p)
    {zeros : Part → Nat} {s : String} (hs : (f.pad zeros).spell = s.toList) {part : Part}
    {ds : List Char}
    (hlong : (f.pad zeros).parts.find? (fun p => Decimal.limit < p.2.length) = some (part, ds)) :
    part.Admits (Decimal.value ds) ∧ ofText s =
      .refused ⟨s, String.ofList ((Rejection.outOfBounds part ds).message s.toList)⟩ := by
  have hadmits := Form.admits_of_mem_parts_pad zeros hall
  refine ⟨hadmits _ (List.mem_of_find?_eq_some hlong),
    ofText_of_outOfBounds (Form.wellFormed_pad zeros hf) hs ?_⟩
  rw [← List.head?_filter] at hlong ⊢
  rw [← hlong, List.filter_congr fun p hp => ?_]
  simp [Form.InBounds, hadmits p hp]

/-- **Numbers that are refused are out of bounds, or behind too many zeros.**

1. Where a notation is refused for one of its parts, the number of that part is
   out of bounds, unless it is written in more than `Decimal.limit` digits and
   all of them but a numeral within bounds are zeros in front.
2. An accepted notation, with any number of zeros in front of each of its
   numbers, asks for the same throw exactly when no run of digits becomes longer
   than that.  Otherwise it is refused for the first run that does, although its
   number is within bounds. -/
theorem refused_number_out_or_padded {s : String} {f : Form} (hf : f.WellFormed)
    (hs : f.spell = s.toList) :
    (∀ part ds, (part, ds) ∈ f.parts →
      ofText s =
        .refused ⟨s, String.ofList ((Rejection.outOfBounds part ds).message s.toList)⟩ →
      (part.Admits (Decimal.value ds) ↔ Decimal.limit < ds.length ∧
        ∃ zeros n, part.Admits n ∧ ds = List.replicate zeros '0' ++ Decimal.ofNat n)) ∧
    ∀ t, ofText s = .accepted t → ∀ (zeros : Part → Nat) (u : String),
      (f.pad zeros).spell = u.toList →
        (ofText u = .accepted t ↔ ∀ p ∈ (f.pad zeros).parts, p.2.length ≤ Decimal.limit) ∧
        ∀ part ds,
          (f.pad zeros).parts.find? (fun p => Decimal.limit < p.2.length) = some (part, ds) →
          part.Admits (Decimal.value ds) ∧ ofText u =
            .refused ⟨u, String.ofList ((Rejection.outOfBounds part ds).message u.toList)⟩ := by
  refine ⟨fun part ds hmem hrefused => ?_, fun t ht zeros u hu => ?_⟩
  · obtain ⟨hrun, hne⟩ := Form.isRun_of_mem_parts hf _ hmem
    exact Form.admits_iff_of_not_inBounds hrun hne (not_inBounds_of_refused hf hs hmem hrefused)
  · obtain ⟨hall, hasks⟩ := (ofText_eq_accepted_iff hf hs t).mp ht
    have hadmits := Form.admits_of_mem_parts_pad zeros hall
    refine ⟨?_, fun part ds hlong => ofText_pad_of_long hf hall hu hlong⟩
    rw [ofText_eq_accepted_iff (Form.wellFormed_pad zeros hf) hu,
      and_iff_left (Form.asksFor_pad hasks)]
    exact forall₂_congr fun p hp => and_iff_left (hadmits p hp)

/-- No dice at all are refused for their number.  A modifier and sides of one
digit keep their numbers behind a few zeros; behind too many, the sides are
refused. -/
theorem refused_number_out_or_padded_of_six :
    let zero : Form := ⟨some ⟨['0'], false⟩, ['6'], none⟩
    let six : Form := ⟨some ⟨[], false⟩, ['6'], some (.plus, ['7'])⟩
    let t : Throw := ⟨1, 6, some ⟨.plus, 7, by decide⟩, by decide, by decide⟩
    let u := String.ofList (six.pad fun _ => Decimal.limit).spell
    (zero.WellFormed ∧ zero.spell = "0d6".toList ∧ (.count, ['0']) ∈ zero.parts ∧
      ofText "0d6" = .refused
        ⟨"0d6", String.ofList ((Rejection.outOfBounds .count ['0']).message "0d6".toList)⟩ ∧
      (Part.count.Admits (Decimal.value ['0']) ↔ Decimal.limit < 1 ∧
        ∃ zeros n, Part.count.Admits n ∧ ['0'] = List.replicate zeros '0' ++ Decimal.ofNat n)) ∧
    six.WellFormed ∧ six.spell = "d6+7".toList ∧ ofText "d6+7" = .accepted t ∧
    ofText "d006+007" = .accepted t ∧
    ∃ ds, Part.sides.Admits (Decimal.value ds) ∧ ofText u =
      .refused ⟨u, String.ofList ((Rejection.outOfBounds .sides ds).message u.toList)⟩ := by
  intro zero six t u
  have hzero : zero.WellFormed := ⟨by rintro _ ⟨⟩; decide, by decide, by decide, by rintro _ ⟨⟩,
    by rintro _ ⟨⟩⟩
  have hsix : six.WellFormed := ⟨by rintro _ ⟨⟩; decide, by decide, by decide,
    by rintro _ ⟨⟩; decide, by rintro _ ⟨⟩; decide⟩
  have hrefused : ofText "0d6" = .refused
      ⟨"0d6", String.ofList ((Rejection.outOfBounds .count ['0']).message "0d6".toList)⟩ :=
    ofText_of_outOfBounds hzero rfl (by decide)
  have haccepted : ofText "d6+7" = .accepted t := by decide
  obtain ⟨-, hpadded⟩ := refused_number_out_or_padded (s := "d6+7") hsix rfl
  refine ⟨⟨hzero, rfl, by decide, hrefused,
    (refused_number_out_or_padded (s := "0d6") hzero rfl).1 .count ['0'] (by decide) hrefused⟩,
    hsix, rfl, haccepted, ?_, ?_⟩
  · exact (hpadded t haccepted (fun _ => 2) "d006+007" rfl).1.mpr (by decide)
  · refine ⟨_, (hpadded t haccepted (fun _ => Decimal.limit) u String.toList_ofList.symm).2
      .sides (List.replicate Decimal.limit '0' ++ ['6']) ?_⟩
    have hlimit : Decimal.limit ≠ 0 := by decide
    simp [six, Form.pad, Form.padRun, Form.parts, Form.countDigits, hlimit]

/-- Six sides behind as many zeros as digits are converted: the refusal names
bounds that six lies within. -/
theorem six_refused_behind_zeros :
    let ds := List.replicate Decimal.limit '0' ++ ['6']
    let f : Form := ⟨none, ds, none⟩
    let s := String.ofList ds
    f.WellFormed ∧ f.spell = s.toList ∧ (.sides, ds) ∈ f.parts ∧
      ofText s = .refused
        ⟨s, String.ofList ((Rejection.outOfBounds .sides ds).message s.toList)⟩ ∧
      Decimal.value ds = 6 ∧ Part.sides.Admits 6 ∧
      ∃ t, ofText "6" = .accepted t ∧ ofText s ≠ .accepted t := by
  intro ds f s
  let six : Form := ⟨none, ['6'], none⟩
  have hsix : six.WellFormed := ⟨by rintro _ ⟨⟩, by decide, by decide, by rintro _ ⟨⟩,
    by rintro _ ⟨⟩⟩
  have hpad : six.pad (fun _ => Decimal.limit) = f := by
    simp [six, f, ds, Form.pad, Form.padRun]
  have hf : f.WellFormed := hpad ▸ Form.wellFormed_pad _ hsix
  have hs : f.spell = s.toList := by simp [f, s, Form.spell]
  have hlong : f.parts.find? (fun p => Decimal.limit < p.2.length) = some (.sides, ds) := by
    have hlimit : Decimal.limit ≠ 0 := by decide
    simp [f, ds, Form.parts, Form.countDigits, hlimit]
  rw [← hpad] at hs hlong
  have hrefused := (ofText_pad_of_long hsix (by decide) hs hlong).2
  rw [hpad] at hs
  refine ⟨hf, hs, by simp [f, Form.parts], hrefused, Decimal.value_zeros_append _ _, by decide,
    ⟨1, 6, none, by decide, by decide⟩, by decide, ?_⟩
  rw [hrefused]
  simp

end Reading

end Tabletop
