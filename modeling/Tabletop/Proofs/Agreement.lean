import Tabletop.Record
import Tabletop.Proofs.Complaints
import Tabletop.Proofs.DigitRuns
import Tabletop.Proofs.Grammar

/-!
# Tabletop.Proofs.Agreement

Notations and records put the same bounds on a throw.

The parts of a notation may be given to a record as they are written, one run
of digits for each field (`Notation.Form.fields`).

* The record takes a run for the number that it stands for, leading zeros and
  all (`Text.LooseInteger.read_run`), so it builds the throw that the notation
  asks for (`Notation.Form.ofFields_written`).
* It complains of every part that is out of bounds, in the order in which a
  notation is checked (`Notation.Form.complaints_written`), so its report opens
  with the field of the part that a refusal of the notation names
  (`Notation.Form.splitOn_report_complaints`).
-/

namespace Tabletop

open Text

/-! ## Parts as fields -/

/-- A further check is not made where there are complaints. -/
theorem Checked.complaints_flatten_of_ne_nil {α : Type} {x : Checked (Checked α)}
    (h : x.complaints ≠ []) : x.flatten.complaints = x.complaints := by
  cases x with
  | valid y => contradiction
  | invalid first rest => rfl

namespace Part

/-- What is wrong with a number that the part does not admit. -/
def issue (p : Part) (n : Nat) : Issue :=
  if p.highest < n then .tooLarge p.highest else .tooSmall p.lowest

end Part

/-- What a record says of a number that does not meet its demand. -/
def Notation.Demand.complaint (d : Demand) : Complaint :=
  ⟨.field d.field, if d.highest < Decimal.value d.digits then .tooLarge d.highest
    else .tooSmall d.lowest⟩

namespace Field

/-- A part takes a run of digits for its number, and admits it or not. -/
theorem part_run (p : Part) {ds : List Char} (h : Decimal.IsRun ds) (hne : ds ≠ [])
    (hlength : ds.length ≤ Decimal.limit) :
    part p (.text (String.ofList ds)) =
      if hv : p.Admits (Decimal.value ds) then .ok ⟨Decimal.value ds, hv⟩
      else .error (p.issue (Decimal.value ds)) := by
  have hinteger : integer (.text (String.ofList ds)) = .ok (Decimal.value ds : Int) := by
    simp only [integer, Value.heldText?, integerOfText, String.toList_ofList,
      LooseInteger.read_run h hne hlength]
  simp only [part, hinteger, Int.toNat_natCast, Int.natCast_nonneg, and_true, Int.ofNat_lt,
    Part.issue]
  by_cases hlarge : p.highest < Decimal.value ds
  · have hv : ¬p.Admits (Decimal.value ds) := fun hv => Nat.not_lt.mpr hv.2 hlarge
    rw [if_pos hlarge, dif_neg hv, if_pos hlarge]
  · rw [if_neg hlarge, if_neg hlarge]

/-- A part takes a number that it admits. -/
theorem part_int (p : Part) {n : Nat} (hn : p.Admits n) : part p (.int n) = .ok ⟨n, hn⟩ := by
  have hsmall : ¬(p.highest : Int) < n := Int.not_lt.mpr (Int.ofNat_le.mpr hn.2)
  simp [part, integer, hsmall, hn]

/-- A field that may be left empty checks any other value as one that may not. -/
theorem check_optional {α : Type} (place : Place) (accept : Value → Except Issue α) {v : Value}
    (hv : v ≠ .null) : check place (optional accept) v = some <$> check place accept v := by
  simp only [check, optional_of_ne_null accept hv]
  cases accept v <;> rfl

theorem sign_symbol (g : Sign) : sign (.text (String.singleton g.symbol)) = .ok g := by
  cases g <;> decide

end Field

/-! ## Notations as fields -/

namespace Notation.Form

/-- The pieces of a notation as fields of a throw, where digits are given like
this. -/
def fields (give : List Char → Value) (f : Form) : Fields :=
  (f.demands.map fun d => (d.field, give d.digits)) ++
    f.tail.elim [] fun t => [("modifier_sign", .text (String.singleton t.1.symbol))]

/-- Digits given as they are written. -/
def written (ds : List Char) : Value := .text (String.ofList ds)

/-- Digits given as the number that they stand for. -/
def converted (ds : List Char) : Value := .int (Decimal.value ds)

theorem written_ne_null (ds : List Char) : written ds ≠ .null := by simp [written]

theorem converted_ne_null (ds : List Char) : converted ds ≠ .null := by simp [converted]

/-- Each part of a well-formed notation is written in digits. -/
theorem isRun_of_mem_parts {f : Form} (hf : f.WellFormed) :
    ∀ p ∈ f.parts, Decimal.IsRun p.2 ∧ p.2 ≠ [] := by
  obtain ⟨lead, sides, tail⟩ := f
  have hcount : Decimal.IsRun (countDigits ⟨lead, sides, tail⟩) ∧
      countDigits ⟨lead, sides, tail⟩ ≠ [] := by
    unfold countDigits
    split
    · next c ds capital hlead => exact ⟨hf.count_run _ hlead, List.cons_ne_nil c ds⟩
    · exact ⟨by decide, by decide⟩
  cases tail with
  | none => simp [parts, hcount, hf.sides_run, hf.sides_ne_nil]
  | some t =>
      have htail := hf.tail_run t rfl
      have htail' := hf.tail_ne_nil t rfl
      simp_all [parts, hf.sides_run, hf.sides_ne_nil]

section Give

variable {give : List Char → Value} (hgive : ∀ ds, give ds ≠ .null)

include hgive

/-- The fields of a notation are checked part by part and put together. -/
theorem ofFields_fields (f : Form) :
    Record.ofFields (f.fields give) = Checked.flatten (Record.assembleThrow
      <$> Field.check (.field "count") (Field.part .count) (give f.countDigits)
      <*> Field.check (.field "sides") (Field.part .sides) (give f.sides)
      <*> f.tail.elim (.valid none) (fun t => some <$>
        Field.check (.field "modifier_value") (Field.part .modifier) (give t.2))
      <*> .valid (f.tail.map Prod.fst)) := by
  rw [fields, demands_eq]
  obtain ⟨lead, sides, tail⟩ := f
  cases tail with
  | none => rfl
  | some t =>
      have hsign : Field.check (.field "modifier_sign") (Field.optional Field.sign)
          (.text (String.singleton t.1.symbol)) = .valid (some t.1) := by
        rw [Field.check_optional _ _ (by simp), Field.check, Field.sign_symbol]
        rfl
      rw [Option.map_some, ← hsign, Option.elim_some, Option.elim_some,
        ← Field.check_optional _ _ (hgive t.2)]
      rfl

/-- A throw that has the numbers of a notation is what its fields make, if each
number is taken for what it is. -/
theorem ofFields_of_asksFor {f : Form}
    (htaken : ∀ p ∈ f.parts, ∀ hv : p.1.Admits (Decimal.value p.2),
      Field.part p.1 (give p.2) = .ok ⟨Decimal.value p.2, hv⟩)
    {t : Throw} (h : f.AsksFor t) : Record.ofFields (f.fields give) = .valid t := by
  have hcheck : ∀ p ∈ f.parts, ∀ hv : p.1.Admits (Decimal.value p.2), ∀ place,
      Field.check place (Field.part p.1) (give p.2) = .valid ⟨Decimal.value p.2, hv⟩ := by
    intro p hp hv place
    simp only [Field.check, htaken p hp hv]
  obtain ⟨count, sides, modifier, hcount, hsides⟩ := t
  obtain ⟨rfl, rfl, hmodifier⟩ := h
  rw [ofFields_fields hgive, hcheck (.count, f.countDigits) (by simp [parts]) hcount,
    hcheck (.sides, f.sides) (by simp [parts]) hsides]
  cases htail : f.tail with
  | none =>
      cases modifier with
      | none => rfl
      | some m => simp [htail] at hmodifier
  | some t =>
      cases modifier with
      | none => simp [htail] at hmodifier
      | some m =>
          obtain ⟨sign, value, hvalue⟩ := m
          rw [htail] at hmodifier
          cases hmodifier
          rw [Option.elim_some, hcheck (.modifier, t.2) (by simp [parts, htail]) hvalue]
          rfl

end Give

/-- The numbers of a notation, given as numbers, make the throw that it asks for. -/
theorem ofFields_converted {f : Form} {t : Throw} (h : f.AsksFor t) :
    Record.ofFields (f.fields converted) = .valid t :=
  ofFields_of_asksFor converted_ne_null (fun p _ hv => Field.part_int p.1 hv) h

section Written

variable {f : Form} (hf : f.WellFormed) (hlength : ∀ p ∈ f.parts, p.2.length ≤ Decimal.limit)

include hf hlength

/-- So do its digits, given as they are written. -/
theorem ofFields_written {t : Throw} (h : f.AsksFor t) :
    Record.ofFields (f.fields written) = .valid t := by
  refine ofFields_of_asksFor written_ne_null (fun p hp hv => ?_) h
  obtain ⟨hrun, hne⟩ := isRun_of_mem_parts hf p hp
  rw [written, Field.part_run p.1 hrun hne (hlength p hp), dif_pos hv]

omit hf hlength in
/-- A part that is out of bounds is all that its field is complained of for. -/
theorem complaints_check_written {p : Part × List Char} (hrun : Decimal.IsRun p.2)
    (hne : p.2 ≠ []) (hshort : p.2.length ≤ Decimal.limit) :
    (Field.check (.field p.1.fieldName) (Field.part p.1) (written p.2)).complaints =
      ([p].filter fun p => ¬InBounds p).map (Demand.complaint ∘ Demand.ofPart) := by
  have hpart := Field.part_run p.1 hrun hne hshort
  have hbounds : InBounds p ↔ p.1.Admits (Decimal.value p.2) := and_iff_right hshort
  by_cases hv : p.1.Admits (Decimal.value p.2)
  · rw [dif_pos hv] at hpart
    simp [Field.check, written, hpart, hbounds, hv, Checked.complaints]
  · rw [dif_neg hv] at hpart
    simp [Field.check, written, hpart, hbounds, hv, Checked.complain, Checked.complaints]
    rfl

/-- Before the fields are put together, each has been complained of if its part
is out of bounds. -/
theorem exists_checks_written :
    ∃ x : Checked (Checked Throw), Record.ofFields (f.fields written) = x.flatten ∧
      x.complaints =
        (f.parts.filter fun p => ¬InBounds p).map (Demand.complaint ∘ Demand.ofPart) := by
  have hcheck : ∀ p ∈ f.parts, _ := fun p hp =>
    complaints_check_written (isRun_of_mem_parts hf p hp).1 (isRun_of_mem_parts hf p hp).2
      (hlength p hp)
  have hparts : f.parts = [(.count, f.countDigits)] ++ [(.sides, f.sides)] ++
      f.tail.elim [] fun t => [(.modifier, t.2)] := rfl
  refine ⟨_, ofFields_fields written_ne_null f, ?_⟩
  rw [Checked.complaints_seq, Checked.complaints_seq, Checked.complaints_seq,
    Checked.complaints_map, hparts, List.filter_append, List.filter_append, List.map_append,
    List.map_append, ← hcheck (.count, f.countDigits) (by simp [parts]),
    ← hcheck (.sides, f.sides) (by simp [parts])]
  cases htail : f.tail with
  | none => exact List.append_nil _
  | some t =>
      rw [Option.elim_some, Option.elim_some, Checked.complaints_map,
        ← hcheck (.modifier, t.2) (by simp [parts, htail])]
      exact List.append_nil _

/-- The fields of a notation are complained of where a demand is not met, in the
order of the demands. -/
theorem complaints_written :
    (Record.ofFields (α := Throw) (f.fields written)).complaints =
      (f.demands.filter fun d => ¬d.IsMet).map Demand.complaint := by
  rw [filter_demands, List.map_map]
  -- Putting the fields together adds nothing: a value comes with its sign.
  by_cases hall : ∀ p ∈ f.parts, InBounds p
  · obtain ⟨t, -, hasks⟩ := toThrow_eq_ok hall
    have hnone : f.parts.filter (fun p => ¬InBounds p) = [] := by simpa using hall
    rw [ofFields_written hf hlength hasks, hnone]
    rfl
  · have hsome : f.parts.filter (fun p => ¬InBounds p) ≠ [] := by simpa using hall
    obtain ⟨x, hx, hcomplaints⟩ := exists_checks_written hf hlength
    have hne : x.complaints ≠ [] := by
      rw [hcomplaints]
      exact fun hnil => hsome (List.map_eq_nil_iff.mp hnil)
    rw [hx, Checked.complaints_flatten_of_ne_nil hne, hcomplaints]

end Written

/-- The report of demands that are not met opens with the field of the first. -/
theorem splitOn_report_complaints {f : Form} {d : Demand} {others : List Demand}
    (h : ∀ e ∈ d :: others, e ∈ f.demands) :
    (Complaint.report (d.complaint :: others.map Demand.complaint)).toList.splitOn '\n' =
      (d.field.toList ++ ": ".toList ++ d.complaint.issue.message.toList) ::
        others.map (·.complaint.line.toList) := by
  have hlabel : ∀ c ∈ (d :: others).map Demand.complaint, '\n' ∉ c.place.label.toList := by
    rintro c hc
    obtain ⟨e, he, rfl⟩ := List.mem_map.mp hc
    have hfield := names_of_mem_demands (h e he)
    simp only [List.mem_cons, Prod.mk.injEq, List.not_mem_nil, or_false] at hfield
    obtain ⟨-, he⟩ | ⟨-, he⟩ | ⟨-, he⟩ := hfield <;>
      simp only [Demand.complaint, Place.label, he] <;> decide
  rw [← List.map_cons, Complaint.splitOn_report (by simp) hlabel]
  simp [Complaint.line, Demand.complaint, Place.label]

end Notation.Form

/-! ## Readings and records -/

namespace Reading

open Notation

theorem signOfValue_symbol (g : Sign) :
    Sign.ofValue (.text (String.singleton g.symbol)) = .ok g := by
  cases g <;> rfl

/-- **Notations and records agree.**

1. Let no part of a notation be longer than what is converted, and give its
   parts to a record as they are written.  The notation is accepted exactly as
   the throw that the record builds.  If it is refused, the message opens with
   the name of the first part that is out of bounds; the record complains of
   that part first and of every other such part after it, so its report opens
   with the name of the field of that part.
2. A notation within bounds is accepted as the throw that a record builds of its
   numbers and its sign, which is one.
3. A refusal, of a notation or of another value, is what a record builds of its
   texts. -/
theorem ofText_agrees_with_record :
    (∀ (s : String) (f : Form), f.WellFormed → f.spell = s.toList →
      ((∀ d ∈ f.demands, d.digits.length ≤ 4300) →
        (∀ t, ofText s = .accepted t ↔ Record.ofFields (f.fields Form.written) = .valid t) ∧
        ∀ r, ofText s = .refused r → ∃ d others line lines,
          f.demands.filter (fun d => ¬d.IsMet) = d :: others ∧
          (d.name, d.field) ∈ [("Die count", "count"), ("Die sides", "sides"),
            ("Modifier", "modifier_value")] ∧
          r = ⟨s, String.ofList
            (d.name.toList ++ " must be between ".toList ++ Decimal.ofNat d.lowest ++
              " and ".toList ++ Decimal.ofNat d.highest ++ ", got ".toList ++
              abbreviate 12 d.digits ++ " in ".toList ++
              Quoted.ofText (abbreviate 40 s.toList))⟩ ∧
          Record.ofFields (α := Throw) (f.fields Form.written) =
            .invalid d.complaint (others.map Demand.complaint) ∧
          (Complaint.report (d.complaint :: others.map Demand.complaint)).toList.splitOn '\n' =
            (d.field.toList ++ ": ".toList ++ line) :: lines) ∧
      ((∀ d ∈ f.demands, d.IsMet) →
        (∃ t, ofText s = .accepted t ∧ Record.ofFields (f.fields Form.converted) = .valid t) ∧
        ∀ t ∈ f.tail, Sign.ofValue (.text (String.singleton t.1.symbol)) = .ok t.1)) ∧
    ∀ (v : Value) (r : Refusal), ofValue v = .ok (.refused r) →
      Record.ofFields [("notation", .text r.spelling), ("message", .text r.message)] =
        .valid r := by
  refine ⟨fun s f hf hs => ⟨fun hlength => ?_, fun hall => ?_⟩, fun _ _ _ => rfl⟩
  · rw [Form.demands_eq, List.forall_mem_map] at hlength
    by_cases hall : ∀ d ∈ f.demands, d.IsMet
    · obtain ⟨t, ht, hasks⟩ := ofText_of_inBounds hf hs ((Form.forall_isMet_iff f).mp hall)
      rw [ht, Form.ofFields_written hf hlength hasks]
      exact ⟨fun u => by simp, nofun⟩
    · obtain ⟨d, hfind, hrefused⟩ := ofText_of_unmet hf hs hall
      rw [← List.head?_filter, List.head?_eq_some_iff] at hfind
      obtain ⟨others, hothers⟩ := hfind
      have hcomplaints := Form.complaints_written hf hlength
      rw [hothers, List.map_cons] at hcomplaints
      rw [hrefused, Checked.eq_invalid_of_complaints hcomplaints]
      refine ⟨fun t => by simp, ?_⟩
      rintro r ⟨rfl⟩
      have hmem : ∀ e ∈ d :: others, e ∈ f.demands := fun e he =>
        (List.mem_filter.mp (hothers ▸ he)).1
      exact ⟨d, others, _, _, hothers, Form.names_of_mem_demands (hmem d List.mem_cons_self), rfl,
        rfl, Form.splitOn_report_complaints hmem⟩
  · obtain ⟨t, ht, hasks⟩ := ofText_of_inBounds hf hs ((Form.forall_isMet_iff f).mp hall)
    exact ⟨⟨t, ht, Form.ofFields_converted hasks⟩, fun t _ => signOfValue_symbol t.1⟩

/-- Zeros in front are taken off by both.  For each part there is a notation in
which it is the first to be out of bounds, and both name it before the modifier
where that is out of bounds too.  An integer is refused. -/
theorem ofText_agrees_with_record_of_zeros :
    let f : Form := ⟨some ⟨['0', '0', '7'], true⟩, ['0', '2', '0'], some (.minus, ['0', '5'])⟩
    let count : Form := ⟨some ⟨['0', '0'], false⟩, ['6'], some (.plus, ['1', '0', '1'])⟩
    let sides : Form := ⟨some ⟨[], false⟩, ['1'], some (.minus, ['1', '0', '1'])⟩
    let modifier : Form := ⟨none, ['6'], some (.plus, ['1', '0', '1'])⟩
    let r : Refusal := ⟨"20", "Dice notation must be a string, got int"⟩
    (∃ t, ofText "007D020-05" = .accepted t ∧
      Record.ofFields (f.fields Form.written) = .valid t ∧
      Record.ofFields (f.fields Form.converted) = .valid t) ∧
    (ofText "00d6+101" = .refused
        ⟨"00d6+101", "Die count must be between 1 and 100, got 00 in '00d6+101'"⟩ ∧
      Record.ofFields (α := Throw) (count.fields Form.written) =
        .invalid ⟨.field "count", .tooSmall 1⟩ [⟨.field "modifier_value", .tooLarge 100⟩]) ∧
    (ofText "d1-101" = .refused
        ⟨"d1-101", "Die sides must be between 2 and 1000, got 1 in 'd1-101'"⟩ ∧
      Record.ofFields (α := Throw) (sides.fields Form.written) =
        .invalid ⟨.field "sides", .tooSmall 2⟩ [⟨.field "modifier_value", .tooLarge 100⟩]) ∧
    (ofText "6+101" = .refused
        ⟨"6+101", "Modifier must be between 0 and 100, got 101 in '6+101'"⟩ ∧
      Record.ofFields (α := Throw) (modifier.fields Form.written) =
        .invalid ⟨.field "modifier_value", .tooLarge 100⟩ []) ∧
    Record.ofFields [("notation", .text r.spelling), ("message", .text r.message)] = .valid r := by
  intro f count sides modifier r
  obtain ⟨hread, hrefusal⟩ := ofText_agrees_with_record
  -- The record's answer, from the demands that are not met.
  have hrecord : ∀ (s : String) (g : Form) (u : Refusal) (first : Demand) (rest : List Demand),
      Form.split? s.toList = some g → (∀ d ∈ g.demands, d.digits.length ≤ 4300) →
      g.demands.filter (fun d => ¬d.IsMet) = first :: rest → ofText s = .refused u →
      Record.ofFields (α := Throw) (g.fields Form.written) =
        .invalid first.complaint (rest.map Demand.complaint) := by
    intro s g u first rest hsplit hlength hunmet hrefused
    obtain ⟨hg, hs⟩ := (Form.split?_eq_some_iff s.toList g).mp hsplit
    obtain ⟨d, others, _, _, hothers, -, -, hinvalid, -⟩ :=
      ((hread s g hg hs).1 hlength).2 u hrefused
    cases hothers.symm.trans hunmet
    exact hinvalid
  have hcount : ofText "00d6+101" = .refused
      ⟨"00d6+101", "Die count must be between 1 and 100, got 00 in '00d6+101'"⟩ := by
    decide +kernel
  have hsides : ofText "d1-101" = .refused
      ⟨"d1-101", "Die sides must be between 2 and 1000, got 1 in 'd1-101'"⟩ := by decide +kernel
  have hmodifier : ofText "6+101" = .refused
      ⟨"6+101", "Modifier must be between 0 and 100, got 101 in '6+101'"⟩ := by decide +kernel
  obtain ⟨hf, hs⟩ := (Form.split?_eq_some_iff "007D020-05".toList f).mp (by decide)
  obtain ⟨hwritten, hconverted⟩ := hread "007D020-05" f hf hs
  obtain ⟨⟨t, ht, hnumbers⟩, -⟩ := hconverted (by decide)
  exact ⟨⟨t, ht, ((hwritten (by decide)).1 t).mp ht, hnumbers⟩,
    ⟨hcount, hrecord _ count _ _ _ (by decide) (by decide) rfl hcount⟩,
    ⟨hsides, hrecord _ sides _ _ _ (by decide) (by decide) rfl hsides⟩,
    ⟨hmodifier, hrecord _ modifier _ _ _ (by decide) (by decide) rfl hmodifier⟩,
    hrefusal (.int 20) r rfl⟩

end Reading

end Tabletop
