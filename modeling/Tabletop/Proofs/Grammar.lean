import Tabletop.Reading

/-!
# Tabletop.Proofs.Grammar

The grammar of notations, and what reading one answers.

A `Form` that is `WellFormed` is a way to split a notation into its pieces,
and `Form.spell` puts the pieces together again.  The splitter of the
reader works from left to right and never looks back; here it is compared
with all the ways there are to split a text.

* `split?_eq_some_iff`: the splitter finds a form exactly when it is well
  formed and spells the text, so no text has two forms.
* `Form.toThrow_eq_ok`, `Form.toThrow_eq_error`: the numbers of a form are
  within bounds and make a throw, or the first of them that is not is named.
* `Form.demands` are the numbers again, with the names, the fields, the bounds
  and the digits that a reader of notations has to know them by.
* `Reading.ofText_follows_grammar`: all put together, for every text.
-/

namespace Tabletop

/-- The field that holds a part of a throw. -/
def Part.fieldName : Part → String
  | count => "count"
  | sides => "sides"
  | modifier => "modifier_value"

namespace Notation

open Text

/-! ## Runs of digits at the front of a text -/

/-- The text does not begin with a digit. -/
def NoDigitFirst (cs : List Char) : Prop := ∀ c ∈ cs.head?, c.isDigit = false

/-- A run is all that is taken from the front when no digit follows it. -/
theorem takeWhile_isDigit_append {ds rest : List Char} (hds : Decimal.IsRun ds)
    (hrest : NoDigitFirst rest) : (ds ++ rest).takeWhile Char.isDigit = ds := by
  rw [List.takeWhile_append_of_pos hds]
  cases rest with
  | nil => simp
  | cons c cs => simp [hrest c rfl]

/-- What is left after a run, when no digit follows it. -/
theorem dropWhile_isDigit_append {ds rest : List Char} (hds : Decimal.IsRun ds)
    (hrest : NoDigitFirst rest) : (ds ++ rest).dropWhile Char.isDigit = rest := by
  rw [List.dropWhile_append_of_pos hds]
  cases rest with
  | nil => rfl
  | cons c cs => simp [hrest c rfl]

/-- The digits at the front of a text are a run. -/
theorem isRun_takeWhile (cs : List Char) : Decimal.IsRun (cs.takeWhile Char.isDigit) := by
  intro c hc
  exact List.all_eq_true.mp (List.all_takeWhile (p := Char.isDigit) (l := cs)) c hc

theorem noDigitFirst_nil : NoDigitFirst [] := by
  intro c hc
  contradiction

theorem noDigitFirst_cons {c : Char} {cs : List Char} (hc : c.isDigit = false) :
    NoDigitFirst (c :: cs) := by
  intro d hd
  rw [← Option.some.inj hd]
  exact hc

theorem isDigit_separator (capital : Bool) : (separator capital).isDigit = false := by
  cases capital <;> rfl

theorem isDigit_symbol (g : Sign) : g.symbol.isDigit = false := by
  cases g <;> rfl

namespace Form

/-! ## The pieces as text -/

/-- The lead as it is written; nothing when it is missing. -/
def leadText (lead : Option Lead) : List Char :=
  lead.elim [] fun l => l.count ++ [separator l.capital]

/-- The tail as it is written; nothing when it is missing. -/
def tailText (tail : Option (Sign × List Char)) : List Char :=
  tail.elim [] fun (g, ds) => g.symbol :: ds

theorem spell_eq (f : Form) : f.spell = leadText f.lead ++ f.sides ++ tailText f.tail := rfl

theorem noDigitFirst_tailText (tail : Option (Sign × List Char)) :
    NoDigitFirst (tailText tail) := by
  cases tail with
  | none => exact noDigitFirst_nil
  | some t => exact noDigitFirst_cons (isDigit_symbol t.1)

/-! ## The lead -/

/-- A text with a lead in front splits there. -/
theorem splitLead_append {l : Lead} (hl : Decimal.IsRun l.count) (rest : List Char) :
    splitLead (leadText (some l) ++ rest) = (some l, rest) := by
  obtain ⟨count, capital⟩ := l
  have htext : leadText (some ⟨count, capital⟩) ++ rest = count ++ separator capital :: rest := by
    simp [leadText]
  have hstop : NoDigitFirst (separator capital :: rest) :=
    noDigitFirst_cons (isDigit_separator capital)
  rw [htext, splitLead, takeWhile_isDigit_append hl hstop, dropWhile_isDigit_append hl hstop]
  cases capital <;> rfl

/-- Digits with a tail or nothing after them have no lead. -/
theorem splitLead_of_no_lead {ds : List Char} (hds : Decimal.IsRun ds)
    (tail : Option (Sign × List Char)) :
    splitLead (ds ++ tailText tail) = (none, ds ++ tailText tail) := by
  rw [splitLead, dropWhile_isDigit_append hds (noDigitFirst_tailText tail)]
  match tail with
  | none => rfl
  | some (.plus, _) => rfl
  | some (.minus, _) => rfl

/-- Splitting off the lead loses nothing. -/
theorem leadText_append_of_splitLead {cs rest : List Char} {lead : Option Lead}
    (h : splitLead cs = (lead, rest)) :
    leadText lead ++ rest = cs ∧ ∀ l ∈ lead, Decimal.IsRun l.count := by
  have hcs := List.takeWhile_append_dropWhile (p := Char.isDigit) (l := cs)
  simp only [splitLead] at h
  split at h
  · next tail htail =>
      obtain ⟨rfl, rfl⟩ := Prod.mk.inj h
      rw [htail] at hcs
      exact ⟨by simpa [leadText, separator] using hcs, by simpa using isRun_takeWhile cs⟩
  · next tail htail =>
      obtain ⟨rfl, rfl⟩ := Prod.mk.inj h
      rw [htail] at hcs
      exact ⟨by simpa [leadText, separator] using hcs, by simpa using isRun_takeWhile cs⟩
  · obtain ⟨rfl, rfl⟩ := Prod.mk.inj h
    exact ⟨rfl, by simp⟩

/-! ## The tail -/

theorem ofSymbol?_eq_some_iff (c : Char) (g : Sign) : Sign.ofSymbol? c = some g ↔ c = g.symbol := by
  constructor
  · intro h
    unfold Sign.ofSymbol? at h
    split at h
    · next hc =>
        rw [← Option.some.inj h]
        exact hc
    · split at h
      · next hc =>
          rw [← Option.some.inj h]
          exact hc
      · contradiction
  · rintro rfl
    exact Sign.ofSymbol?_symbol g

/-- A tail is read from its own text and from no other. -/
theorem readTail?_eq_some_iff (cs : List Char) (tail : Option (Sign × List Char)) :
    readTail? cs = some tail ↔
      tailText tail = cs ∧ ∀ t ∈ tail, Decimal.IsRun t.2 ∧ t.2 ≠ [] := by
  cases cs with
  | nil => cases tail <;> simp [readTail?, tailText]
  | cons c ds =>
      cases tail with
      | none =>
          by_cases hds : ds ≠ [] ∧ Decimal.IsRun ds <;> simp [readTail?, tailText, hds]
      | some t =>
          obtain ⟨g, es⟩ := t
          have htext : tailText (some (g, es)) = c :: ds ↔ g.symbol = c ∧ es = ds := by
            simp [tailText]
          rw [htext]
          by_cases hds : ds ≠ [] ∧ Decimal.IsRun ds
          · simp only [readTail?, if_pos hds, Option.map_eq_some_iff, ofSymbol?_eq_some_iff,
              Option.mem_some_iff, forall_eq']
            grind
          · simp only [readTail?, if_neg hds, Option.mem_some_iff, forall_eq']
            grind

/-! ## Whole notations -/

/-- **The splitter knows the grammar**: it finds the pieces of a text exactly
when they are well formed and spell the text. -/
theorem split?_eq_some_iff (cs : List Char) (f : Form) :
    split? cs = some f ↔ f.WellFormed ∧ f.spell = cs := by
  constructor
  · intro h
    cases hsplit : splitLead cs with
    | mk lead rest =>
        obtain ⟨hlead, hrun⟩ := leadText_append_of_splitLead hsplit
        simp only [split?, hsplit] at h
        by_cases hsides : rest.takeWhile Char.isDigit = []
        · rw [if_pos hsides] at h
          contradiction
        · rw [if_neg hsides] at h
          obtain ⟨tail, htail, rfl⟩ := Option.map_eq_some_iff.mp h
          obtain ⟨hspelled, htail⟩ := (readTail?_eq_some_iff _ _).mp htail
          refine ⟨⟨hrun, isRun_takeWhile rest, hsides, fun t ht => (htail t ht).1,
            fun t ht => (htail t ht).2⟩, ?_⟩
          rw [spell_eq, List.append_assoc, hspelled, List.takeWhile_append_dropWhile, hlead]
  · rintro ⟨hf, rfl⟩
    obtain ⟨lead, sides, tail⟩ := f
    have hstop := noDigitFirst_tailText tail
    have hlead : splitLead (spell ⟨lead, sides, tail⟩) = (lead, sides ++ tailText tail) := by
      rw [spell_eq, List.append_assoc]
      cases lead with
      | none => exact splitLead_of_no_lead hf.sides_run tail
      | some l => exact splitLead_append (hf.count_run l rfl) _
    have htail : readTail? (tailText tail) = some tail :=
      (readTail?_eq_some_iff _ _).mpr ⟨rfl, fun t ht => ⟨hf.tail_run t ht, hf.tail_ne_nil t ht⟩⟩
    simp only [split?, hlead, takeWhile_isDigit_append hf.sides_run hstop,
      dropWhile_isDigit_append hf.sides_run hstop, htail, if_neg hf.sides_ne_nil]
    rfl

/-- A bare number is a number of sides. -/
example : split? ['2', '0'] = some ⟨none, ['2', '0'], none⟩ := by decide

/-- A text has the pieces of one well-formed notation at most. -/
theorem eq_of_spell_eq {f g : Form} (hf : f.WellFormed) (hg : g.WellFormed)
    (h : f.spell = g.spell) : f = g := by
  have hsplit := (split?_eq_some_iff g.spell f).mpr ⟨hf, h⟩
  rw [(split?_eq_some_iff g.spell g).mpr ⟨hg, rfl⟩] at hsplit
  exact (Option.some.inj hsplit).symm

/-- The splitter gives up exactly on texts that are not well formed. -/
theorem split?_eq_none_iff (cs : List Char) :
    split? cs = none ↔ ¬∃ f : Form, f.WellFormed ∧ f.spell = cs := by
  simp only [Option.eq_none_iff_forall_ne_some, ne_eq, split?_eq_some_iff, not_exists]

/-! ## Numbers within bounds -/

/-- The parts of a notation in the order in which they are checked, each with
its digits. -/
def parts (f : Form) : List (Part × List Char) :=
  (.count, f.countDigits) :: (.sides, f.sides) :: f.tail.elim [] fun t => [(.modifier, t.2)]

/-- The digits are few enough to be converted, and what they stand for is
admitted. -/
def InBounds (p : Part × List Char) : Prop :=
  p.2.length ≤ Decimal.limit ∧ p.1.Admits (Decimal.value p.2)

instance (p : Part × List Char) : Decidable (InBounds p) := inferInstanceAs (Decidable (_ ∧ _))

/-- The throw has the numbers that the pieces of a notation stand for. -/
structure AsksFor (f : Form) (t : Throw) : Prop where
  count : t.count = Decimal.value f.countDigits
  sides : t.sides = Decimal.value f.sides
  modifier : t.modifier.map (fun m => (m.sign, m.value)) =
    f.tail.map fun (g, ds) => (g, Decimal.value ds)

/-- A count that is missing or empty is one. -/
theorem value_countDigits (f : Form) :
    Decimal.value f.countDigits =
      f.lead.elim 1 fun l => if l.count = [] then 1 else Decimal.value l.count := by
  obtain ⟨_ | ⟨_ | ⟨c, ds⟩, capital⟩, sides, tail⟩ := f <;> rfl

theorem asksFor_iff {f : Form} {t : Throw} :
    f.AsksFor t ↔
      (t.count = f.lead.elim 1 fun l => if l.count = [] then 1 else Decimal.value l.count) ∧
      t.sides = Decimal.value f.sides ∧
      t.modifier.map (fun m => (m.sign, m.value)) =
        f.tail.map fun (g, ds) => (g, Decimal.value ds) := by
  rw [← value_countDigits]
  exact ⟨fun h => ⟨h.count, h.sides, h.modifier⟩, fun h => ⟨h.1, h.2.1, h.2.2⟩⟩

/-- The numbers of a notation settle the throw that it asks for. -/
theorem eq_of_asksFor {f : Form} {t u : Throw} (ht : f.AsksFor t) (hu : f.AsksFor u) : t = u := by
  obtain ⟨count, sides, modifier, hcount, hsides⟩ := t
  obtain ⟨count', sides', modifier', hcount', hsides'⟩ := u
  have hmodifier : modifier = modifier' := by
    refine Option.map_injective ?_ (ht.modifier.trans hu.modifier.symm)
    rintro ⟨g, n, hn⟩ ⟨g', n', hn'⟩ heq
    cases heq
    rfl
  cases ht.count.trans hu.count.symm
  cases ht.sides.trans hu.sides.symm
  cases hmodifier
  rfl

end Form

/-! ## The numbers of a form -/

theorem readPart_of_inBounds {part : Part} {ds : List Char} (h : Form.InBounds (part, ds)) :
    readPart part ds = .ok ⟨Decimal.value ds, h.2⟩ := by
  have hvalue : Decimal.value? ds = some (Decimal.value ds) := if_pos h.1
  simp only [readPart, hvalue, dif_pos h.2]

theorem readPart_of_not_inBounds {part : Part} {ds : List Char}
    (h : ¬Form.InBounds (part, ds)) : readPart part ds = .error (.outOfBounds part ds) := by
  by_cases hlen : ds.length ≤ Decimal.limit
  · have hvalue : Decimal.value? ds = some (Decimal.value ds) := if_pos hlen
    simp only [readPart, hvalue, dif_neg fun hv => h ⟨hlen, hv⟩]
  · have hvalue : Decimal.value? ds = none := if_neg hlen
    simp only [readPart, hvalue]

namespace Form

/-- A form whose numbers are within bounds makes the throw it asks for. -/
theorem toThrow_eq_ok {f : Form} (h : ∀ p ∈ f.parts, InBounds p) :
    ∃ t, f.toThrow = .ok t ∧ f.AsksFor t := by
  obtain ⟨lead, sides, tail⟩ := f
  have hcount : InBounds (.count, countDigits ⟨lead, sides, tail⟩) := h _ (by simp [parts])
  have hsides : InBounds (.sides, sides) := h _ (by simp [parts])
  cases tail with
  | none =>
      refine ⟨⟨_, _, none, hcount.2, hsides.2⟩, ?_, ⟨rfl, rfl, rfl⟩⟩
      simp only [toThrow, readPart_of_inBounds hcount, readPart_of_inBounds hsides]
      rfl
  | some t =>
      obtain ⟨g, ds⟩ := t
      have hmodifier : InBounds (.modifier, ds) := h _ (by simp [parts])
      refine ⟨⟨_, _, some ⟨g, _, hmodifier.2⟩, hcount.2, hsides.2⟩, ?_, ⟨rfl, rfl, rfl⟩⟩
      simp only [toThrow, readPart_of_inBounds hcount, readPart_of_inBounds hsides,
        readPart_of_inBounds hmodifier]
      rfl

/-- Otherwise the first of its numbers that is out of bounds is named. -/
theorem toThrow_eq_error {f : Form} {part : Part} {ds : List Char}
    (h : f.parts.find? (fun p => ¬InBounds p) = some (part, ds)) :
    f.toThrow = .error (.outOfBounds part ds) := by
  obtain ⟨lead, sides, tail⟩ := f
  by_cases hcount : InBounds (.count, countDigits ⟨lead, sides, tail⟩)
  · by_cases hsides : InBounds (.sides, sides)
    · cases tail with
      | none => simp [parts, hcount, hsides] at h
      | some t =>
          obtain ⟨g, es⟩ := t
          simp [parts, hcount, hsides] at h
          obtain ⟨hmodifier, rfl, rfl⟩ := h
          simp only [toThrow, readPart_of_inBounds hcount, readPart_of_inBounds hsides,
            readPart_of_not_inBounds hmodifier]
          rfl
    · simp [parts, hcount, hsides] at h
      obtain ⟨rfl, rfl⟩ := h
      simp only [toThrow, readPart_of_inBounds hcount, readPart_of_not_inBounds hsides]
      rfl
  · simp [parts, hcount] at h
    obtain ⟨rfl, rfl⟩ := h
    simp only [toThrow, readPart_of_not_inBounds hcount]
    rfl

end Form

/-! ## Demands -/

/-- A number that a notation has to have within bounds: what it is called, the
field of a record that it belongs in, its bounds, and the digits that it is
written in. -/
structure Demand where
  name : String
  field : String
  lowest : Nat
  highest : Nat
  digits : List Char

namespace Demand

/-- The digits are no more than are converted, and stand for a number within the
bounds. -/
def IsMet (d : Demand) : Prop :=
  d.digits.length ≤ 4300 ∧ d.lowest ≤ Decimal.value d.digits ∧
    Decimal.value d.digits ≤ d.highest

instance : DecidablePred IsMet := fun d =>
  inferInstanceAs (Decidable (d.digits.length ≤ 4300 ∧ d.lowest ≤ Decimal.value d.digits ∧
    Decimal.value d.digits ≤ d.highest))

/-- What is demanded of a part that is written in these digits. -/
def ofPart (p : Part × List Char) : Demand :=
  ⟨p.1.label, p.1.fieldName, p.1.lowest, p.1.highest, p.2⟩

theorem isMet_ofPart (p : Part × List Char) : (ofPart p).IsMet ↔ Form.InBounds p := Iff.rfl

/-- How a notation is refused that does not meet the demand. -/
def message (d : Demand) (spelling : List Char) : List Char :=
  d.name.toList ++ " must be between ".toList ++ Decimal.ofNat d.lowest ++ " and ".toList ++
    Decimal.ofNat d.highest ++ ", got ".toList ++ abbreviate 12 d.digits ++ " in ".toList ++
    Quoted.ofText (abbreviate 40 spelling)

end Demand

namespace Form

/-- What is demanded of a notation, in order.  A count that is missing or empty is
the digit one. -/
def demands (f : Form) : List Demand :=
  [⟨"Die count", "count", 1, 100,
      f.lead.elim ['1'] fun l => if l.count = [] then ['1'] else l.count⟩,
    ⟨"Die sides", "sides", 2, 1000, f.sides⟩] ++
      f.tail.elim [] fun t => [⟨"Modifier", "modifier_value", 0, 100, t.2⟩]

theorem demands_eq (f : Form) : f.demands = f.parts.map Demand.ofPart := by
  obtain ⟨_ | ⟨_ | ⟨c, ds⟩, capital⟩, sides, _ | t⟩ := f <;> rfl

theorem forall_isMet_iff (f : Form) :
    (∀ d ∈ f.demands, d.IsMet) ↔ ∀ p ∈ f.parts, InBounds p := by
  simp only [demands_eq, List.forall_mem_map, Demand.isMet_ofPart]

/-- The demands that are not met are about the parts out of bounds. -/
theorem filter_demands (f : Form) :
    f.demands.filter (fun d => ¬d.IsMet) =
      (f.parts.filter fun p => ¬InBounds p).map Demand.ofPart := by
  simp only [demands_eq, List.filter_map, Function.comp_def, Demand.isMet_ofPart]

theorem find?_demands (f : Form) :
    f.demands.find? (fun d => ¬d.IsMet) =
      (f.parts.find? fun p => ¬InBounds p).map Demand.ofPart := by
  rw [← List.head?_filter, filter_demands, List.head?_map, List.head?_filter]

/-- The name of a demand goes with its field. -/
theorem names_of_mem_demands {f : Form} {d : Demand} (h : d ∈ f.demands) :
    (d.name, d.field) ∈ [("Die count", "count"), ("Die sides", "sides"),
      ("Modifier", "modifier_value")] := by
  rw [demands_eq, List.mem_map] at h
  obtain ⟨⟨part, ds⟩, -, rfl⟩ := h
  cases part <;> simp [Demand.ofPart, Part.label, Part.fieldName]

end Form

theorem Rejection.message_malformed (spelling : List Char) :
    malformed.message spelling = "Invalid dice notation: ".toList ++ Quoted.ofText spelling := rfl

/-- The wording of a rejection for a number, piece by piece. -/
theorem Rejection.message_outOfBounds (part : Part) (digits spelling : List Char) :
    (outOfBounds part digits).message spelling =
      part.label.toList ++ " must be between ".toList ++ Decimal.ofNat part.lowest ++
        " and ".toList ++ Decimal.ofNat part.highest ++ ", got ".toList ++
        abbreviate shownDigits digits ++ " in ".toList ++
        Quoted.ofText (abbreviate shownNotation spelling) := rfl

end Notation

namespace Reading

open Text Notation

/-! ## Reading a text -/

/-- A text is refused under its own spelling. -/
theorem spelling_of_refused {s : String} {r : Refusal} (h : ofText s = refused r) :
    r.spelling = s := by
  unfold ofText at h
  split at h
  · contradiction
  · cases h
    rfl

theorem ofText_of_malformed {s : String}
    (h : ¬∃ f : Form, f.WellFormed ∧ f.spell = s.toList) :
    ofText s = refused ⟨s, String.ofList (Rejection.malformed.message s.toList)⟩ := by
  simp only [ofText, Notation.read, (Form.split?_eq_none_iff s.toList).mpr h]

theorem ofText_of_inBounds {s : String} {f : Form} (hf : f.WellFormed)
    (hs : f.spell = s.toList) (h : ∀ p ∈ f.parts, Form.InBounds p) :
    ∃ t, ofText s = accepted t ∧ f.AsksFor t := by
  obtain ⟨t, ht, hasks⟩ := Form.toThrow_eq_ok h
  refine ⟨t, ?_, hasks⟩
  simp only [ofText, Notation.read, (Form.split?_eq_some_iff s.toList f).mpr ⟨hf, hs⟩, ht]

theorem ofText_of_outOfBounds {s : String} {f : Form} {part : Part} {ds : List Char}
    (hf : f.WellFormed) (hs : f.spell = s.toList)
    (h : f.parts.find? (fun p => ¬Form.InBounds p) = some (part, ds)) :
    ofText s = refused ⟨s, String.ofList ((Rejection.outOfBounds part ds).message s.toList)⟩ := by
  simp only [ofText, Notation.read, (Form.split?_eq_some_iff s.toList f).mpr ⟨hf, hs⟩,
    Form.toThrow_eq_error h]

/-- The refusal of a notation is about the first demand that it does not meet. -/
theorem ofText_of_unmet {s : String} {f : Form} (hf : f.WellFormed) (hs : f.spell = s.toList)
    (h : ¬∀ d ∈ f.demands, d.IsMet) :
    ∃ d, f.demands.find? (fun d => ¬d.IsMet) = some d ∧
      ofText s = refused ⟨s, String.ofList (d.message s.toList)⟩ := by
  rw [Form.forall_isMet_iff] at h
  rw [Form.find?_demands]
  cases hfind : f.parts.find? (fun p => ¬Form.InBounds p) with
  | none => exact absurd (by simpa using hfind) h
  | some p => exact ⟨Demand.ofPart p, rfl, ofText_of_outOfBounds hf hs hfind⟩

/-- A text is refused for not being a notation, or for one of its numbers. -/
theorem refused_cases {s : String} {r : Refusal} (h : ofText s = refused r) :
    ((¬∃ f : Form, f.WellFormed ∧ f.spell = s.toList) ∧
      r = ⟨s, String.ofList (Rejection.malformed.message s.toList)⟩) ∨
    ∃ (f : Form) (part : Part) (ds : List Char), f.WellFormed ∧ f.spell = s.toList ∧
      (part, ds) ∈ f.parts ∧
      r = ⟨s, String.ofList ((Rejection.outOfBounds part ds).message s.toList)⟩ := by
  by_cases hwell : ∃ f : Form, f.WellFormed ∧ f.spell = s.toList
  · obtain ⟨f, hf, hs⟩ := hwell
    cases hfind : f.parts.find? (fun p => ¬Form.InBounds p) with
    | none =>
        obtain ⟨t, ht, -⟩ := ofText_of_inBounds hf hs (by simpa using hfind)
        rw [ht] at h
        contradiction
    | some p =>
        rw [ofText_of_outOfBounds hf hs hfind] at h
        cases h
        exact .inr ⟨f, p.1, p.2, hf, hs, List.mem_of_find?_eq_some hfind, rfl⟩
  · rw [ofText_of_malformed hwell] at h
    cases h
    exact .inl ⟨hwell, rfl⟩

/-- A notation asks for the throw that it is accepted as, and is within bounds. -/
theorem ofText_eq_accepted_iff {s : String} {f : Form} (hf : f.WellFormed)
    (hs : f.spell = s.toList) (t : Throw) :
    ofText s = accepted t ↔ (∀ p ∈ f.parts, Form.InBounds p) ∧ f.AsksFor t := by
  constructor
  · intro h
    cases hfind : f.parts.find? (fun p => ¬Form.InBounds p) with
    | none =>
        have hall : ∀ p ∈ f.parts, Form.InBounds p := by simpa using hfind
        obtain ⟨u, hu, hasks⟩ := ofText_of_inBounds hf hs hall
        cases hu.symm.trans h
        exact ⟨hall, hasks⟩
    | some p =>
        rw [ofText_of_outOfBounds hf hs hfind] at h
        contradiction
  · rintro ⟨hall, hasks⟩
    obtain ⟨u, hu, hasks'⟩ := ofText_of_inBounds hf hs hall
    rw [hu, Form.eq_of_asksFor hasks' hasks]

/-- **Reading follows the grammar.**  A text splits into the pieces of a
well-formed notation in one way at most.  One that does not is refused as it
stands, between quotes.  One that does is accepted as the throw that has the
numbers its pieces stand for, a count that is missing or empty being one,
exactly when all demands are met; otherwise the first that is not, in the order
count, sides, modifier, is what the refusal is about. -/
theorem ofText_follows_grammar (s : String) :
    (∀ f g : Form, f.WellFormed → g.WellFormed →
      f.spell = s.toList → g.spell = s.toList → f = g) ∧
    ((¬∃ f : Form, f.WellFormed ∧ f.spell = s.toList) →
      ofText s = refused
        ⟨s, String.ofList ("Invalid dice notation: ".toList ++ Quoted.ofText s.toList)⟩) ∧
    ∀ f : Form, f.WellFormed → f.spell = s.toList →
      ((∃ t, ofText s = accepted t ∧
          (t.count = f.lead.elim 1 fun l => if l.count = [] then 1 else Decimal.value l.count) ∧
          t.sides = Decimal.value f.sides ∧
          t.modifier.map (fun m => (m.sign, m.value)) =
            f.tail.map fun (g, ds) => (g, Decimal.value ds)) ↔
        ∀ d ∈ f.demands, d.IsMet) ∧
      ((¬∀ d ∈ f.demands, d.IsMet) → ∃ d : Demand,
        f.demands.find? (fun d => ¬d.IsMet) = some d ∧
        ofText s = refused ⟨s, String.ofList
          (d.name.toList ++ " must be between ".toList ++ Decimal.ofNat d.lowest ++
            " and ".toList ++ Decimal.ofNat d.highest ++ ", got ".toList ++
            abbreviate 12 d.digits ++ " in ".toList ++
            Quoted.ofText (abbreviate 40 s.toList))⟩) := by
  refine ⟨?_, ofText_of_malformed, fun f hf hs => ⟨?_, ofText_of_unmet hf hs⟩⟩
  · intro f g hf hg hfs hgs
    exact Form.eq_of_spell_eq hf hg (hfs.trans hgs.symm)
  · simp only [← Form.asksFor_iff, ofText_eq_accepted_iff hf hs, Form.forall_isMet_iff]
    constructor
    · rintro ⟨t, ⟨hall, -⟩, -⟩
      exact hall
    · intro hall
      obtain ⟨t, -, hasks⟩ := Form.toThrow_eq_ok hall
      exact ⟨t, ⟨hall, hasks⟩, hasks⟩

end Reading

end Tabletop
