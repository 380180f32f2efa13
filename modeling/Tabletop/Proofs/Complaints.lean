import Tabletop.Field

/-!
# Tabletop.Proofs.Complaints

What the check of a record makes of its fields, one by one.

* A check has a result exactly when it has no complaints, and a check put
  together of others has the results of all of them
  (`Checked.seq_eq_valid_iff`).
* A field given by name is complained of at most once, for what its kind has
  against the value given (`Field.complaints_required`,
  `Field.complaints_withDefault`).
* No complaint breaks its line, so a report can be taken apart into the
  complaints that it was made of (`Complaint.splitOn_report`).
-/

namespace Tabletop

open Text

/-! ## Checks put together -/

namespace Checked

variable {α β : Type}

theorem exists_eq_valid_iff (x : Checked α) : (∃ a, x = .valid a) ↔ x.complaints = [] := by
  cases x <;> simp [complaints]

theorem map_eq_valid_iff {f : α → β} {x : Checked α} {b : β} :
    f <$> x = .valid b ↔ ∃ a, x = .valid a ∧ f a = b := by
  cases x with
  | valid a =>
      constructor
      · rintro ⟨⟩
        exact ⟨a, rfl, rfl⟩
      · rintro ⟨_, ⟨⟩, rfl⟩
        rfl
  | invalid first rest => exact ⟨nofun, nofun⟩

theorem seq_eq_valid_iff {f : Checked (α → β)} {x : Checked α} {b : β} :
    f <*> x = .valid b ↔ ∃ g a, f = .valid g ∧ x = .valid a ∧ g a = b := by
  cases f with
  | valid g =>
      refine Iff.trans (map_eq_valid_iff (f := g)) ⟨?_, ?_⟩
      · rintro ⟨a, hx, hb⟩
        exact ⟨g, a, rfl, hx, hb⟩
      · rintro ⟨_, a, ⟨⟩, hx, hb⟩
        exact ⟨a, hx, hb⟩
  | invalid first rest => exact ⟨nofun, nofun⟩

theorem flatten_eq_valid_iff {x : Checked (Checked α)} {a : α} :
    x.flatten = .valid a ↔ ∃ y, x = .valid y ∧ y = .valid a := by
  cases x with
  | valid y => exact ⟨fun h => ⟨y, rfl, h⟩, by rintro ⟨_, ⟨⟩, h⟩; exact h⟩
  | invalid first rest => exact ⟨nofun, nofun⟩

end Checked

/-! ## Fields by name -/

namespace Field

variable {α : Type} {fs : Fields} {name : String} {accept : Value → Except Issue α} {a : α}

/-- What a kind of field has against a value, if anything. -/
def objection? (accept : Value → Except Issue α) (v : Value) : Option Issue :=
  match accept v with
  | .ok _ => none
  | .error e => some e

theorem objection?_eq_none_iff {v : Value} :
    objection? accept v = none ↔ ∃ a, accept v = .ok a := by
  unfold objection?
  cases accept v <;> simp

/-- A field that may be left empty treats any other value as one that may not. -/
theorem optional_of_ne_null (accept : Value → Except Issue α) {v : Value} (hv : v ≠ .null) :
    optional accept v = (accept v).map some := by
  cases v with
  | null => contradiction
  | _ => rfl

/-- A field that may be left empty objects to nothing else than one that may not. -/
theorem objection?_optional (accept : Value → Except Issue α) {v : Value} (hv : v ≠ .null) :
    objection? (optional accept) v = objection? accept v := by
  rw [objection?, objection?, optional_of_ne_null accept hv]
  cases accept v <;> rfl

theorem check_eq_valid_iff {place : Place} {v : Value} :
    check place accept v = .valid a ↔ accept v = .ok a := by
  unfold check
  cases accept v <;> simp [Checked.complain]

theorem complaints_check (place : Place) (accept : Value → Except Issue α) (v : Value) :
    (check place accept v).complaints = (objection? accept v).toList.map (⟨place, ·⟩) := by
  unfold check objection?
  cases accept v <;> rfl

theorem required_eq_valid_iff :
    required fs name accept = .valid a ↔ ∃ v, fs.lookup name = some v ∧ accept v = .ok a := by
  unfold required
  cases fs.lookup name with
  | none => exact ⟨nofun, nofun⟩
  | some v => simp [check_eq_valid_iff]

theorem withDefault_eq_valid_iff {default : α} :
    withDefault fs name default accept = .valid a ↔
      (fs.lookup name = none ∧ default = a) ∨ ∃ v, fs.lookup name = some v ∧ accept v = .ok a := by
  unfold withDefault
  cases fs.lookup name with
  | none => simp
  | some v => simp [check_eq_valid_iff]

/-- A field that may be left empty has no result when nothing is given, by
leaving it out or by giving nothing. -/
theorem withDefault_optional_eq_valid_iff (hnull : ∀ a, accept .null ≠ .ok a) {a : Option α} :
    withDefault fs name none (optional accept) = .valid a ↔
      match a with
      | none => fs.lookup name = none ∨ fs.lookup name = some .null
      | some a => ∃ v, fs.lookup name = some v ∧ accept v = .ok a := by
  rw [withDefault_eq_valid_iff]
  cases hv : fs.lookup name with
  | none => cases a <;> simp
  | some v =>
      by_cases hnil : v = .null
      · subst hnil
        cases a with
        | none => simp [optional]
        | some a => simpa [optional] using hnull a
      · have hoptional := optional_of_ne_null accept hnil
        cases a with
        | none => cases haccept : accept v <;> simp [hoptional, haccept, Except.map, hnil]
        | some a => cases haccept : accept v <;> simp [hoptional, haccept, Except.map]

/-- A field that is needed is complained of when it is missing, or for its value. -/
theorem complaints_required (fs : Fields) (name : String) (accept : Value → Except Issue α) :
    (required fs name accept).complaints =
      ((fs.lookup name).elim (some .missing) (objection? accept)).toList.map
        (⟨.field name, ·⟩) := by
  unfold required
  cases fs.lookup name with
  | none => rfl
  | some v => exact complaints_check _ accept v

/-- A field with a default is complained of for its value only. -/
theorem complaints_withDefault (fs : Fields) (name : String) (default : α)
    (accept : Value → Except Issue α) :
    (withDefault fs name default accept).complaints =
      ((fs.lookup name).bind (objection? accept)).toList.map (⟨.field name, ·⟩) := by
  unfold withDefault
  cases fs.lookup name with
  | none => rfl
  | some v => exact complaints_check _ accept v

end Field

/-! ## Reports -/

theorem newline_not_mem_numeral (n : Nat) : '\n' ∉ (numeral n).toList := by
  rw [numeral, String.toList_ofList]
  intro h
  exact absurd (Decimal.isRun_ofNat n _ h) (by decide)

/-- A literal is gone through character by character. -/
theorem newline_not_mem_literal {cs : List Char} (h : '\n' ∉ cs) :
    '\n' ∉ (String.ofList cs).toList := by
  rwa [String.toList_ofList]

theorem newline_not_mem_around {before after : List Char} {s : String}
    (hbefore : '\n' ∉ before) (hs : '\n' ∉ s.toList) (hafter : '\n' ∉ after) :
    '\n' ∉ (String.ofList before ++ s ++ String.ofList after).toList := by
  simp [hbefore, hs, hafter]

/-- No issue is worded in more than one line. -/
theorem Issue.newline_not_mem_message (e : Issue) : '\n' ∉ e.message.toList := by
  cases e with
  | tooSmall n | tooLarge n =>
      exact newline_not_mem_around (by decide) (newline_not_mem_numeral n) (by decide)
  | notLiteral wanted =>
      have hword : '\n' ∉ (if wanted then "True" else "False").toList := by cases wanted <;> decide
      exact newline_not_mem_around (by decide) hword (by decide)
  | unreadableTimestamp flaw =>
      have hflaw : '\n' ∉ flaw.message.toList := by
        cases flaw <;> exact newline_not_mem_literal (by decide)
      exact newline_not_mem_around (by decide) hflaw (by decide)
  | _ => exact newline_not_mem_literal (by decide)

namespace Complaint

theorem newline_not_mem_line {c : Complaint} (h : '\n' ∉ c.place.label.toList) :
    '\n' ∉ c.line.toList := by
  simp [line, h, Issue.newline_not_mem_message]

/-- The lines of a report are its complaints, if no place has a line break in
its name. -/
theorem splitOn_report {cs : List Complaint} (hne : cs ≠ [])
    (h : ∀ c ∈ cs, '\n' ∉ c.place.label.toList) :
    (report cs).toList.splitOn '\n' = cs.map (·.line.toList) := by
  rw [report, String.toList_intercalate, List.map_map]
  refine List.splitOn_intercalate '\n' ?_ (by simpa using hne)
  rintro l hl
  obtain ⟨c, hc, rfl⟩ := List.mem_map.mp hl
  exact newline_not_mem_line (h c hc)

end Complaint

end Tabletop
