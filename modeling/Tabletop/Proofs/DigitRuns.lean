import Mathlib.Data.List.TakeWhile
import Tabletop.Text.LooseInteger

/-!
# Tabletop.Proofs.DigitRuns

Runs of digits among the integers that people write.

A run that is not longer than what is converted is read as the number that it
stands for (`LooseInteger.read_run`).  A plain one is read as it is, after a
minus sign or not, and is oversized exactly when it has too many digits, the
sign not counted (`LooseInteger.read_signed`).  Any other is short enough to be
tidied, which takes nothing but needless zeros off it (`LooseInteger.tidy?_run`).
-/

namespace Tabletop.Text

/-! ## Blanks -/

namespace Blank

theorem isBlank_of_isDigit {c : Char} (h : c.isDigit = true) : isBlank c = false := by
  have hbounds := Decimal.toNat_bounds_of_isDigit h
  simp [isBlank, ranges]
  omega

/-- There are no blanks to take off a run of digits. -/
theorem trim_run {ds : List Char} (h : Decimal.IsRun ds) : trim ds = ds := by
  have hdrop : ∀ es : List Char, Decimal.IsRun es → es.dropWhile isBlank = es := by
    intro es hes
    cases es with
    | nil => rfl
    | cons c rest => simp [isBlank_of_isDigit (hes c List.mem_cons_self)]
  have hreverse : Decimal.IsRun ds.reverse := fun c hc => h c (List.mem_reverse.mp hc)
  rw [trim, strip, hdrop ds h, hdrop _ hreverse, List.reverse_reverse]

end Blank

/-! ## Plain numerals -/

namespace LooseInteger

variable {ds : List Char}

theorem splitMinus_run (h : Decimal.IsRun ds) : splitMinus ds = (false, ds) := by
  cases ds with
  | nil => rfl
  | cons c rest =>
      have hc : c ≠ '-' := Decimal.ne_of_isDigit (Decimal.isRun_cons.mp h).1 rfl
      unfold splitMinus
      split
      · next heq => exact absurd (List.cons.inj heq).1 hc
      · rfl

theorem isRun_of_isCanonical (h : IsCanonical ds) : Decimal.IsRun ds := by
  obtain rfl | ⟨-, -, hrun⟩ := h
  · decide
  · exact hrun

/-- Digits after a minus sign, or by themselves. -/
def signed (negative : Bool) (ds : List Char) : List Char := if negative then '-' :: ds else ds

theorem splitMinus_signed (negative : Bool) (h : Decimal.IsRun ds) :
    splitMinus (signed negative ds) = (negative, ds) := by
  cases negative with
  | true => rfl
  | false => exact splitMinus_run h

theorem plain?_signed (negative : Bool) (h : IsCanonical ds) :
    plain? (signed negative ds) =
      if ds.length ≤ Decimal.limit then
        some (if negative then -(Decimal.value ds : Int) else Decimal.value ds)
      else none := by
  simp only [plain?, splitMinus_signed negative (isRun_of_isCanonical h), h, true_and]

theorem startsOversized_signed {negative : Bool} (h : IsCanonical ds)
    (hlong : Decimal.limit < ds.length) : StartsOversized (signed negative ds) := by
  have hrun := isRun_of_isCanonical h
  have htake : ds.takeWhile Char.isDigit = ds := List.takeWhile_eq_self_iff.mpr hrun
  simp only [StartsOversized, splitMinus_signed negative hrun, htake]
  refine ⟨?_, hlong⟩
  obtain rfl | ⟨-, hhead, -⟩ := h
  · contradiction
  · exact hhead

/-- **The sign does not count.**  A plain numeral is taken for its number, or is
oversized if it has more digits than are converted, whether a minus sign stands
in front or not. -/
theorem read_signed (negative : Bool) (h : IsCanonical ds) :
    read (signed negative ds) =
      if ds.length ≤ Decimal.limit then
        .ok (if negative then -(Decimal.value ds : Int) else Decimal.value ds)
      else .error .oversized := by
  by_cases hlength : ds.length ≤ Decimal.limit
  · simp only [read, plain?_signed negative h, if_pos hlength]
  · have hover : StartsOversized (signed negative ds) :=
      startsOversized_signed h (Nat.lt_of_not_le hlength)
    simp only [read, plain?_signed negative h, if_neg hlength, if_pos hover]

/-! ## Tidying a run -/

/-- The zeros in front of a run are taken off, up to the last digit. -/
theorem exists_canonical_of_dropZerosAfter (h : Decimal.IsRun ds) :
    ∃ es, dropZerosAfter? '0' ds = some es ∧ IsCanonical es ∧ es.length ≤ ds.length + 1 ∧
      Decimal.value es = Decimal.value ds := by
  induction ds with
  | nil => exact ⟨['0'], rfl, .inl rfl, Nat.le_refl 1, rfl⟩
  | cons c rest ih =>
      obtain ⟨hc, hrest⟩ := Decimal.isRun_cons.mp h
      by_cases hzero : c = '0'
      · obtain ⟨es, hes, hcanonical, hlength, hvalue⟩ := ih hrest
        rw [hzero, Decimal.value_zero_cons]
        refine ⟨es, ?_, hcanonical, ?_, hvalue⟩
        · simpa [dropZerosAfter?] using hes
        · rw [List.length_cons]
          omega
      · refine ⟨c :: rest, ?_, .inr ⟨List.cons_ne_nil c rest, by simpa using hzero, h⟩,
          Nat.le_succ _, rfl⟩
        have hscore : c ≠ '_' := Decimal.ne_of_isDigit hc rfl
        simp [dropZerosAfter?, hzero, hscore, hc]

theorem exists_canonical_of_dropZeros (h : Decimal.IsRun ds) (hne : ds ≠ []) :
    ∃ es, dropZeros? ds = some es ∧ IsCanonical es ∧ es.length ≤ ds.length ∧
      Decimal.value es = Decimal.value ds := by
  cases ds with
  | nil => contradiction
  | cons c rest =>
      obtain ⟨hc, hrest⟩ := Decimal.isRun_cons.mp h
      by_cases hzero : c = '0'
      · obtain ⟨es, hes, hcanonical, hlength, hvalue⟩ := exists_canonical_of_dropZerosAfter hrest
        rw [hzero, Decimal.value_zero_cons]
        exact ⟨es, hes, hcanonical, hlength, hvalue⟩
      · refine ⟨c :: rest, ?_, .inr ⟨hne, by simpa using hzero, h⟩, Nat.le_refl _, rfl⟩
        simp [dropZeros?, hzero, hc]

theorem dropZeroFraction_run (h : Decimal.IsRun ds) : dropZeroFraction ds = ds := by
  have hwhole : ds.takeWhile (· != '.') = ds := by
    rw [List.takeWhile_eq_self_iff]
    intro c hc
    simpa using Decimal.ne_of_isDigit (h c hc) rfl
  simp [dropZeroFraction, hwhole]

theorem dropUnderscores?_run (h : Decimal.IsRun ds) : dropUnderscores? ds = some ds := by
  induction ds with
  | nil => rfl
  | cons c rest ih =>
      obtain ⟨hc, hrest⟩ := Decimal.isRun_cons.mp h
      have hscore : c ≠ '_' := Decimal.ne_of_isDigit hc rfl
      cases rest with
      | nil => simp [dropUnderscores?]
      | cons d others =>
          have hnext : d ≠ '_' := Decimal.ne_of_isDigit (Decimal.isRun_cons.mp hrest).1 rfl
          simp [dropUnderscores?, hnext, ih hrest]

theorem tidy?_run (h : Decimal.IsRun ds) (hne : ds ≠ []) :
    ∃ es, tidy? ds = some es ∧ IsCanonical es ∧ es.length ≤ ds.length ∧
      Decimal.value es = Decimal.value ds := by
  obtain ⟨es, hes, hcanonical, hlength, hvalue⟩ := exists_canonical_of_dropZeros h hne
  have hrun := isRun_of_isCanonical hcanonical
  refine ⟨es, ?_, hcanonical, hlength, hvalue⟩
  have hsign : ∀ {c rest}, ds = c :: rest → c.isDigit = true := by
    rintro c rest rfl
    exact (Decimal.isRun_cons.mp h).1
  have hend : ∀ bare?, bare? = some es →
      bare?.bind (fun bare => dropUnderscores? (dropZeroFraction bare)) = some es := by
    rintro _ rfl
    rw [Option.bind_some, dropZeroFraction_run hrun, dropUnderscores?_run hrun]
  rw [tidy?, Blank.trim_run h]
  refine hend _ ?_
  split
  · exact absurd (hsign rfl) (by decide)
  · exact absurd (hsign rfl) (by decide)
  · exact hes

/-! ## Reading a run -/

/-- A run of digits is taken for the number that it stands for. -/
theorem read_run (h : Decimal.IsRun ds) (hne : ds ≠ []) (hlength : ds.length ≤ Decimal.limit) :
    read ds = .ok (Decimal.value ds : Int) := by
  by_cases hcanonical : IsCanonical ds
  · exact (read_signed false hcanonical).trans (if_pos hlength)
  · have hplain : plain? ds = none := by
      simp only [plain?, splitMinus_run h]
      exact if_neg fun hds => hcanonical hds.1
    have hstart : ¬StartsOversized ds := by
      rintro ⟨-, hlong⟩
      simp only [splitMinus_run h] at hlong
      have htake := (List.takeWhile_prefix Char.isDigit (l := ds)).length_le
      omega
    obtain ⟨es, hes, hcanonical', hshort, hvalue⟩ := tidy?_run h hne
    have hread : plain? es = some (Decimal.value es : Int) :=
      (plain?_signed false hcanonical').trans (if_pos (Nat.le_trans hshort hlength))
    simp only [read, hplain, if_neg hstart, hes, Option.bind_some, hread, hvalue]

end LooseInteger

end Tabletop.Text
