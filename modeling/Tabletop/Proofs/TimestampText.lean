import Mathlib.Algebra.Group.Nat.Defs
import Tabletop.Timestamp
import Tabletop.Proofs.Grammar

/-!
# Tabletop.Proofs.TimestampText

A timestamp is read back from its own text (`Timestamp.read?_text`).

Each reader of a piece takes the piece off the front of a text, whatever
follows it; only the decimals of the seconds, which may be any number of
digits, need something else than a digit after them.
-/

namespace Tabletop.Timestamp

open Text Notation

/-! ## Numbers of fixed width -/

theorem length_padded {width n : Nat} (hwidth : 0 < width) (h : n < 10 ^ width) :
    (padded width n).length = width := by
  have hdigits : (Decimal.ofNat n).length ≤ width :=
    (Nat.length_toDigits_le_iff (by decide) hwidth).mpr h
  rw [padded, List.length_append, List.length_replicate]
  omega

theorem isRun_padded (width n : Nat) : Decimal.IsRun (padded width n) := by
  intro c hc
  rw [padded, List.mem_append] at hc
  cases hc with
  | inl hc =>
      rw [List.eq_of_mem_replicate hc]
      rfl
  | inr hc => exact Decimal.isRun_ofNat n c hc

/-- The zeros in front do not change what a number stands for. -/
theorem value_padded (width n : Nat) : Decimal.value (padded width n) = n := by
  rw [padded]
  induction width - (Decimal.ofNat n).length with
  | zero => exact Decimal.value_ofNat n
  | succ k ih => rw [List.replicate_succ, List.cons_append, Decimal.value_zero_cons, ih]

variable {width n : Nat}

theorem readNumber?_padded (hwidth : 0 < width) (h : n < 10 ^ width) (rest : List Char) :
    readNumber? width (padded width n ++ rest) = some (n, rest) := by
  have hlength := length_padded hwidth h
  have hdigits : (padded width n ++ rest).take width = padded width n := List.take_left' hlength
  rw [readNumber?, hdigits, if_pos ⟨hlength, isRun_padded width n⟩, value_padded,
    List.drop_left' hlength]

theorem readMarked?_padded (mark : Char) (hwidth : 0 < width) (h : n < 10 ^ width)
    (rest : List Char) :
    readMarked? mark width (mark :: (padded width n ++ rest)) = some (n, rest) := by
  rw [readMarked?, if_pos rfl, readNumber?_padded hwidth h]

/-! ## Offsets -/

theorem readHoursMinutes?_text {m : Nat} (h : m < 1440) :
    readHoursMinutes? (padded 2 (m / 60) ++ ':' :: padded 2 (m % 60)) = some m := by
  have hminutes : readNumber? 2 (padded 2 (m % 60)) = some (m % 60, []) := by
    have hread : readNumber? 2 (padded 2 (m % 60) ++ []) = some (m % 60, []) :=
      readNumber?_padded (by decide) (by omega) []
    rwa [List.append_nil] at hread
  rw [readHoursMinutes?, readNumber?_padded (by decide) (by omega)]
  simp only [Option.bind_eq_bind, Option.bind_some, hminutes]
  rw [if_pos ⟨trivial, Nat.mod_lt m (by decide)⟩, Nat.div_add_mod']

theorem readOffset?_text {offset : Option Int} (h : ∀ m ∈ offset, m.natAbs < 1440) :
    readOffset? (offsetText offset) = some offset := by
  cases offset with
  | none => rfl
  | some m =>
      have hread := readHoursMinutes?_text (h m rfl)
      by_cases hzero : m = 0
      · rw [hzero]
        rfl
      · by_cases hneg : m < 0
        · have habs : -(m.natAbs : Int) = m := by omega
          rw [offsetText, if_neg hzero, if_pos hneg, List.cons_append]
          simp only [readOffset?, hread]
          exact congrArg (fun k => some (some k)) habs
        · have habs : (m.natAbs : Int) = m := by omega
          rw [offsetText, if_neg hzero, if_neg hneg, List.cons_append]
          simp only [readOffset?, hread]
          exact congrArg (fun k => some (some k)) habs

/-- The text of an offset begins with nothing that belongs to the seconds. -/
theorem head_offsetText (offset : Option Int) :
    ∀ c ∈ (offsetText offset).head?, c = 'Z' ∨ c = '-' ∨ c = '+' := by
  cases offset with
  | none => simp [offsetText]
  | some m =>
      by_cases hzero : m = 0
      · simp [offsetText, hzero]
      · by_cases hneg : m < 0 <;> simp [offsetText, hzero, hneg]

/-! ## Seconds -/

/-- Decimals end where no digit follows. -/
theorem readFraction?_text {microsecond : Nat} (h : microsecond < 1000000) {rest : List Char}
    (hrest : ∀ c ∈ rest.head?, c.isDigit = false ∧ c ≠ '.' ∧ c ≠ ',') :
    readFraction? (fractionText microsecond ++ rest) = some (microsecond, rest) := by
  have hstop : NoDigitFirst rest := fun c hc => (hrest c hc).1
  by_cases hzero : microsecond = 0
  · rw [fractionText, if_pos hzero, List.nil_append, hzero]
    cases rest with
    | nil => rfl
    | cons c others =>
        obtain ⟨-, hpoint, hcomma⟩ := hrest c rfl
        simp [readFraction?, hpoint, hcomma]
  · have hlength : (padded 6 microsecond).length = 6 := length_padded (by decide) h
    have hne : padded 6 microsecond ≠ [] := List.ne_nil_of_length_eq_add_one hlength
    have hrun := isRun_padded 6 microsecond
    rw [fractionText, if_neg hzero, List.cons_append, readFraction?, if_pos (.inl rfl)]
    simp only [takeWhile_isDigit_append hrun hstop, dropWhile_isDigit_append hrun hstop,
      if_neg hne, List.take_of_length_le (Nat.le_of_eq hlength), value_padded, hlength]
    have hone : Nat.pow 10 (6 - 6) = 1 := rfl
    rw [hone, Nat.mul_one]

theorem readSeconds?_text {second microsecond : Nat} (hsecond : second < 60)
    (hmicrosecond : microsecond < 1000000) {rest : List Char}
    (hrest : ∀ c ∈ rest.head?, c.isDigit = false ∧ c ≠ '.' ∧ c ≠ ',') :
    readSeconds? (':' :: (padded 2 second ++ (fractionText microsecond ++ rest))) =
      some ((second, microsecond), rest) := by
  have hnumber : readNumber? 2 (padded 2 second ++ (fractionText microsecond ++ rest)) =
      some (second, fractionText microsecond ++ rest) :=
    readNumber?_padded (by decide) (by omega) _
  simp only [readSeconds?, hnumber, Option.bind_eq_bind, Option.bind_some,
    readFraction?_text hmicrosecond hrest]
  rfl

/-! ## Timestamps -/

theorem bounds_daysInMonth {year month : Nat} (h : 1 ≤ daysInMonth year month) :
    month ≤ 12 ∧ daysInMonth year month ≤ 31 := by
  unfold daysInMonth at h ⊢
  split at h
  case h_1 => split <;> decide
  case h_13 => contradiction
  all_goals decide

/-- The numbers of a timestamp. -/
def numbers (t : Timestamp) : Numbers :=
  ⟨t.year, t.month, t.day, t.hour, t.minute, t.second, t.microsecond, t.offset⟩

theorem readNumbers?_text (t : Timestamp) : readNumbers? t.text = some t.numbers := by
  obtain ⟨year, month, day, hour, minute, second, microsecond, offset, hyear, hday, htime,
    hoffset⟩ := t
  obtain ⟨hmonth, hdays⟩ := bounds_daysInMonth (Nat.le_trans hday.1 hday.2)
  obtain ⟨hhour, hminute, hsecond, hmicrosecond⟩ := htime
  have hrest : ∀ c ∈ (offsetText offset).head?, c.isDigit = false ∧ c ≠ '.' ∧ c ≠ ',' := by
    intro c hc
    obtain rfl | rfl | rfl := head_offsetText offset c hc <;> decide
  -- The readers take the pieces off the front one after the other.
  simp only [text, List.append_assoc, List.cons_append]
  rw [readNumbers?, readNumber?_padded (by decide) (by omega)]
  simp only [Option.bind_eq_bind, Option.bind_some]
  rw [readMarked?_padded '-' (by decide) (by omega)]
  simp only [Option.bind_some]
  rw [readMarked?_padded '-' (by decide) (by omega)]
  simp only [Option.bind_some, List.mem_cons, true_or, not_true_eq_false, if_false]
  rw [readNumber?_padded (by decide) (by omega)]
  simp only [Option.bind_some]
  rw [readMarked?_padded ':' (by decide) (by omega)]
  simp only [Option.bind_some]
  rw [readSeconds?_text hsecond hmicrosecond hrest]
  simp only [Option.bind_some, readOffset?_text hoffset]
  rfl

/-- **A timestamp is read back from its text.** -/
theorem read?_text (t : Timestamp) : read? t.text = some t := by
  rw [read?, readNumbers?_text, Option.bind_some, ofNumbers?]
  exact dif_pos ⟨t.year_range, t.day_range, t.time_range, t.offset_range⟩

end Tabletop.Timestamp
