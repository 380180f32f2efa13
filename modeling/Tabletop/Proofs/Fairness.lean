import Mathlib.Algebra.Group.Nat.Defs
import Tabletop.Proofs.Attempts

/-!
# Tabletop.Proofs.Fairness

What is known of dice that keep to their faces and of machines that never
fail.

* A source of dice is `Fair` when each die shows a number from one to its
  number of sides.  A `Twister` is.
* The dice of a throw then add up to no less than their count and no more
  than their count times their sides (`sum_bounds`), and none of the numbers
  written about the throw is too long (`numbers_fit`).
* Where neither the dice that it asks for nor the clock fail, a roll fails only
  for an integer that is too long (`Roll.fault_of_served`).
* If the dice are fair as well, every roll of a value that can be written
  down is answered (`Roll.exists_ending_of_fair`), and so is every call that
  offers such values (`Call.answered_of_fair`).
-/

namespace Tabletop

open Text

/-- An integer is short enough exactly when it is below a power of ten. -/
theorem Text.Decimal.fits_iff (n : Int) : Decimal.Fits n ↔ n.natAbs < 10 ^ Decimal.limit :=
  Nat.length_toDigits_le_iff (by decide) (by decide)

/-- The least natural number that is too long. -/
def Text.Decimal.tooLong : Nat := 10 ^ Decimal.limit

theorem Text.Decimal.not_fits_tooLong : ¬Decimal.Fits Decimal.tooLong := by
  rw [Decimal.fits_iff, Int.natAbs_natCast, Decimal.tooLong]
  exact Nat.lt_irrefl _

theorem Text.Decimal.fits_tooLong_sub_one : Decimal.Fits (Decimal.tooLong - 1) := by
  have hpower : 0 < Decimal.tooLong := by
    rw [Decimal.tooLong]
    exact Nat.pow_pos (by decide)
  rw [Decimal.fits_iff]
  change (Decimal.tooLong - 1 : Int).natAbs < Decimal.tooLong
  omega

/-! ## Fair dice -/

namespace DieSource

/-- Each die shows one of its faces. -/
def Fair (σ : Type) [DieSource σ] : Prop :=
  ∀ (sides : Nat) (s s' : σ) (n : Int), 1 ≤ sides → draw sides s = .ok n s' → 1 ≤ n ∧ n ≤ sides

/-- No die ever fails. -/
def Tireless (σ : Type) [DieSource σ] : Prop :=
  ∀ (sides : Nat) (s : σ), ∃ n s', draw sides s = .ok n s'

theorem draw_twister (sides : Nat) (s : Twister) :
    draw sides s = .ok ((s.below sides).1 + 1) (s.below sides).2 := by
  dsimp only [draw]

theorem fair_twister : Fair Twister := by
  intro sides s s' n hsides h
  have hlt : (s.below sides).1 < sides := by
    rw [Twister.below]
    exact Twister.belowWithin_lt hsides _ s
  rw [draw_twister] at h
  injection h with hn
  omega

theorem tireless_twister : Tireless Twister := fun sides s => ⟨_, _, draw_twister sides s⟩

variable {σ : Type} [DieSource σ]

/-- Fair dice rolled one after the other show numbers up to the greatest
number of sides. -/
theorem bounds_of_drawEach (hfair : Fair σ) {most : Nat} {xs : List Nat} {s s' : σ}
    {ns : List Int} (hxs : ∀ x ∈ xs, 1 ≤ x ∧ x ≤ most) (h : drawEach xs s = .ok ns s') :
    ∀ n ∈ ns, 1 ≤ n ∧ n ≤ most := by
  induction xs generalizing s ns with
  | nil =>
      cases h
      intro n hn
      contradiction
  | cons x xs ih =>
      obtain ⟨m, s₁, hm, h⟩ := Act.exists_of_bind_eq_ok h
      obtain ⟨ms, s₂, hms, h⟩ := Act.exists_of_bind_eq_ok h
      cases h
      obtain ⟨hx, hmost⟩ := hxs x List.mem_cons_self
      obtain ⟨hlow, hhigh⟩ := hfair x s s₁ m hx hm
      intro n hn
      rw [List.mem_cons] at hn
      cases hn with
      | inl hn => omega
      | inr hn => exact ih (fun y hy => hxs y (List.mem_cons_of_mem x hy)) hms n hn

/-- The dice of a throw show their faces. -/
theorem bounds_of_throw (hfair : Fair σ) {t : Throw} {s s' : σ} {rolls : List Int}
    (h : drawEach (List.replicate t.count t.sides) s = .ok rolls s') :
    ∀ n ∈ rolls, 1 ≤ n ∧ n ≤ t.sides := by
  apply bounds_of_drawEach hfair (fun x hx => ?_) h
  rw [List.eq_of_mem_replicate hx]
  have hsides : 2 ≤ t.sides := t.sides_admitted.1
  omega

theorem exists_drawEach_of_tireless (h : Tireless σ) (xs : List Nat) (s : σ) :
    ∃ ns s', drawEach xs s = .ok ns s' := by
  induction xs generalizing s with
  | nil => exact ⟨[], s, rfl⟩
  | cons x xs ih =>
      obtain ⟨n, s₁, hn⟩ := h x s
      obtain ⟨ns, s₂, hns⟩ := ih s₁
      refine ⟨n :: ns, s₂, ?_⟩
      rw [drawEach, Act.bind_of_ok hn, Act.bind_of_ok hns]
      rfl

end DieSource

/-- A clock that never fails. -/
def Clock.Tireless (κ : Type) [Clock κ] : Prop := ∀ s : κ, ∃ t s', now s = .ok t s'

theorem Clock.tireless_stopped : Clock.Tireless Stopped := fun s => ⟨s.time, s, rfl⟩

/-- The first moment of 1970. -/
def Timestamp.epoch : Timestamp where
  year := 1970
  month := 1
  day := 1
  hour := 0
  minute := 0
  second := 0
  microsecond := 0
  offset := some 0
  year_range := by decide
  day_range := by decide
  time_range := by decide
  offset_range := by decide

/-! ## Sums of fair dice -/

/-- Numbers between one and another number add up to no less than how many
they are, and to no more than as many times that number. -/
theorem sum_bounds {rolls : List Int} {sides : Nat} (h : ∀ n ∈ rolls, 1 ≤ n ∧ n ≤ sides) :
    rolls.length ≤ diceSum rolls ∧ diceSum rolls ≤ rolls.length * sides := by
  induction rolls with
  | nil => simp [diceSum]
  | cons n rest ih =>
      obtain ⟨hlow, hhigh⟩ := h n List.mem_cons_self
      obtain ⟨hleast, hmost⟩ := ih fun m hm => h m (List.mem_cons_of_mem n hm)
      rw [diceSum, List.length_cons, Int.natCast_add, Int.add_mul]
      omega

namespace Throw

/-- A modifier moves a total by no more than its greatest value. -/
theorem offset_bounds (t : Throw) : -100 ≤ t.offset ∧ t.offset ≤ 100 := by
  cases hm : t.modifier with
  | none => simp [offset, hm]
  | some m =>
      have hvalue : m.value ≤ 100 := m.admitted.2
      cases hsign : m.sign <;> simp [offset, hm, Modifier.signed, hsign, Sign.factor] <;> omega

/-- Nothing that is written about a throw of fair dice is too long. -/
theorem numbers_fit (t : Throw) {rolls : List Int} (hlength : rolls.length = t.count)
    (hrolls : ∀ n ∈ rolls, 1 ≤ n ∧ n ≤ t.sides) :
    ∀ n ∈ Breakdown.numbers rolls t, Decimal.Fits n := by
  obtain ⟨hlow, hhigh⟩ := sum_bounds hrolls
  obtain ⟨hleast, hmost⟩ := t.offset_bounds
  have hcount : t.count ≤ 100 := t.count_admitted.2
  have hsides : t.sides ≤ 1000 := t.sides_admitted.2
  have hsum : diceSum rolls ≤ 100 * 1000 := by
    have hproduct : t.count * t.sides ≤ 100 * 1000 := Nat.mul_le_mul hcount hsides
    rw [hlength, ← Int.natCast_mul] at hhigh
    omega
  have hpower : 10 ^ 6 ≤ 10 ^ Decimal.limit := Nat.pow_le_pow_right (by decide) (by decide)
  intro n hn
  rw [Decimal.fits_iff]
  refine Nat.lt_of_lt_of_le ?_ hpower
  simp only [Breakdown.numbers, List.mem_append, List.mem_cons, List.not_mem_nil, or_false] at hn
  rcases hn with hn | rfl | rfl
  · have hbounds := hrolls n hn
    omega
  · omega
  · omega

end Throw

/-! ## Rolls that are always answered -/

/-- A value that can be written down is read. -/
theorem Reading.ofValue_ne_error {v : Value} {e : Fault} (hv : v.literal?.isSome) :
    Reading.ofValue v ≠ .error e := by
  obtain ⟨shown, hshown⟩ := Option.isSome_iff_exists.mp hv
  intro herror
  by_cases htext : ∃ s, v = .text s
  · obtain ⟨s, rfl⟩ := htext
    contradiction
  · rw [Reading.ofValue_of_ne_text (fun s hs => htext ⟨s, hs⟩), hshown] at herror
    contradiction

variable {σ κ : Type} [DieSource σ] [Clock κ]

namespace Roll

variable {settings : Settings} {v : Value} {s after : Supply σ κ}

/-- Neither the dice that the value asks for nor the clock fail. -/
structure Served (settings : Settings) (v : Value) (s : Supply σ κ) : Prop where
  dice : ∀ t, asked settings v = .ok (.accepted t) →
    ∃ rolls left, DieSource.drawEach (List.replicate t.count t.sides) s.dice = .ok rolls left
  clock : ∃ time left, Clock.now s.clock = .ok time left

/-- A number to be written about the dice that the value asks for is too long. -/
def Overlong (settings : Settings) (v : Value) (s : Supply σ κ) : Prop :=
  ∃ t rolls left, asked settings v = .ok (.accepted t) ∧
    DieSource.drawEach (List.replicate t.count t.sides) s.dice = .ok rolls left ∧
    ¬∀ n ∈ Breakdown.numbers rolls t, Decimal.Fits n

theorem served_of_tireless (hdice : DieSource.Tireless σ) (hclock : Clock.Tireless κ) :
    Served settings v s where
  dice _ _ := DieSource.exists_drawEach_of_tireless hdice _ s.dice
  clock := hclock s.clock

omit [Clock κ] in
/-- What is written about fair dice is short enough. -/
theorem not_overlong_of_fair (hfair : DieSource.Fair σ) : ¬Overlong settings v s := by
  rintro ⟨t, rolls, left, -, hrolls, hlong⟩
  have hlength := DieSource.length_of_drawEach hrolls
  rw [List.length_replicate] at hlength
  exact hlong (t.numbers_fit hlength (DieSource.bounds_of_throw hfair hrolls))

/-- Where neither dice nor clock fail, a roll fails for an integer that is too
long: one in the value offered, or one to be written about the dice. -/
theorem fault_of_served (hserved : Served settings v s) {e : Fault}
    (h : Course settings v s (.error e) after) :
    e = .oversizedInteger ∧
      (asked settings v = .error .oversizedInteger ∨ Overlong settings v s) := by
  obtain ⟨time, left, htime⟩ := hserved.clock
  cases h with
  | unwritable hasked => exact ⟨rfl, .inl hasked⟩
  | unlogged haccepts hrolls hlong =>
      exact ⟨rfl, .inr ⟨_, _, _, haccepts.asked_eq, hrolls,
        fun hfits => hlong (fits_entryOf hfits)⟩⟩
  | underived haccepts hrolls _ hderivation =>
      refine ⟨rfl, .inr ⟨_, _, _, haccepts.asked_eq, hrolls, fun hfits => ?_⟩⟩
      rw [Breakdown.text?, if_pos hfits] at hderivation
      contradiction
  | refusedTimeless _ hnow =>
      rw [htime] at hnow
      contradiction
  | rolledTimeless _ _ _ _ hnow =>
      rw [htime] at hnow
      contradiction
  | diceless haccepts hnone =>
      obtain ⟨rolls, dice, hrolls⟩ := hserved.dice _ haccepts.asked_eq
      rw [hrolls] at hnone
      contradiction

theorem exists_ending_of_fair (hfair : DieSource.Fair σ) (hdice : DieSource.Tireless σ)
    (hclock : Clock.Tireless κ) {ending : Except Fault Outcome} (hv : v.literal?.isSome)
    (h : Course settings v s ending after) : ∃ o, ending = .ok o := by
  cases ending with
  | ok o => exact ⟨o, rfl⟩
  | error e =>
      obtain ⟨-, hasked | hlong⟩ := fault_of_served (served_of_tireless hdice hclock) h
      · refine absurd hasked (Reading.ofValue_ne_error ?_)
        cases v with
        | null => rfl
        | _ => exact hv
      · exact absurd hlong (not_overlong_of_fair hfair)

end Roll

namespace Call

variable {settings : Settings} {c : Call}

/-- With dice and a clock that never fail, a call that offers values to be
rolled fails for an integer that is too long. -/
theorem fault_of_tireless (hdice : DieSource.Tireless σ) (hclock : Clock.Tireless κ)
    {vs : List Value} {s : Supply σ κ} {e : Fault} (hoffers : c.offers = .ok vs)
    (h : (c.answer settings s).1 = .error e) : e = .oversizedInteger := by
  simp only [(answer_attempts settings c s).1, conclude, hoffers] at h
  obtain ⟨os, hos, -⟩ | ⟨e', he, a, ha, hending⟩ := mapM_ending_cases (c.attempts settings s)
  · rw [hos] at h
    contradiction
  · rw [he] at h
    cases h
    have hcourse := course_of_mem_attempts ha
    rw [hending] at hcourse
    exact (Roll.fault_of_served (Roll.served_of_tireless hdice hclock) hcourse).1

/-- With fair dice, and dice and a clock that never fail, a call that offers
values that can be written down is answered. -/
theorem answered_of_fair (hfair : DieSource.Fair σ) (hdice : DieSource.Tireless σ)
    (hclock : Clock.Tireless κ) {vs : List Value} (hoffers : c.offers = .ok vs)
    (hvs : ∀ v ∈ vs, v.literal?.isSome) (s : Supply σ κ) :
    ∃ a, (c.answer settings s).1 = .ok a := by
  obtain ⟨os, hos, -⟩ | ⟨e, -, a, ha, hending⟩ := mapM_ending_cases (Roll.attempts settings vs s)
  · refine ⟨c.answerOf settings os, ?_⟩
    simp only [(answer_attempts settings c s).1, conclude, attempts, hoffers, hos]
    rfl
  · have hv := hvs _ (Roll.offered_mem_of_mem_attempts ha)
    obtain ⟨o, ho⟩ := Roll.exists_ending_of_fair hfair hdice hclock hv
      (Roll.course_of_mem_attempts ha)
    rw [hending] at ho
    contradiction

end Call

end Tabletop
