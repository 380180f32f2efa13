import Mathlib.Data.List.Forall2
import Tabletop.Proofs.Fairness
import Tabletop.Proofs.Grammar

/-!
# Tabletop.Proofs.Audit

What a table answers can be checked from the answer alone.

A result keeps the notation as it was offered, and reading that notation
again tells what was thrown: how many dice there must be, what they may show,
and what is added to them.  The total, the modifier as it is written and the
derivation all have to agree with it (`Success.Audited`).  A notation that was
turned down is read again to the same message.

This holds of every result of every call of a run, whatever the source of
dice is, as long as its dice show their faces (`Call.answers_audited`).
-/

namespace Tabletop

open Text

/-! ## What is checked -/

/-- A success agrees with the throw that its notation asks for. -/
structure Success.Audited (r : Success) (q : Throw) : Prop where
  reads : Reading.ofText r.spelling = .accepted q
  length_rolls : r.rolls.length = q.count
  faces : ∀ n ∈ r.rolls, 1 ≤ n ∧ n ≤ q.sides
  total_eq : r.total = diceSum r.rolls + q.offset
  least_total : q.count + q.offset ≤ r.total
  greatest_total : r.total ≤ q.count * q.sides + q.offset
  modifier_eq : r.modifier =
    q.modifier.map fun m => String.ofList (m.sign.symbol :: Decimal.ofNat m.value)
  derivation : Breakdown.text? r.rolls q = some r.breakdown.toList

/-- An outcome agrees with the notation it keeps, and keeps the notation that
was offered.  Of a failure this is said where a text was offered, or where the
settings provided one. -/
def Outcome.Audited (settings : Settings) (v : Value) : Outcome → Prop
  | success r => settings.standIn v = .text r.spelling ∧ ∃ q, r.Audited q
  | failure f => ∀ s, settings.standIn v = .text s →
      f.spelling = s ∧ ∃ r, Reading.ofText f.spelling = .refused r ∧ r.message = f.error

/-! ## From rolls to runs -/

namespace Roll

variable {σ κ : Type} [DieSource σ] [Clock κ] {settings : Settings} {v : Value}
  {s after : Supply σ κ}

theorem audited_successOf (hfair : DieSource.Fair σ) {spelling : String} {t : Throw}
    {rolls : List Int} {dice dice' : σ} {derivation : List Char} {time : Timestamp}
    (haccepts : Accepts settings v spelling t)
    (hdice : DieSource.drawEach (List.replicate t.count t.sides) dice = .ok rolls dice')
    (hderivation : Breakdown.text? rolls t = some derivation) :
    (successOf spelling t rolls derivation time).Audited t := by
  have hlength : rolls.length = t.count := by
    rw [DieSource.length_of_drawEach hdice, List.length_replicate]
  have hfaces := DieSource.bounds_of_throw hfair hdice
  obtain ⟨hleast, hgreatest⟩ := sum_bounds hfaces
  rw [hlength] at hleast hgreatest
  exact {
    reads := haccepts.2
    length_rolls := hlength
    faces := hfaces
    total_eq := rfl
    least_total := Int.add_le_add_right hleast _
    greatest_total := Int.add_le_add_right hgreatest _
    modifier_eq := rfl
    derivation := by
      simp only [successOf, String.toList_ofList]
      exact hderivation }

/-- What a completed roll of fair dice ends in agrees with its notation. -/
theorem audited_of_course (hfair : DieSource.Fair σ) {o : Outcome}
    (h : Course settings v s (.ok o) after) : o.Audited settings v := by
  cases h with
  | rolled haccepts hdice _ hderivation _ =>
      exact ⟨haccepts.1, _, audited_successOf hfair haccepts hdice hderivation⟩
  | @refused literal r time clock hrefuses hnow =>
      -- A text is refused under its own spelling, so that is what is read again.
      intro text htext
      have hread : Reading.ofText text = .refused r := by
        have hasked := hrefuses.2
        rw [asked, htext, Reading.ofValue] at hasked
        exact Except.ok.inj hasked
      have hspelling : r.spelling = text := Reading.spelling_of_refused hread
      refine ⟨hspelling, r, ?_, rfl⟩
      rw [hspelling]
      exact hread

end Roll

/-- What holds between each value and what its completed roll ended in holds
along the two lists. -/
theorem forall₂_of_map_ending {σ κ : Type} {R : Value → Outcome → Prop}
    {tries : List (Attempt σ κ)} {os : List Outcome}
    (h : ∀ a ∈ tries, ∀ o, a.ending = .ok o → R a.offered o)
    (hending : tries.map Attempt.ending = os.map .ok) :
    List.Forall₂ R (tries.map Attempt.offered) os := by
  induction tries generalizing os with
  | nil =>
      rw [List.map_nil, List.nil_eq, List.map_eq_nil_iff] at hending
      rw [hending]
      exact .nil
  | cons a rest ih =>
      rw [List.map_cons, eq_comm, List.map_eq_cons_iff] at hending
      obtain ⟨o, os', rfl, ho, hos⟩ := hending
      exact .cons (h a List.mem_cons_self o ho.symm)
        (ih (fun b hb => h b (List.mem_cons_of_mem a hb)) hos.symm)

namespace Call

variable {σ κ : Type} [DieSource σ] [Clock κ]

/-- **Every result can be audited.**  Let dice show their faces, if they can be
rolled.  Then each answered call of a run reports one outcome for each value
that it offers, and each outcome agrees with the notation it keeps. -/
theorem answers_audited (hfair : DieSource.Fair σ) (settings : Settings) (cs : List Call)
    (s : Supply σ κ) :
    ∀ p ∈ cs.zip (answers settings cs s).1, ∀ a, p.2 = .ok a →
      ∃ vs, p.1.offers = .ok vs ∧ List.Forall₂ (Outcome.Audited settings) vs a.results := by
  intro p hp a ha
  obtain ⟨-, found, hfound⟩ := exists_answer_of_mem_zip hp
  obtain ⟨vs, hoffers, rfl, hending⟩ := attempts_of_answer_ok (hfound.symm.trans ha)
  refine ⟨_, hoffers, forall₂_of_map_ending (fun b hb o ho => ?_) hending⟩
  have hcourse := course_of_mem_attempts hb
  rw [ho] at hcourse
  exact Roll.audited_of_course hfair hcourse

/-- Dice rolled from a seed are audited. -/
theorem answers_audited_of_seed :
    let s : Supply Twister Stopped := ⟨Twister.ofSeed 7, ⟨.epoch⟩, []⟩
    let batch := rollMany (.list [.null, .text "oops", .text "02D6-0"])
    ∃ a, (answers .defaults [batch] s).1 = [.ok a] ∧ ∃ vs, batch.offers = .ok vs ∧
      List.Forall₂ (Outcome.Audited .defaults) vs a.results := by
  intro s batch
  have hanswered : ∃ a, (batch.answer .defaults s).1 = .ok a :=
    answered_of_fair DieSource.fair_twister DieSource.tireless_twister Clock.tireless_stopped rfl
      (by simp [Value.literal?]) s
  obtain ⟨a, ha⟩ := hanswered
  have hrun : (answers .defaults [batch] s).1 = [.ok a] := by
    rw [answers_singleton, ha]
  have hmem : (batch, .ok a) ∈ [batch].zip (answers .defaults [batch] s).1 := by
    rw [hrun]
    exact List.mem_cons_self
  exact ⟨a, hrun, answers_audited DieSource.fair_twister .defaults [batch] s _ hmem a rfl⟩

end Call

end Tabletop
