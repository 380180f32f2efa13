import Tabletop.Proofs.Fairness

/-!
# Tabletop.Proofs.SideSequence

The dice depend only on the sides asked for.

Whatever a run of calls looks like, the numbers in its answers are those that
its source of dice shows when the dice asked for are rolled one after the
other (`Call.drawEach_sideSequence`).  What is offered beside them, how it is
spelled and grouped, the modifiers, the settings and the clock do not matter,
so two runs that ask for the same sides show the same numbers.

This holds where each call that asks for dice is answered.  With dice and a
clock that never fail, only an integer too long to be written keeps such a
call from it (`Call.answered_iff_of_tireless`); its dice may then have been
rolled and are not shown.
-/

namespace Tabletop

open Text

/-! ## Sides asked for and numbers shown -/

/-- The sides of the dice that an offered value asks for, die by die. -/
def Roll.sides (settings : Settings) (v : Value) : List Nat :=
  match asked settings v with
  | .ok (.accepted t) => List.replicate t.count t.sides
  | _ => []

/-- The sides of the dice that a call asks for, die by die. -/
def Call.sides (settings : Settings) (c : Call) : List Nat :=
  match c.offers with
  | .ok vs => vs.flatMap (Roll.sides settings)
  | .error _ => []

/-- The dice that an outcome shows. -/
def Outcome.rolls : Outcome → List Int
  | success s => s.rolls
  | failure _ => []

/-- The dice shown by what a call ends in. -/
def Answer.rolls : Except Fault Answer → List Int
  | .ok a => a.results.flatMap Outcome.rolls
  | .error _ => []

variable {σ κ : Type} [DieSource σ] [Clock κ]

namespace Call

/-- The sides of the dice that a run asks for, die by die. -/
def sideSequence (settings : Settings) (cs : List Call) : List Nat := cs.flatMap (sides settings)

/-- The dice shown in the answers of a run. -/
def shown (settings : Settings) (cs : List Call) (s : Supply σ κ) : List Int :=
  (answers settings cs s).1.flatMap Answer.rolls

/-- Each call that asks for dice is answered. -/
def Answered (settings : Settings) (cs : List Call) (s : Supply σ κ) : Prop :=
  ∀ p ∈ cs.zip (answers settings cs s).1, p.1.sides settings ≠ [] → ∃ a, p.2 = .ok a

end Call

/-! ## Dice rolled in two parts -/

namespace DieSource

theorem drawEach_append_of_ok {xs ys : List Nat} {s t u : σ} {ns ms : List Int}
    (hns : drawEach xs s = .ok ns t) (hms : drawEach ys t = .ok ms u) :
    drawEach (xs ++ ys) s = .ok (ns ++ ms) u := by
  rw [drawEach_append, Act.bind_of_ok hns, Act.bind_of_ok hms]
  rfl

/-- Where more dice are rolled, the first ones show what they show alone. -/
theorem prefix_of_drawEach {xs ys : List Nat} {s t u : σ} {ns ms : List Int}
    (hxs : xs <+: ys) (hns : drawEach xs s = .ok ns t) (hms : drawEach ys s = .ok ms u) :
    ns <+: ms := by
  obtain ⟨zs, rfl⟩ := hxs
  rw [drawEach_append, Act.bind_of_ok hns] at hms
  obtain ⟨ks, t', hks, hms⟩ := Act.exists_of_bind_eq_ok hms
  cases hms
  exact List.prefix_append ns ks

end DieSource

/-! ## From rolls to runs -/

namespace Roll

variable {settings : Settings} {v : Value} {s after : Supply σ κ}

/-- A completed roll shows the dice that its value asks for. -/
theorem drawEach_of_course {o : Outcome} (h : Course settings v s (.ok o) after) :
    DieSource.drawEach (sides settings v) s.dice = .ok o.rolls after.dice := by
  cases h with
  | refused hrefuses _ =>
      simp only [sides, hrefuses.2]
      rfl
  | rolled haccepts hdice _ _ _ =>
      simp only [sides, haccepts.asked_eq]
      exact hdice

/-- A roll of a value that asks for no dice leaves them alone. -/
theorem dice_of_course_of_sides_eq_nil {ending : Except Fault Outcome}
    (hsides : sides settings v = []) (h : Course settings v s ending after) :
    after.dice = s.dice := by
  -- Even the smallest throw asks for a die.
  have habsurd : ∀ {spelling t}, ¬Accepts settings v spelling t := by
    intro spelling t haccepts
    have hcount : 1 ≤ t.count := t.count_admitted.1
    simp only [sides, haccepts.asked_eq, List.replicate_eq_nil_iff] at hsides
    omega
  cases h with
  | unwritable | refused | refusedTimeless => rfl
  | diceless haccepts | unlogged haccepts | underived haccepts | rolledTimeless haccepts
  | rolled haccepts => exact absurd haccepts habsurd

end Roll

/-- Completed rolls in sequence show the dice that their values ask for. -/
theorem Follow.drawEach_sides {settings : Settings} {tries : List (Attempt σ κ)}
    {os : List Outcome} {s s' : Supply σ κ} (h : Follow s tries s')
    (hcourse : ∀ a ∈ tries, Roll.Course settings a.offered a.before a.ending a.after)
    (hending : tries.map Attempt.ending = os.map .ok) :
    DieSource.drawEach ((tries.map Attempt.offered).flatMap (Roll.sides settings)) s.dice =
      .ok (os.flatMap Outcome.rolls) s'.dice := by
  induction tries generalizing s os with
  | nil =>
      cases h
      rw [List.map_nil, List.nil_eq, List.map_eq_nil_iff] at hending
      rw [hending]
      rfl
  | cons a rest ih =>
      obtain ⟨rfl, hrest⟩ := h
      rw [List.map_cons, eq_comm, List.map_eq_cons_iff] at hending
      obtain ⟨o, os', rfl, ho, hos⟩ := hending
      have ha := hcourse a List.mem_cons_self
      rw [← ho] at ha
      rw [List.map_cons, List.flatMap_cons, List.flatMap_cons]
      exact DieSource.drawEach_append_of_ok (Roll.drawEach_of_course ha)
        (ih hrest (fun b hb => hcourse b (List.mem_cons_of_mem a hb)) hos.symm)

namespace Call

variable {settings : Settings}

/-- A call that is answered, if it asks for dice, shows the dice that it asks
for. -/
theorem drawEach_sides {c : Call} {s : Supply σ κ}
    (h : c.sides settings ≠ [] → ∃ a, (c.answer settings s).1 = .ok a) :
    DieSource.drawEach (c.sides settings) s.dice =
      .ok (Answer.rolls (c.answer settings s).1) (c.answer settings s).2.dice := by
  have hfollow := (answer_attempts settings c s).2
  cases hanswer : (c.answer settings s).1 with
  | ok a =>
      obtain ⟨vs, hoffers, hoffered, hending⟩ := attempts_of_answer_ok hanswer
      simp only [sides, hoffers, ← hoffered]
      exact hfollow.drawEach_sides (fun a ha => course_of_mem_attempts ha) hending
  | error e =>
      -- A call that fails must have asked for no dice; then none were rolled.
      have hsides : c.sides settings = [] := by
        apply Classical.byContradiction
        intro hsides
        obtain ⟨a, ha⟩ := h hsides
        rw [hanswer] at ha
        contradiction
      have hdice : (c.answer settings s).2.dice = s.dice := by
        refine hfollow.kept Supply.dice fun a ha => ?_
        refine Roll.dice_of_course_of_sides_eq_nil ?_ (course_of_mem_attempts ha)
        obtain ⟨vs, hoffers, ha⟩ := exists_offers_of_mem_attempts ha
        simp only [sides, hoffers] at hsides
        exact List.flatMap_eq_nil_iff.mp hsides _ (Roll.offered_mem_of_mem_attempts ha)
      rw [hsides, hdice]
      rfl

/-- The numbers in the answers of a run are those that its source of dice
shows for the dice asked for. -/
theorem drawEach_sideSequence {cs : List Call} {s : Supply σ κ} (h : Answered settings cs s) :
    DieSource.drawEach (sideSequence settings cs) s.dice =
      .ok (shown settings cs s) (answers settings cs s).2.dice := by
  induction cs generalizing s with
  | nil => rfl
  | cons c rest ih =>
      simp only [Answered, answers, List.zip_cons_cons, List.forall_mem_cons] at h
      simp only [sideSequence, shown, answers, List.flatMap_cons]
      exact DieSource.drawEach_append_of_ok (drawEach_sides h.1) (ih h.2)

/-- A call that asks for dice offers something. -/
theorem exists_offers_of_sides_ne_nil {c : Call} (h : c.sides settings ≠ []) :
    ∃ vs, c.offers = .ok vs := by
  cases hoffers : c.offers with
  | ok vs => exact ⟨vs, rfl⟩
  | error e =>
      simp only [sides, hoffers] at h
      contradiction

/-- With dice and a clock that never fail, only an integer that is too long
keeps a call that asks for dice from being answered. -/
theorem answered_iff_of_tireless (hdice : DieSource.Tireless σ) (hclock : Clock.Tireless κ)
    {cs : List Call} {s : Supply σ κ} :
    Answered settings cs s ↔ ∀ p ∈ cs.zip (answers settings cs s).1,
      p.1.sides settings ≠ [] → p.2 ≠ .error .oversizedInteger := by
  constructor
  · intro h p hp hsides
    obtain ⟨a, ha⟩ := h p hp hsides
    simp [ha]
  · intro h p hp hsides
    obtain ⟨-, found, hfound⟩ := exists_answer_of_mem_zip hp
    cases hending : p.2 with
    | ok a => exact ⟨a, rfl⟩
    | error e =>
        obtain ⟨vs, hoffers⟩ := exists_offers_of_sides_ne_nil hsides
        have he := fault_of_tireless hdice hclock hoffers (hfound.symm.trans hending)
        rw [he] at hending
        exact absurd hending (h p hp hsides)

/-- With fair dice, and dice and a clock that never fail, each call is answered
that offers values that can be written down. -/
theorem answered_run_of_fair (hfair : DieSource.Fair σ) (hdice : DieSource.Tireless σ)
    (hclock : Clock.Tireless κ) {cs : List Call}
    (hcs : ∀ c ∈ cs, ∀ vs, c.offers = .ok vs → ∀ v ∈ vs, v.literal?.isSome) (s : Supply σ κ) :
    Answered settings cs s := by
  intro p hp hsides
  obtain ⟨hmem, found, hfound⟩ := exists_answer_of_mem_zip hp
  obtain ⟨vs, hoffers⟩ := exists_offers_of_sides_ne_nil hsides
  rw [hfound]
  exact answered_of_fair hfair hdice hclock hoffers (hcs _ hmem vs hoffers) found

/-! ## Two runs -/

/-- **The dice depend only on the sides asked for.**  Take two runs from the
same state of a source of dice, each call that asks for dice being answered;
calls, settings and clocks may differ.  If the sides asked for in the first
run begin those asked for in the second, the numbers shown in the first begin
those shown in the second, one for each die asked for; if the sides are the
same, so are the states that the source of dice is left in. -/
theorem rolls_depend_on_sides {κ' : Type} [Clock κ'] {settings' : Settings} {cs ds : List Call}
    {s : Supply σ κ} {s' : Supply σ κ'} (hdice : s.dice = s'.dice)
    (hcs : Answered settings cs s) (hds : Answered settings' ds s') :
    (sideSequence settings cs <+: sideSequence settings' ds →
      shown settings cs s = (shown settings' ds s').take (sideSequence settings cs).length ∧
        (shown settings cs s).length = (sideSequence settings cs).length) ∧
      (sideSequence settings cs = sideSequence settings' ds →
        (answers settings cs s).2.dice = (answers settings' ds s').2.dice) := by
  have hrun := drawEach_sideSequence hcs
  have hrun' := drawEach_sideSequence hds
  rw [← hdice] at hrun'
  constructor
  · intro hprefix
    have hlength := DieSource.length_of_drawEach hrun
    have hrolls := DieSource.prefix_of_drawEach hprefix hrun hrun'
    rw [List.prefix_iff_eq_take, hlength] at hrolls
    exact ⟨hrolls, hlength⟩
  · intro hsides
    rw [hsides] at hrun
    exact (EStateM.Result.ok.inj (hrun.symm.trans hrun')).2

/-- Three dice rolled at once are those of a batch with a missing notation, one
that is refused and one with a modifier, at a table with other settings. -/
theorem rolls_depend_on_sides_of_batch :
    let s : Supply Twister Stopped := ⟨Twister.ofSeed 7, ⟨.epoch⟩, []⟩
    let settings := { Settings.defaults with fallback := "D06+1" }
    let batch := rollMany (.list [.null, .text "oops", .text "02D6-1"])
    (shown .defaults [roll (.text "3d6")] s = (shown settings [batch, rollD20] s).take 3 ∧
      (shown .defaults [roll (.text "3d6")] s).length = 3) ∧
    (answers .defaults [roll (.text "3d6")] s).2.dice = (answers settings [batch] s).2.dice := by
  intro s settings batch
  have hanswered : ∀ (settings : Settings) (cs : List Call),
      (∀ c ∈ cs, ∀ vs, c.offers = .ok vs → ∀ v ∈ vs, v.literal?.isSome) →
        Answered settings cs s := fun settings cs hcs =>
    answered_run_of_fair DieSource.fair_twister DieSource.tireless_twister Clock.tireless_stopped
      hcs s
  have hwhole := hanswered .defaults [roll (.text "3d6")] (by simp [offers, Value.literal?])
  have hbatch := hanswered settings [batch]
    (by simp [batch, offers, Value.literal?, Value.elements?])
  have hmore := hanswered settings [batch, rollD20]
    (by simp [batch, offers, Value.literal?, Value.elements?])
  exact ⟨(rolls_depend_on_sides rfl hwhole hmore).1 (by decide),
    (rolls_depend_on_sides rfl hwhole hbatch).2 (by decide)⟩

/-! ## Dice that are rolled and not shown -/

/-- A script of these numbers, beside a clock that never moves. -/
def dealt (ns : List Int) : Supply Script Stopped := ⟨⟨ns, []⟩, ⟨.epoch⟩, []⟩

/-- A die that is short enough is shown. -/
theorem shown_of_short_die {n : Int} (hn : Decimal.Fits n) (ns : List Int) :
    shown .defaults [roll (.text "1d6")] (dealt (n :: ns)) = [n] := by
  have hdraw : DieSource.draw 6 (dealt (n :: ns)).dice = .ok n ⟨ns, [(1, 6)]⟩ := rfl
  have hrun := Act.bind_of_ok (f := fun o => pure (Answer.outcome o))
    (Roll.rollText_of_die hdraw hn rfl)
  simp only [shown, answers, answer, run, Roll.roll, hrun]
  rfl

/-- Dice whose sum is too long are not shown, short as they and their total
may be. -/
theorem answer_of_long_sum {n : Int} (hn : Decimal.Fits n) (hlong : ¬Decimal.Fits (n + 1)) :
    ((roll (.text "2d6-1")).answer .defaults (dealt [n, 1])).1 = .error .oversizedInteger := by
  let t : Throw := ⟨2, 6, some ⟨.minus, 1, by decide⟩, by decide, by decide⟩
  have hread : Reading.ofText "2d6-1" = .accepted t := by decide
  have hdice : DieSource.drawEach (List.replicate t.count t.sides) (dealt [n, 1]).dice =
      .ok [n, 1] ⟨[], [(1, 6), (1, 6)]⟩ := rfl
  have htotal : diceSum [n, 1] + t.offset = n := by
    simp only [t, diceSum, Throw.offset, Option.elim_some, Modifier.signed, Sign.factor]
    omega
  have hentry : ∀ m ∈ (Roll.entryOf "2d6-1" t [n, 1]).numbers, Decimal.Fits m := by
    have hone : Decimal.Fits 1 := by decide
    rw [Roll.entryOf, htotal]
    simp [Entry.numbers, hn, hone]
  have hderivation : Breakdown.text? [n, 1] t = none :=
    if_neg fun hfits => hlong (hfits (n + 1) (by simp [Breakdown.numbers, diceSum]))
  have hroll := Roll.perform_of_no_derivation hdice hentry hderivation
  have hrun := Act.bind_of_error (f := fun o => pure (Answer.outcome o)) hroll
  simp only [answer, run, Roll.roll, Roll.rollText, hread, hrun]

/-- The sides asked for need not settle what is shown, though neither dice nor
clock fail: not where two dice add up to an integer that is too long. -/
theorem shown_despite_same_sides :
    let long : Int := Decimal.tooLong - 1
    let single := [roll (.text "1d6")]
    let summed := [roll (.text "2d6-1")]
    sideSequence .defaults single <+: sideSequence .defaults summed ∧
      (answers .defaults summed (dealt [long, 1])).1 = [.error .oversizedInteger] ∧
      shown .defaults single (dealt [long, 1]) = [long] ∧
      shown .defaults summed (dealt [long, 1]) = [] := by
  intro long single summed
  have hlong : Decimal.Fits long := Decimal.fits_tooLong_sub_one
  have hsummed : (answers .defaults summed (dealt [long, 1])).1 = [.error .oversizedInteger] := by
    have hnext : ¬Decimal.Fits (long + 1) := by
      rw [Int.sub_add_cancel]
      exact Decimal.not_fits_tooLong
    rw [answers_singleton, answer_of_long_sum hlong hnext]
  refine ⟨by decide, hsummed, shown_of_short_die hlong _, ?_⟩
  rw [shown, hsummed]
  rfl

end Call

end Tabletop
