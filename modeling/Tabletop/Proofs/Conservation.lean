import Tabletop.Proofs.Attempts

/-!
# Tabletop.Proofs.Conservation

Nothing a run draws on is lost or made up.

The numbers of a script, the times of a schedule and the entries of the log
are followed through a run of any calls, failing ones included.  What a
single attempt took is read off the supplies before and after it
(`Attempt.drawn`, `Attempt.requests`, `Attempt.entries`); `Accounted` says
what that comes to, by what the value offered asks for and by how many
numbers the script has left.

* `drawEach_script_ok`, `drawEach_script_error`: what equal dice take from a
  script that holds enough numbers, and from one that does not.
* `accounted_of_course`: every attempt is accounted for.
* `run_conserves`: the attempts of a run add up.
-/

namespace Tabletop

open Text

/-! ## Scripts and schedules -/

/-- Dice that a script can serve take its first numbers, one request each. -/
theorem drawEach_script_of_le {xs : List Nat} {script : Script}
    (h : xs.length ≤ script.left.length) :
    DieSource.drawEach xs script = .ok (script.left.take xs.length)
      ⟨script.left.drop xs.length, script.calls ++ xs.map fun sides => (1, sides)⟩ := by
  induction xs generalizing script with
  | nil => simp [DieSource.drawEach, pure, EStateM.pure]
  | cons x xs ih =>
      obtain ⟨left, calls⟩ := script
      cases left with
      | nil => contradiction
      | cons n left =>
          have hx : DieSource.draw x (⟨n :: left, calls⟩ : Script) =
              .ok n ⟨left, calls ++ [(1, x)]⟩ := rfl
          have hxs := @ih ⟨left, calls ++ [(1, x)]⟩ (Nat.le_of_succ_le_succ h)
          rw [DieSource.drawEach, Act.bind_of_ok hx, Act.bind_of_ok hxs]
          simp [pure, EStateM.pure]

/-- Equal dice that a script cannot serve take all it has, and one more is
asked for. -/
theorem drawEach_script_of_lt {sides count : Nat} {script : Script}
    (h : script.left.length < count) :
    DieSource.drawEach (List.replicate count sides) script = .error (.outOfDice sides)
      ⟨[], script.calls ++ List.replicate (script.left.length + 1) (1, sides)⟩ := by
  induction count generalizing script with
  | zero => contradiction
  | succ count ih =>
      obtain ⟨left, calls⟩ := script
      cases left with
      | nil =>
          have hx : DieSource.draw sides (⟨[], calls⟩ : Script) =
              .error (.outOfDice sides) ⟨[], calls ++ [(1, sides)]⟩ := rfl
          rw [List.replicate_succ, DieSource.drawEach, Act.bind_of_error hx]
          rfl
      | cons n left =>
          have hx : DieSource.draw sides (⟨n :: left, calls⟩ : Script) =
              .ok n ⟨left, calls ++ [(1, sides)]⟩ := rfl
          have hxs := @ih ⟨left, calls ++ [(1, sides)]⟩ (Nat.lt_of_succ_lt_succ h)
          rw [List.replicate_succ, DieSource.drawEach, Act.bind_of_ok hx, Act.bind_of_error hxs]
          simp [List.replicate_succ]

theorem drawEach_script_ok {sides count : Nat} {script script' : Script} {rolls : List Int}
    (h : DieSource.drawEach (List.replicate count sides) script = .ok rolls script') :
    count ≤ script.left.length ∧ rolls = script.left.take count ∧
      script' = ⟨script.left.drop count, script.calls ++ List.replicate count (1, sides)⟩ := by
  by_cases hcount : count ≤ script.left.length
  · rw [drawEach_script_of_le (by simpa using hcount)] at h
    cases h
    simp [hcount]
  · rw [drawEach_script_of_lt (Nat.lt_of_not_le hcount)] at h
    contradiction

theorem drawEach_script_error {sides count : Nat} {script script' : Script} {e : Fault}
    (h : DieSource.drawEach (List.replicate count sides) script = .error e script') :
    script.left.length < count ∧ e = .outOfDice sides ∧
      script' = ⟨[], script.calls ++ List.replicate (script.left.length + 1) (1, sides)⟩ := by
  by_cases hcount : count ≤ script.left.length
  · rw [drawEach_script_of_le (by simpa using hcount)] at h
    contradiction
  · rw [drawEach_script_of_lt (Nat.lt_of_not_le hcount)] at h
    cases h
    exact ⟨Nat.lt_of_not_le hcount, rfl, rfl⟩

/-- A schedule shows its first time and moves on. -/
theorem now_schedule_ok {clock clock' : Schedule} {time : Timestamp}
    (h : Clock.now clock = .ok time clock') : clock.left = time :: clock'.left := by
  obtain ⟨left⟩ := clock
  cases left with
  | nil => contradiction
  | cons t left =>
      cases h
      rfl

/-- An empty schedule fails and stays as it is. -/
theorem now_schedule_error {clock clock' : Schedule} {e : Fault}
    (h : Clock.now clock = .error e clock') :
    clock.left = [] ∧ clock' = clock ∧ e = .outOfTime := by
  obtain ⟨left⟩ := clock
  cases left with
  | nil =>
      cases h
      exact ⟨rfl, rfl, rfl⟩
  | cons t left => contradiction

/-! ## What an attempt takes and leaves -/

/-- The time an outcome bears. -/
def Outcome.timestamp : Outcome → Timestamp
  | success s => s.timestamp
  | failure f => f.timestamp

namespace Attempt

/-- The numbers that an attempt took from the script. -/
def drawn (a : Attempt Script Schedule) : List Int :=
  a.before.dice.left.take (a.before.dice.left.length - a.after.dice.left.length)

/-- The bounds of the dice that an attempt asked for. -/
def requests (a : Attempt Script Schedule) : List (Nat × Nat) :=
  a.after.dice.calls.drop a.before.dice.calls.length

/-- The entries that an attempt added to the log. -/
def entries {σ κ : Type} (a : Attempt σ κ) : List Entry := a.after.log.drop a.before.log.length

/-- The time of an attempt that was completed. -/
def times {σ κ : Type} (a : Attempt σ κ) : List Timestamp :=
  match a.ending with
  | .ok o => [o.timestamp]
  | .error _ => []

theorem drawn_eq {a : Attempt Script Schedule} {ns : List Int}
    (h : a.before.dice.left = ns ++ a.after.dice.left) : a.drawn = ns := by
  rw [drawn, h, List.length_append, Nat.add_sub_cancel, List.take_left]

theorem requests_eq {a : Attempt Script Schedule} {bounds : List (Nat × Nat)}
    (h : a.after.dice.calls = a.before.dice.calls ++ bounds) : a.requests = bounds := by
  rw [requests, h, List.drop_left]

theorem entries_eq {σ κ : Type} {a : Attempt σ κ} {es : List Entry}
    (h : a.after.log = a.before.log ++ es) : a.entries = es := by
  rw [entries, h, List.drop_left]

/-- What an attempt took from a script and a schedule and wrote in the log,
by what the value offered asks for.

* A value that cannot be written down takes nothing.
* One that is refused draws no die and is logged, whether there is a time to
  show or not.
* A throw of more dice than the script has numbers takes them all, asks for
  one more, and fails unlogged.
* A throw of no more takes one number for each of its dice.  It is logged
  unless a die or the total is too long, even if it fails afterwards; if it
  succeeds its dice are the numbers taken. -/
def Accounted (settings : Settings) (a : Attempt Script Schedule) : Prop :=
  match Roll.asked settings a.offered with
  | .error e => a.drawn = [] ∧ a.requests = [] ∧ a.entries = [] ∧ a.ending = .error e
  | .ok (.refused r) =>
    a.drawn = [] ∧ a.requests = [] ∧
      (∃ literal, (settings.standIn a.offered).literal? = some literal ∧
        a.entries = [.rejected literal r.message]) ∧
      (∀ o, a.ending = .ok o → ∃ time, o = .failure ⟨r.spelling, r.message, time⟩) ∧
      ∀ e, a.ending = .error e → e = .outOfTime ∧ a.before.clock.left = []
  | .ok (.accepted t) =>
    if a.before.dice.left.length < t.count then
      a.drawn = a.before.dice.left ∧
        a.requests = List.replicate (a.before.dice.left.length + 1) (1, t.sides) ∧
        a.entries = [] ∧ a.ending = .error (.outOfDice t.sides)
    else
      a.drawn = a.before.dice.left.take t.count ∧ a.drawn.length = t.count ∧
        a.requests = List.replicate t.count (1, t.sides) ∧
        (∃ spelling, settings.standIn a.offered = .text spelling ∧
          a.entries =
            if ∀ n ∈ a.drawn ++ [diceSum a.drawn + t.offset], Decimal.Fits n then
              [.rolled spelling a.drawn (diceSum a.drawn + t.offset)]
            else []) ∧
        (∀ o, a.ending = .ok o → ∃ s, o = .success s ∧ s.rolls = a.drawn) ∧
        ∀ e, a.ending = .error e →
          e = .outOfTime ∧ a.before.clock.left = [] ∨
          e = .oversizedInteger ∧ ¬∀ n ∈ Breakdown.numbers a.drawn t, Decimal.Fits n

section Course

variable {settings : Settings} {a : Attempt Script Schedule}

/-- What an attempt took from the script was in front of what it left there,
and its requests were added to those before. -/
theorem dice_of_course (h : Roll.Course settings a.offered a.before a.ending a.after) :
    a.before.dice.left = a.drawn ++ a.after.dice.left ∧
      a.after.dice.calls = a.before.dice.calls ++ a.requests := by
  have hbooks : ∃ ns bounds, a.before.dice.left = ns ++ a.after.dice.left ∧
      a.after.dice.calls = a.before.dice.calls ++ bounds := by
    obtain ⟨offered, before, ending, after⟩ := a
    change Roll.Course settings offered before ending after at h
    cases h with
    | unwritable => exact ⟨[], [], by simp⟩
    | refused => exact ⟨[], [], by simp⟩
    | refusedTimeless => exact ⟨[], [], by simp⟩
    | diceless _ hdice =>
        obtain ⟨-, -, rfl⟩ := drawEach_script_error hdice
        exact ⟨_, _, (List.append_nil _).symm, rfl⟩
    | unlogged _ hdice | underived _ hdice | rolledTimeless _ hdice | rolled _ hdice =>
        obtain ⟨-, -, rfl⟩ := drawEach_script_ok hdice
        exact ⟨_, _, (List.take_append_drop _ _).symm, rfl⟩
  obtain ⟨ns, bounds, hleft, hcalls⟩ := hbooks
  rw [drawn_eq hleft, requests_eq hcalls]
  exact ⟨hleft, hcalls⟩

/-- A completed attempt took the time it bears from the schedule, and any
other took none. -/
theorem clock_of_course (h : Roll.Course settings a.offered a.before a.ending a.after) :
    a.before.clock.left = a.times ++ a.after.clock.left := by
  obtain ⟨offered, before, ending, after⟩ := a
  change Roll.Course settings offered before ending after at h
  cases h with
  | unwritable => rfl
  | diceless => rfl
  | unlogged => rfl
  | underived => rfl
  | refused _ hnow => exact now_schedule_ok hnow
  | rolled _ _ _ _ hnow => exact now_schedule_ok hnow
  | refusedTimeless _ hnow =>
      obtain ⟨-, rfl, -⟩ := now_schedule_error hnow
      rfl
  | rolledTimeless _ _ _ _ hnow =>
      obtain ⟨-, rfl, -⟩ := now_schedule_error hnow
      rfl

/-- What an attempt wrote stands behind what was in the log. -/
theorem log_of_course {σ κ : Type} [DieSource σ] [Clock κ] {a : Attempt σ κ}
    (h : Roll.Course settings a.offered a.before a.ending a.after) :
    a.after.log = a.before.log ++ a.entries := by
  have hlog : ∃ es, a.after.log = a.before.log ++ es := by
    obtain ⟨offered, before, ending, after⟩ := a
    change Roll.Course settings offered before ending after at h
    cases h with
    | unwritable | diceless | unlogged => exact ⟨[], (List.append_nil _).symm⟩
    | refused | refusedTimeless | underived | rolledTimeless | rolled => exact ⟨_, rfl⟩
  obtain ⟨es, hes⟩ := hlog
  rw [entries_eq hes]
  exact hes

theorem accounted_of_refused {literal : List Char} {r : Refusal}
    (hrefuses : Roll.Refuses settings a.offered literal r) (hdice : a.after.dice = a.before.dice)
    (hlog : a.after.log = a.before.log ++ [.rejected literal r.message])
    (hok : ∀ o, a.ending = .ok o → ∃ time, o = .failure ⟨r.spelling, r.message, time⟩)
    (herror : ∀ e, a.ending = .error e → e = .outOfTime ∧ a.before.clock.left = []) :
    Accounted settings a := by
  have hdrawn : a.drawn = [] := drawn_eq (by rw [hdice]; rfl)
  have hrequests : a.requests = [] := requests_eq (by rw [hdice, List.append_nil])
  simp only [Accounted, hrefuses.2]
  exact ⟨hdrawn, hrequests, ⟨literal, hrefuses.1, entries_eq hlog⟩, hok, herror⟩

theorem accounted_of_rolled {spelling : String} {t : Throw} {rolls : List Int}
    (haccepts : Roll.Accepts settings a.offered spelling t)
    (hdice : DieSource.drawEach (List.replicate t.count t.sides) a.before.dice =
      .ok rolls a.after.dice)
    (hlog : a.after.log = a.before.log ++
      if ∀ n ∈ (Roll.entryOf spelling t rolls).numbers, Decimal.Fits n then
        [Roll.entryOf spelling t rolls]
      else [])
    (hok : ∀ o, a.ending = .ok o → ∃ s, o = .success s ∧ s.rolls = rolls)
    (herror : ∀ e, a.ending = .error e →
      e = .outOfTime ∧ a.before.clock.left = [] ∨
      e = .oversizedInteger ∧ ¬∀ n ∈ Breakdown.numbers rolls t, Decimal.Fits n) :
    Accounted settings a := by
  obtain ⟨hcount, hrolls, hafter⟩ := drawEach_script_ok hdice
  have hdrawn : a.drawn = rolls :=
    drawn_eq (by rw [hrolls, hafter, List.take_append_drop])
  have hrequests : a.requests = List.replicate t.count (1, t.sides) :=
    requests_eq (by rw [hafter])
  have hlength : rolls.length = t.count := by
    rw [hrolls, List.length_take, Nat.min_eq_left hcount]
  simp only [Accounted, haccepts.asked_eq, if_neg (Nat.not_lt_of_le hcount), hdrawn, hrequests]
  exact ⟨hrolls, hlength, trivial, ⟨spelling, haccepts.1, entries_eq hlog⟩, hok, herror⟩

/-- **Every attempt is accounted for**, whatever course it takes. -/
theorem accounted_of_course (h : Roll.Course settings a.offered a.before a.ending a.after) :
    Accounted settings a := by
  obtain ⟨offered, before, ending, after⟩ := a
  change Roll.Course settings offered before ending after at h
  cases h with
  | unwritable hasked =>
      simp only [Accounted, hasked]
      exact ⟨drawn_eq rfl, requests_eq (List.append_nil _).symm,
        entries_eq (List.append_nil _).symm, trivial⟩
  | refused hrefuses _ =>
      refine accounted_of_refused hrefuses rfl rfl (fun o ho => ?_) (fun e he => by contradiction)
      cases ho
      exact ⟨_, rfl⟩
  | refusedTimeless hrefuses hnow =>
      refine accounted_of_refused hrefuses rfl rfl (fun o ho => by contradiction) (fun e he => ?_)
      obtain ⟨hleft, -, htime⟩ := now_schedule_error hnow
      cases he
      exact ⟨htime, hleft⟩
  | diceless haccepts hdice =>
      obtain ⟨hcount, rfl, rfl⟩ := drawEach_script_error hdice
      simp only [Accounted, haccepts.asked_eq, if_pos hcount]
      exact ⟨drawn_eq (List.append_nil _).symm, requests_eq rfl,
        entries_eq (List.append_nil _).symm, trivial⟩
  | unlogged haccepts hdice hfits =>
      refine accounted_of_rolled haccepts hdice ?_ (fun o ho => by contradiction) (fun e he => ?_)
      · rw [if_neg hfits, List.append_nil]
      · cases he
        exact .inr ⟨rfl, fun hall => hfits (Roll.fits_entryOf hall)⟩
  | underived haccepts hdice hfits hderivation =>
      refine accounted_of_rolled haccepts hdice ?_ (fun o ho => by contradiction) (fun e he => ?_)
      · rw [if_pos hfits]
      · cases he
        refine .inr ⟨rfl, fun hall => ?_⟩
        rw [Breakdown.text?, if_pos hall] at hderivation
        contradiction
  | rolledTimeless haccepts hdice hfits _ hnow =>
      refine accounted_of_rolled haccepts hdice ?_ (fun o ho => by contradiction) (fun e he => ?_)
      · rw [if_pos hfits]
      · obtain ⟨hleft, -, htime⟩ := now_schedule_error hnow
        cases he
        exact .inl ⟨htime, hleft⟩
  | rolled haccepts hdice hfits _ _ =>
      refine accounted_of_rolled haccepts hdice ?_ (fun o ho => ?_) (fun e he => by contradiction)
      · rw [if_pos hfits]
      · cases ho
        exact ⟨_, rfl, rfl⟩

end Course

end Attempt

/-! ## Whole runs -/

/-- **Conservation.**  Over any run of calls, failing ones included, the
answers are what the attempted rolls ended in.  The script held, in order,
what each attempt drew and what is left; the requests made are those of the
attempts; the schedule held one time for each completed roll, the one it
bears, and what is left; the log grew by the entries of the attempts.  And
each attempt is accounted for. -/
theorem run_conserves (settings : Settings) (cs : List Call) (s : Supply Script Schedule) :
    let tries := (Call.history settings cs s).flatten
    let final := (Call.answers settings cs s).2
    (Call.answers settings cs s).1 =
        cs.zipWith (Call.conclude settings) (Call.history settings cs s) ∧
      s.dice.left = tries.flatMap Attempt.drawn ++ final.dice.left ∧
      final.dice.calls = s.dice.calls ++ tries.flatMap Attempt.requests ∧
      s.clock.left = tries.flatMap Attempt.times ++ final.clock.left ∧
      final.log = s.log ++ tries.flatMap Attempt.entries ∧
      ∀ a ∈ tries, a.Accounted settings := by
  intro tries final
  have hfollow : Follow s tries final := Call.follow_history settings cs s
  have hcourse : ∀ a ∈ tries, Roll.Course settings a.offered a.before a.ending a.after :=
    fun a ha => Call.course_of_mem_history ha
  refine ⟨Call.answers_fst settings cs s, ?_, ?_, ?_, ?_, ?_⟩
  · exact hfollow.spent (fun s => s.dice.left) Attempt.drawn fun a ha =>
      (Attempt.dice_of_course (hcourse a ha)).1
  · exact hfollow.gained (fun s => s.dice.calls) Attempt.requests fun a ha =>
      (Attempt.dice_of_course (hcourse a ha)).2
  · exact hfollow.spent (fun s => s.clock.left) Attempt.times fun a ha =>
      Attempt.clock_of_course (hcourse a ha)
  · exact hfollow.gained Supply.log Attempt.entries fun a ha =>
      Attempt.log_of_course (hcourse a ha)
  · exact fun a ha => Attempt.accounted_of_course (hcourse a ha)

end Tabletop
