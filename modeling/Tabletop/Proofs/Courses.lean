import Tabletop.Roll

/-!
# Tabletop.Proofs.Courses

Every course that a single roll can take.

The machines a roll draws on may fail at any moment, and so may the writing
of a number.  `Roll.Course` lists what can happen, with the supply that each
way of ending leaves behind, and `Roll.course_finish` says that nothing else
does.  Facts about rolls are proved from it by cases, and never by opening
the definition of a roll again.

Dice are the only part of the supply that a roll uses more than once.
`DieSource.drawEach` rolls a list of dice, of any kinds and outside any roll;
`Supply.drawDice` is the case of equal dice.
-/

namespace Tabletop

open Text

/-! ## Acts in sequence -/

namespace Act

section Bind

variable {ε σ α β : Type} {x : EStateM ε σ α} {f : α → EStateM ε σ β} {s s' : σ}

theorem bind_of_ok {a : α} (h : x s = .ok a s') : (x >>= f) s = f a s' := by
  simp only [bind, EStateM.bind, h]

theorem bind_of_error {e : ε} (h : x s = .error e s') : (x >>= f) s = .error e s' := by
  simp only [bind, EStateM.bind, h]

/-- Where two acts in sequence succeed, both do. -/
theorem exists_of_bind_eq_ok {b : β} (h : (x >>= f) s = .ok b s') :
    ∃ a t, x s = .ok a t ∧ f a t = .ok b s' := by
  cases hx : x s with
  | ok a t =>
      rw [bind_of_ok hx] at h
      exact ⟨a, t, rfl, h⟩
  | error e t =>
      rw [bind_of_error hx] at h
      contradiction

end Bind

variable {σ κ α : Type}

/-- What an act ends in, and the supply it leaves. -/
def finish (x : Act σ κ α) (s : Supply σ κ) : Except Fault α × Supply σ κ :=
  match x s with
  | .ok a after => (.ok a, after)
  | .error e after => (.error e, after)

theorem finish_of_ok {x : Act σ κ α} {a : α} {s after : Supply σ κ} (h : x s = .ok a after) :
    finish x s = (.ok a, after) := by
  simp only [finish, h]

theorem finish_of_error {x : Act σ κ α} {e : Fault} {s after : Supply σ κ}
    (h : x s = .error e after) : finish x s = (.error e, after) := by
  simp only [finish, h]

end Act

/-! ## Dice one after the other -/

namespace DieSource

variable {σ : Type} [DieSource σ]

/-- Rolls one die after the other, each with the sides listed for it. -/
def drawEach : List Nat → EStateM Fault σ (List Int)
  | [] => pure []
  | sides :: rest => do
    let n ← draw sides
    let others ← drawEach rest
    return n :: others

/-- Two lists of dice are rolled as one. -/
theorem drawEach_append (xs ys : List Nat) :
    drawEach (σ := σ) (xs ++ ys) = do
      let ns ← drawEach xs
      let ms ← drawEach ys
      return ns ++ ms := by
  induction xs with
  | nil => simp [drawEach]
  | cons x xs ih => simp [drawEach, ih]

/-- There are as many numbers as dice. -/
theorem length_of_drawEach {xs : List Nat} {s s' : σ} {ns : List Int}
    (h : drawEach xs s = .ok ns s') : ns.length = xs.length := by
  induction xs generalizing s ns with
  | nil =>
      cases h
      rfl
  | cons x xs ih =>
      obtain ⟨n, s₁, -, h⟩ := Act.exists_of_bind_eq_ok h
      obtain ⟨ms, s₂, hms, h⟩ := Act.exists_of_bind_eq_ok h
      cases h
      rw [List.length_cons, ih hms, List.length_cons]

end DieSource

/-! ## Acts on a supply -/

namespace Supply

variable {σ κ : Type} {s : Supply σ κ}

/-- Equal dice are rolled one after the other, and nothing else is touched. -/
theorem drawDice_eq [DieSource σ] (sides count : Nat) (s : Supply σ κ) :
    drawDice sides count s =
      match DieSource.drawEach (List.replicate count sides) s.dice with
      | .ok rolls dice => .ok rolls { s with dice }
      | .error e dice => .error e { s with dice } := by
  induction count generalizing s with
  | zero => rfl
  | succ count ih =>
      rw [drawDice, List.replicate_succ, DieSource.drawEach]
      cases hn : DieSource.draw sides s.dice with
      | error e dice =>
          have hdie : drawDie sides s = .error e { s with dice } := by simp only [drawDie, hn]
          rw [Act.bind_of_error hdie, Act.bind_of_error hn]
      | ok n dice =>
          have hdie : drawDie sides s = .ok n { s with dice } := by simp only [drawDie, hn]
          rw [Act.bind_of_ok hdie, Act.bind_of_ok hn]
          have hrest := ih { s with dice }
          cases hms : DieSource.drawEach (List.replicate count sides) dice with
          | error e dice' =>
              simp only [hms] at hrest
              rw [Act.bind_of_error hrest, Act.bind_of_error hms]
          | ok ms dice' =>
              simp only [hms] at hrest
              rw [Act.bind_of_ok hrest, Act.bind_of_ok hms]
              rfl

theorem readClock_of_ok [Clock κ] {time : Timestamp} {clock : κ}
    (h : Clock.now s.clock = .ok time clock) : readClock s = .ok time { s with clock } := by
  simp only [readClock, h]

theorem readClock_of_error [Clock κ] {e : Fault} {clock : κ}
    (h : Clock.now s.clock = .error e clock) : readClock s = .error e { s with clock } := by
  simp only [readClock, h]

theorem note_of_fits {e : Entry} (h : ∀ n ∈ e.numbers, Decimal.Fits n) :
    note e s = .ok () { s with log := s.log ++ [e] } := if_pos h

theorem note_of_not_fits {e : Entry} (h : ¬∀ n ∈ e.numbers, Decimal.Fits n) :
    note e s = .error .oversizedInteger s := if_neg h

end Supply

/-- The value that is read when one is offered: the notation that the settings
fall back on stands in for a missing one. -/
def Settings.standIn (settings : Settings) : Value → Value
  | .null => .text settings.fallback
  | v => v

namespace Roll

/-! ## What a value asks for -/

/-- What reading an offered value comes to. -/
def asked (settings : Settings) (v : Value) : Except Fault Reading :=
  Reading.ofValue (settings.standIn v)

/-- The value offered is a notation spelled this way, and asks for the throw. -/
def Accepts (settings : Settings) (v : Value) (spelling : String) (t : Throw) : Prop :=
  settings.standIn v = .text spelling ∧ Reading.ofText spelling = .accepted t

/-- The value offered is written down like this, and refused. -/
def Refuses (settings : Settings) (v : Value) (literal : List Char) (r : Refusal) : Prop :=
  (settings.standIn v).literal? = some literal ∧ asked settings v = .ok (.refused r)

theorem Accepts.asked_eq {settings : Settings} {v : Value} {spelling : String} {t : Throw}
    (h : Accepts settings v spelling t) : asked settings v = .ok (.accepted t) := by
  rw [asked, h.1, Reading.ofValue, h.2]

variable {σ κ : Type} [DieSource σ] [Clock κ]

theorem roll_of_text {settings : Settings} {v : Value} {s : String}
    (h : settings.standIn v = .text s) : roll (σ := σ) (κ := κ) settings v = rollText s := by
  cases v with
  | null =>
      cases h
      rfl
  | text s' =>
      cases h
      rfl
  | _ => contradiction

/-- A value that is not a text, nor missing, is refused under its literal. -/
theorem roll_of_not_text {settings : Settings} {v : Value}
    (h : ∀ s, settings.standIn v ≠ .text s) :
    (∃ literal r, Refuses settings v literal r ∧
      roll (σ := σ) (κ := κ) settings v = turnDown literal r) ∨
    (asked settings v = .error .oversizedInteger ∧
      roll (σ := σ) (κ := κ) settings v = throw .oversizedInteger) := by
  have hnull : v ≠ .null := by
    rintro rfl
    exact h settings.fallback rfl
  have hself : settings.standIn v = v := by
    cases v with
    | null => contradiction
    | _ => rfl
  rw [hself] at h
  have hroll := @roll_of_ne_text σ κ _ _ settings v hnull h
  have hread := Reading.ofValue_of_ne_text h
  cases hliteral : v.literal? with
  | some literal =>
      rw [hliteral] at hread hroll
      refine .inl ⟨literal, _, ⟨by rw [hself, hliteral], ?_⟩, hroll⟩
      rw [asked, hself, hread]
  | none =>
      rw [hliteral] at hread hroll
      refine .inr ⟨?_, hroll⟩
      rw [asked, hself, hread]

/-- A roll is carried out, turned down, or not begun because the value offered
cannot be written down. -/
theorem roll_cases (settings : Settings) (v : Value) :
    (∃ spelling t, Accepts settings v spelling t ∧
      roll (σ := σ) (κ := κ) settings v = perform spelling t) ∨
    (∃ literal r, Refuses settings v literal r ∧
      roll (σ := σ) (κ := κ) settings v = turnDown literal r) ∨
    (asked settings v = .error .oversizedInteger ∧
      roll (σ := σ) (κ := κ) settings v = throw .oversizedInteger) := by
  by_cases htext : ∃ s, settings.standIn v = .text s
  · obtain ⟨s, hs⟩ := htext
    have hroll := roll_of_text (σ := σ) (κ := κ) hs
    cases hread : Reading.ofText s with
    | accepted t =>
        simp only [rollText, hread] at hroll
        exact .inl ⟨s, t, ⟨hs, hread⟩, hroll⟩
    | refused r =>
        simp only [rollText, hread] at hroll
        refine .inr (.inl ⟨_, r, ⟨by rw [hs]; rfl, ?_⟩, hroll⟩)
        rw [asked, hs, Reading.ofValue, hread]
  · exact .inr (roll_of_not_text fun s hs => htext ⟨s, hs⟩)

/-! ## What can happen to a roll -/

/-- What is logged when the dice of a throw have been rolled. -/
def entryOf (spelling : String) (t : Throw) (rolls : List Int) : Entry :=
  .rolled spelling rolls (diceSum rolls + t.offset)

/-- Where the derivation can be written, so can the entry. -/
theorem fits_entryOf {spelling : String} {t : Throw} {rolls : List Int}
    (h : ∀ n ∈ Breakdown.numbers rolls t, Decimal.Fits n) :
    ∀ n ∈ (entryOf spelling t rolls).numbers, Decimal.Fits n := by
  intro n hn
  simp only [entryOf, Entry.numbers, List.mem_append, List.mem_singleton] at hn
  apply h
  simp only [Breakdown.numbers, List.mem_append, List.mem_cons]
  exact hn.imp_right fun hn => .inr (.inl hn)

/-- What a roll that took place ends in. -/
def successOf (spelling : String) (t : Throw) (rolls : List Int) (derivation : List Char)
    (timestamp : Timestamp) : Success where
  spelling
  rolls
  total := diceSum rolls + t.offset
  modifier := t.modifier.map fun m => String.ofList m.spell
  breakdown := String.ofList derivation
  timestamp

/-- All ways for the roll of an offered value to end, each with the supply
that it leaves. -/
inductive Course (settings : Settings) (v : Value) (s : Supply σ κ) :
    Except Fault Outcome → Supply σ κ → Prop
  /-- The value cannot be written down. -/
  | unwritable (hasked : asked settings v = .error .oversizedInteger) :
      Course settings v s (.error .oversizedInteger) s
  /-- The value is refused, and the time is known. -/
  | refused {literal : List Char} {r : Refusal} {time : Timestamp} {clock : κ}
      (hrefuses : Refuses settings v literal r) (hnow : Clock.now s.clock = .ok time clock) :
      Course settings v s (.ok (.failure ⟨r.spelling, r.message, time⟩))
        { s with clock, log := s.log ++ [.rejected literal r.message] }
  /-- The value is refused, and the clock fails. -/
  | refusedTimeless {literal : List Char} {r : Refusal} {e : Fault} {clock : κ}
      (hrefuses : Refuses settings v literal r) (hnow : Clock.now s.clock = .error e clock) :
      Course settings v s (.error e)
        { s with clock, log := s.log ++ [.rejected literal r.message] }
  /-- One of the dice cannot be rolled. -/
  | diceless {spelling : String} {t : Throw} {e : Fault} {dice : σ}
      (haccepts : Accepts settings v spelling t)
      (hdice : DieSource.drawEach (List.replicate t.count t.sides) s.dice = .error e dice) :
      Course settings v s (.error e) { s with dice }
  /-- A die or the total is too long to be logged. -/
  | unlogged {spelling : String} {t : Throw} {rolls : List Int} {dice : σ}
      (haccepts : Accepts settings v spelling t)
      (hdice : DieSource.drawEach (List.replicate t.count t.sides) s.dice = .ok rolls dice)
      (hfits : ¬∀ n ∈ (entryOf spelling t rolls).numbers, Decimal.Fits n) :
      Course settings v s (.error .oversizedInteger) { s with dice }
  /-- A number in the derivation of the total is too long. -/
  | underived {spelling : String} {t : Throw} {rolls : List Int} {dice : σ}
      (haccepts : Accepts settings v spelling t)
      (hdice : DieSource.drawEach (List.replicate t.count t.sides) s.dice = .ok rolls dice)
      (hfits : ∀ n ∈ (entryOf spelling t rolls).numbers, Decimal.Fits n)
      (hderivation : Breakdown.text? rolls t = none) :
      Course settings v s (.error .oversizedInteger)
        { s with dice, log := s.log ++ [entryOf spelling t rolls] }
  /-- The dice are rolled, and the clock fails. -/
  | rolledTimeless {spelling : String} {t : Throw} {rolls : List Int} {dice : σ}
      {derivation : List Char} {e : Fault} {clock : κ}
      (haccepts : Accepts settings v spelling t)
      (hdice : DieSource.drawEach (List.replicate t.count t.sides) s.dice = .ok rolls dice)
      (hfits : ∀ n ∈ (entryOf spelling t rolls).numbers, Decimal.Fits n)
      (hderivation : Breakdown.text? rolls t = some derivation)
      (hnow : Clock.now s.clock = .error e clock) :
      Course settings v s (.error e)
        { dice, clock, log := s.log ++ [entryOf spelling t rolls] }
  /-- The dice are rolled, and the time is known. -/
  | rolled {spelling : String} {t : Throw} {rolls : List Int} {dice : σ}
      {derivation : List Char} {time : Timestamp} {clock : κ}
      (haccepts : Accepts settings v spelling t)
      (hdice : DieSource.drawEach (List.replicate t.count t.sides) s.dice = .ok rolls dice)
      (hfits : ∀ n ∈ (entryOf spelling t rolls).numbers, Decimal.Fits n)
      (hderivation : Breakdown.text? rolls t = some derivation)
      (hnow : Clock.now s.clock = .ok time clock) :
      Course settings v s (.ok (.success (successOf spelling t rolls derivation time)))
        { dice, clock, log := s.log ++ [entryOf spelling t rolls] }

omit [DieSource σ] [Clock κ] in
theorem note_rejected (literal : List Char) (r : Refusal) (s : Supply σ κ) :
    Supply.note (.rejected literal r.message) s =
      .ok () { s with log := s.log ++ [.rejected literal r.message] } :=
  Supply.note_of_fits (by simp [Entry.numbers])

omit [DieSource σ] in
/-- What is turned down ends in a failure at the time shown. -/
theorem turnDown_of_now {s : Supply σ κ} {time : Timestamp} {clock : κ}
    (hnow : Clock.now s.clock = .ok time clock) (literal : List Char) (r : Refusal) :
    turnDown literal r s = .ok (.failure ⟨r.spelling, r.message, time⟩)
      { s with clock, log := s.log ++ [.rejected literal r.message] } := by
  rw [turnDown, Act.bind_of_ok (note_rejected literal r s)]
  exact Act.bind_of_ok (Supply.readClock_of_ok hnow)

theorem course_turnDown {settings : Settings} {v : Value} {literal : List Char} {r : Refusal}
    (hrefuses : Refuses settings v literal r) (s : Supply σ κ) :
    Course settings v s ((turnDown literal r).finish s).1 ((turnDown literal r).finish s).2 := by
  cases hnow : Clock.now s.clock with
  | ok time clock =>
      rw [Act.finish_of_ok (turnDown_of_now hnow literal r)]
      exact .refused hrefuses hnow
  | error e clock =>
      have hend : turnDown literal r s =
          .error e { s with clock, log := s.log ++ [.rejected literal r.message] } := by
        rw [turnDown, Act.bind_of_ok (note_rejected literal r s)]
        exact Act.bind_of_error (Supply.readClock_of_error hnow)
      rw [Act.finish_of_error hend]
      exact .refusedTimeless hrefuses hnow

omit [DieSource σ] [Clock κ] in
theorem derive_of_some {rolls : List Int} {t : Throw} {derivation : List Char}
    (h : Breakdown.text? rolls t = some derivation) (s : Supply σ κ) :
    derive rolls t s = .ok (String.ofList derivation) s := by
  simp only [derive, h]
  rfl

omit [DieSource σ] [Clock κ] in
theorem derive_of_none {rolls : List Int} {t : Throw} (h : Breakdown.text? rolls t = none)
    (s : Supply σ κ) : derive rolls t s = .error .oversizedInteger s := by
  simp only [derive, h]
  rfl

section Perform

variable {spelling : String} {t : Throw} {rolls : List Int} {s : Supply σ κ} {dice : σ}

/-- Dice that cannot be logged are rolled for nothing. -/
theorem perform_of_not_fits
    (hdice : DieSource.drawEach (List.replicate t.count t.sides) s.dice = .ok rolls dice)
    (hfits : ¬∀ n ∈ (entryOf spelling t rolls).numbers, Decimal.Fits n) :
    perform spelling t s = .error .oversizedInteger { s with dice } := by
  have hdraw := Supply.drawDice_eq t.sides t.count s
  simp only [hdice] at hdraw
  rw [perform, Act.bind_of_ok hdraw]
  exact Act.bind_of_error (Supply.note_of_not_fits hfits)

/-- Dice that can be logged are, before the total is derived. -/
theorem perform_of_fits
    (hdice : DieSource.drawEach (List.replicate t.count t.sides) s.dice = .ok rolls dice)
    (hfits : ∀ n ∈ (entryOf spelling t rolls).numbers, Decimal.Fits n) :
    perform spelling t s =
      (do
        let breakdown ← derive rolls t
        let timestamp ← Supply.readClock
        return .success {
          spelling, rolls, breakdown, timestamp
          total := diceSum rolls + t.offset
          modifier := t.modifier.map fun m => String.ofList m.spell } : Act σ κ Outcome)
        { s with dice, log := s.log ++ [entryOf spelling t rolls] } := by
  have hdraw := Supply.drawDice_eq t.sides t.count s
  simp only [hdice] at hdraw
  rw [perform, Act.bind_of_ok hdraw]
  exact Act.bind_of_ok (Supply.note_of_fits hfits)

/-- Dice that can be logged are rolled for nothing if the total cannot be
derived. -/
theorem perform_of_no_derivation
    (hdice : DieSource.drawEach (List.replicate t.count t.sides) s.dice = .ok rolls dice)
    (hfits : ∀ n ∈ (entryOf spelling t rolls).numbers, Decimal.Fits n)
    (hderivation : Breakdown.text? rolls t = none) :
    perform spelling t s =
      .error .oversizedInteger { s with dice, log := s.log ++ [entryOf spelling t rolls] } := by
  rw [perform_of_fits hdice hfits]
  exact Act.bind_of_error (derive_of_none hderivation _)

/-- Dice that can be logged and derived make a success at the time shown. -/
theorem perform_of_derivation {derivation : List Char} {time : Timestamp} {clock : κ}
    (hdice : DieSource.drawEach (List.replicate t.count t.sides) s.dice = .ok rolls dice)
    (hfits : ∀ n ∈ (entryOf spelling t rolls).numbers, Decimal.Fits n)
    (hderivation : Breakdown.text? rolls t = some derivation)
    (hnow : Clock.now s.clock = .ok time clock) :
    perform spelling t s =
      .ok (.success (successOf spelling t rolls derivation time))
        { dice, clock, log := s.log ++ [entryOf spelling t rolls] } := by
  rw [perform_of_fits hdice hfits, Act.bind_of_ok (derive_of_some hderivation _)]
  exact Act.bind_of_ok (Supply.readClock_of_ok hnow)

/-- A single die is its own total, and its derivation says so. -/
theorem perform_of_single {n : Int} {time : Timestamp} {clock : κ} (hcount : t.count = 1)
    (hmodifier : t.modifier = none) (hdraw : DieSource.draw t.sides s.dice = .ok n dice)
    (hn : Decimal.Fits n) (hnow : Clock.now s.clock = .ok time clock) :
    perform spelling t s =
      .ok (.success ⟨spelling, [n], n, none,
          String.ofList (Decimal.ofInt n ++ " = ".toList ++ Decimal.ofInt n), time⟩)
        ⟨dice, clock, s.log ++ [.rolled spelling [n] n]⟩ := by
  have hdice : DieSource.drawEach (List.replicate t.count t.sides) s.dice = .ok [n] dice := by
    rw [hcount]
    exact Act.bind_of_ok hdraw
  have hoffset : t.offset = 0 := by rw [Throw.offset, hmodifier, Option.elim_none]
  have hnumbers : ∀ m ∈ Breakdown.numbers [n] t, Decimal.Fits m := by
    simpa [Breakdown.numbers, hoffset, diceSum] using hn
  have htext : Breakdown.text [n] t = Decimal.ofInt n ++ " = ".toList ++ Decimal.ofInt n := by
    simp [Breakdown.text, Breakdown.steps, Breakdown.shownModifier?, Breakdown.dice, hmodifier,
      diceSum, List.intercalate_cons_cons]
  have hroll : perform spelling t s = _ :=
    perform_of_derivation hdice (fits_entryOf hnumbers) (if_pos hnumbers) hnow
  rw [hroll, htext]
  simp [successOf, entryOf, diceSum, hoffset, hmodifier]

/-- The notation that a table falls back on by default asks for such a die. -/
theorem rollText_of_die {n : Int} {time : Timestamp} {clock : κ}
    (hdraw : DieSource.draw 6 s.dice = .ok n dice) (hn : Decimal.Fits n)
    (hnow : Clock.now s.clock = .ok time clock) :
    rollText "1d6" s =
      .ok (.success ⟨"1d6", [n], n, none,
          String.ofList (Decimal.ofInt n ++ " = ".toList ++ Decimal.ofInt n), time⟩)
        ⟨dice, clock, s.log ++ [.rolled "1d6" [n] n]⟩ := by
  have hread : Reading.ofText "1d6" = .accepted ⟨1, 6, none, by decide, by decide⟩ := by decide
  rw [rollText, hread]
  exact perform_of_single rfl rfl hdraw hn hnow

end Perform

theorem course_perform {settings : Settings} {v : Value} {spelling : String} {t : Throw}
    (haccepts : Accepts settings v spelling t) (s : Supply σ κ) :
    Course settings v s ((perform spelling t).finish s).1 ((perform spelling t).finish s).2 := by
  cases hdice : DieSource.drawEach (List.replicate t.count t.sides) s.dice with
  | error e dice =>
      have hdraw := Supply.drawDice_eq t.sides t.count s
      simp only [hdice] at hdraw
      have hend : perform spelling t s = .error e { s with dice } := by
        rw [perform, Act.bind_of_error hdraw]
      rw [Act.finish_of_error hend]
      exact .diceless haccepts hdice
  | ok rolls dice =>
      by_cases hfits : ∀ n ∈ (entryOf spelling t rolls).numbers, Decimal.Fits n
      · have hrest := perform_of_fits hdice hfits
        let logged : Supply σ κ := { s with dice, log := s.log ++ [entryOf spelling t rolls] }
        cases hderivation : Breakdown.text? rolls t with
        | none =>
            rw [Act.finish_of_error (perform_of_no_derivation hdice hfits hderivation)]
            exact .underived haccepts hdice hfits hderivation
        | some derivation =>
            cases hnow : Clock.now s.clock with
            | error e clock =>
                have hread : Supply.readClock logged = .error e { logged with clock } :=
                  Supply.readClock_of_error hnow
                have hend : perform spelling t s = .error e { logged with clock } := by
                  rw [hrest, Act.bind_of_ok (derive_of_some hderivation logged),
                    Act.bind_of_error hread]
                rw [Act.finish_of_error hend]
                exact .rolledTimeless haccepts hdice hfits hderivation hnow
            | ok time clock =>
                rw [Act.finish_of_ok (perform_of_derivation hdice hfits hderivation hnow)]
                exact .rolled haccepts hdice hfits hderivation hnow
      · rw [Act.finish_of_error (perform_of_not_fits hdice hfits)]
        exact .unlogged haccepts hdice hfits

/-- **Every roll takes one of the courses listed.** -/
theorem course_finish (settings : Settings) (v : Value) (s : Supply σ κ) :
    Course settings v s ((roll settings v).finish s).1 ((roll settings v).finish s).2 := by
  obtain ⟨spelling, t, haccepts, hroll⟩ | ⟨literal, r, hrefuses, hroll⟩ | ⟨hasked, hroll⟩ :=
    roll_cases (σ := σ) (κ := κ) settings v
  · rw [hroll]
    exact course_perform haccepts s
  · rw [hroll]
    exact course_turnDown hrefuses s
  · rw [hroll]
    exact .unwritable hasked

end Roll

end Tabletop
