import Tabletop.Proofs.Fairness

/-!
# Tabletop.Proofs.Timing

The clock shows in the times of the answers and nowhere else.

Two acts are `Act.Alike` when, begun with the same dice, they end alike, leave
the same dice and log the same entries, whatever their clocks and whatever was
logged before.  Acts that do not read the clock are alike if they are one act
at two supplies; reading two clocks that never fail is alike in all but the
time; and acts made in sequence of acts that are alike are alike.  So a call
is answered alike by any two clocks that never fail (`Call.answer_alike`):
with the times overwritten, its answers are equal.
-/

namespace Tabletop

/-! ## Times overwritten -/

/-- An outcome dated at another time. -/
def Outcome.stamped (time : Timestamp) : Outcome → Outcome
  | success s => .success { s with timestamp := time }
  | failure f => .failure { f with timestamp := time }

/-- Two outcomes differ in nothing but the time. -/
def Outcome.Alike (o o' : Outcome) : Prop := ∀ time, o.stamped time = o'.stamped time

/-- An answer whose outcomes are all dated at another time. -/
def Answer.stamped (time : Timestamp) : Answer → Answer
  | outcome o => .outcome (o.stamped time)
  | outcomes os => .outcomes (os.map (Outcome.stamped time))
  | profile p => .profile p

/-- Two answers differ in nothing but the times. -/
def Answer.Alike (a a' : Answer) : Prop := ∀ time, a.stamped time = a'.stamped time

/-- What a call ends in, its answer dated at another time. -/
def Answer.stampEnding (time : Timestamp) : Except Fault Answer → Except Fault Answer
  | .ok a => .ok (a.stamped time)
  | .error e => .error e

/-- What a call makes of outcomes does not depend on their times. -/
theorem Call.stamped_answerOf (time : Timestamp) (settings : Settings) (c : Call)
    (os : List Outcome) :
    (c.answerOf settings os).stamped time =
      c.answerOf settings (os.map (Outcome.stamped time)) := by
  cases c with
  | rollMany given => rfl
  | profile => rfl
  | _ =>
      match os with
      | [] | [_] | _ :: _ :: _ => rfl

/-! ## Supplies abreast of each other -/

section Abreast

variable {σ κ κ' : Type} {s t u : Supply σ κ} {s' t' u' : Supply σ κ'}

/-- From the supplies `s` and `s'` on, the same entries were logged, and the
same dice are left. -/
def Supply.Abreast (s : Supply σ κ) (s' : Supply σ κ') (t : Supply σ κ) (t' : Supply σ κ') :
    Prop :=
  t.dice = t'.dice ∧ ∃ entries, t.log = s.log ++ entries ∧ t'.log = s'.log ++ entries

theorem Supply.Abreast.refl (h : s.dice = s'.dice) : Abreast s s' s s' :=
  ⟨h, [], (List.append_nil _).symm, (List.append_nil _).symm⟩

theorem Supply.Abreast.trans (h : Abreast s s' t t') (h' : Abreast t t' u u') :
    Abreast s s' u u' := by
  obtain ⟨-, es, hlog, hlog'⟩ := h
  obtain ⟨hdice, fs, hmore, hmore'⟩ := h'
  refine ⟨hdice, es ++ fs, ?_, ?_⟩
  · rw [hmore, hlog, List.append_assoc]
  · rw [hmore', hlog', List.append_assoc]

end Abreast

namespace Act

variable {σ κ κ' α β : Type} {R : α → α → Prop} {Q : β → β → Prop}

/-- Two results are alike: of the same kind, with related values or the same
fault, and abreast of each other. -/
inductive EndsAlike (R : α → α → Prop) (s : Supply σ κ) (s' : Supply σ κ') :
    EStateM.Result Fault (Supply σ κ) α → EStateM.Result Fault (Supply σ κ') α → Prop
  | ok {a a' : α} {t : Supply σ κ} {t' : Supply σ κ'} (hvalue : R a a')
      (habreast : s.Abreast s' t t') : EndsAlike R s s' (.ok a t) (.ok a' t')
  | error {e : Fault} {t : Supply σ κ} {t' : Supply σ κ'} (habreast : s.Abreast s' t t') :
      EndsAlike R s s' (.error e t) (.error e t')

/-- What is alike since some supplies is alike since those before them. -/
theorem EndsAlike.after {s t : Supply σ κ} {s' t' : Supply σ κ'}
    {r : EStateM.Result Fault (Supply σ κ) α} {r' : EStateM.Result Fault (Supply σ κ') α}
    (h : EndsAlike R t t' r r') (hbefore : s.Abreast s' t t') : EndsAlike R s s' r r' := by
  cases h with
  | ok hvalue habreast => exact .ok hvalue (hbefore.trans habreast)
  | error habreast => exact .error (hbefore.trans habreast)

/-- Two acts end alike, wherever they begin with the same dice. -/
def Alike (R : α → α → Prop) (x : Act σ κ α) (y : Act σ κ' α) : Prop :=
  ∀ (s : Supply σ κ) (s' : Supply σ κ'), s.dice = s'.dice → EndsAlike R s s' (x s) (y s')

/-! ## Rules for acts that are alike -/

theorem alike_pure {a a' : α} (h : R a a') :
    Alike R (pure a : Act σ κ α) (pure a' : Act σ κ' α) :=
  fun _ _ hdice => .ok h (.refl hdice)

theorem alike_throw (e : Fault) : Alike R (throw e : Act σ κ α) (throw e : Act σ κ' α) :=
  fun _ _ hdice => .error (.refl hdice)

/-- Acts in sequence are alike, if the first ones are and the second ones are
after related values. -/
theorem Alike.bind {x : Act σ κ α} {y : Act σ κ' α} {f : α → Act σ κ β} {g : α → Act σ κ' β}
    (hxy : Alike R x y) (hfg : ∀ a a', R a a' → Alike Q (f a) (g a')) :
    Alike Q (x >>= f) (y >>= g) := by
  intro s s' hdice
  have hfirst := hxy s s' hdice
  generalize hx : x s = r, hy : y s' = r' at hfirst
  cases hfirst with
  | error habreast =>
      rw [bind_of_error hx, bind_of_error hy]
      exact .error habreast
  | ok hvalue habreast =>
      rw [bind_of_ok hx, bind_of_ok hy]
      exact (hfg _ _ hvalue _ _ habreast.1).after habreast

end Act

/-! ## The acts of a roll -/

namespace Supply

variable {σ κ κ' : Type}

theorem alike_drawDice [DieSource σ] (sides count : Nat) :
    Act.Alike Eq (drawDice sides count : Act σ κ (List Int))
      (drawDice sides count : Act σ κ' (List Int)) := by
  intro s s' hdice
  rw [drawDice_eq, drawDice_eq, ← hdice]
  cases DieSource.drawEach (List.replicate count sides) s.dice with
  | ok rolls dice => exact .ok rfl (.refl rfl)
  | error e dice => exact .error (.refl rfl)

theorem alike_note (e : Entry) :
    Act.Alike Eq (note e : Act σ κ Unit) (note e : Act σ κ' Unit) := by
  intro s s' hdice
  by_cases hfits : ∀ n ∈ e.numbers, Text.Decimal.Fits n
  · rw [note_of_fits hfits, note_of_fits hfits]
    exact .ok rfl ⟨hdice, [e], rfl, rfl⟩
  · rw [note_of_not_fits hfits, note_of_not_fits hfits]
    exact .error (.refl hdice)

/-- Two clocks that never fail may show any two times. -/
theorem alike_readClock [Clock κ] [Clock κ'] (hclock : Clock.Tireless κ)
    (hclock' : Clock.Tireless κ') :
    Act.Alike (fun _ _ => True) (readClock : Act σ κ Timestamp)
      (readClock : Act σ κ' Timestamp) := by
  intro s s' hdice
  obtain ⟨time, clock, hnow⟩ := hclock s.clock
  obtain ⟨time', clock', hnow'⟩ := hclock' s'.clock
  rw [readClock_of_ok hnow, readClock_of_ok hnow']
  exact .ok trivial (.refl hdice)

end Supply

namespace Roll

variable {σ κ κ' : Type}

theorem alike_derive (rolls : List Int) (t : Throw) :
    Act.Alike Eq (derive rolls t : Act σ κ String) (derive rolls t : Act σ κ' String) := by
  unfold derive
  cases Breakdown.text? rolls t with
  | some derivation => exact Act.alike_pure rfl
  | none => exact Act.alike_throw _

variable [DieSource σ] [Clock κ] [Clock κ'] (hclock : Clock.Tireless κ)
  (hclock' : Clock.Tireless κ')

include hclock hclock'

theorem alike_perform (spelling : String) (t : Throw) :
    Act.Alike Outcome.Alike (perform spelling t : Act σ κ Outcome)
      (perform spelling t : Act σ κ' Outcome) := by
  refine (Supply.alike_drawDice _ _).bind ?_
  rintro rolls _ rfl
  refine (Supply.alike_note _).bind ?_
  rintro _ _ -
  refine (alike_derive rolls t).bind ?_
  rintro derivation _ rfl
  -- The clock is read last, so all that may differ is the time of the success.
  refine (Supply.alike_readClock hclock hclock').bind ?_
  rintro time time' -
  exact Act.alike_pure fun _ => rfl

omit [DieSource σ] in
theorem alike_turnDown (literal : List Char) (r : Refusal) :
    Act.Alike Outcome.Alike (turnDown literal r : Act σ κ Outcome)
      (turnDown literal r : Act σ κ' Outcome) := by
  refine (Supply.alike_note _).bind ?_
  rintro _ _ -
  refine (Supply.alike_readClock hclock hclock').bind ?_
  rintro time time' -
  exact Act.alike_pure fun _ => rfl

theorem alike_rollText (s : String) :
    Act.Alike Outcome.Alike (rollText s : Act σ κ Outcome) (rollText s : Act σ κ' Outcome) := by
  unfold rollText
  cases Reading.ofText s with
  | accepted t => exact alike_perform hclock hclock' s t
  | refused r => exact alike_turnDown hclock hclock' _ r

theorem alike_roll (settings : Settings) (v : Value) :
    Act.Alike Outcome.Alike (roll settings v : Act σ κ Outcome)
      (roll settings v : Act σ κ' Outcome) := by
  unfold roll
  split
  · exact alike_rollText hclock hclock' settings.fallback
  · exact alike_rollText hclock hclock' _
  · cases v.literal? with
    | some literal => exact alike_turnDown hclock hclock' literal _
    | none => exact Act.alike_throw _

/-- Lists of outcomes differ in nothing but the times. -/
theorem alike_rollEach (settings : Settings) (vs : List Value) :
    Act.Alike (fun os os' => ∀ time, os.map (Outcome.stamped time) = os'.map (Outcome.stamped time))
      (rollEach settings vs : Act σ κ (List Outcome))
      (rollEach settings vs : Act σ κ' (List Outcome)) := by
  induction vs with
  | nil => exact Act.alike_pure fun _ => rfl
  | cons v rest ih =>
      refine (alike_roll hclock hclock' settings v).bind fun o o' ho => ?_
      refine ih.bind fun os os' hos => ?_
      refine Act.alike_pure fun time => ?_
      rw [List.map_cons, List.map_cons, ho time, hos time]

end Roll

namespace Call

variable {σ κ κ' : Type} [DieSource σ] [Clock κ] [Clock κ'] (hclock : Clock.Tireless κ)
  (hclock' : Clock.Tireless κ')

include hclock hclock'

theorem alike_run (settings : Settings) (c : Call) :
    Act.Alike Answer.Alike (c.run settings : Act σ κ Answer) (c.run settings : Act σ κ' Answer) := by
  rw [run_eq, run_eq]
  cases c.offers with
  | error e => exact Act.alike_throw e
  | ok vs =>
      refine (Roll.alike_rollEach hclock hclock' settings vs).bind fun os os' hos => ?_
      refine Act.alike_pure fun time => ?_
      rw [stamped_answerOf, stamped_answerOf, hos time]

/-- **A call is answered alike by any two clocks that never fail.**  From the
same dice it ends in the same, times apart, logs the same entries and leaves
the same dice. -/
theorem answer_alike (settings : Settings) (c : Call) {s : Supply σ κ} {s' : Supply σ κ'}
    (hdice : s.dice = s'.dice) :
    (∀ time, Answer.stampEnding time (c.answer settings s).1 =
      Answer.stampEnding time (c.answer settings s').1) ∧
      s.Abreast s' (c.answer settings s).2 (c.answer settings s').2 := by
  have hends := alike_run hclock hclock' settings c s s' hdice
  generalize hr : c.run settings s = r, hr' : c.run settings s' = r' at hends
  simp only [answer, hr, hr']
  cases hends with
  | ok hvalue habreast =>
      exact ⟨fun time => congrArg Except.ok (hvalue time), habreast⟩
  | error habreast => exact ⟨fun _ => rfl, habreast⟩

end Call

end Tabletop
