import Tabletop.Proofs.Conservation
import Tabletop.Proofs.Writability

/-!
# Tabletop.Proofs.DiceCount

How many six-sided dice are rolled for a count that nothing is known about.

The count is shown, `d6` is put after it, and the whole is read as a notation.

* Whatever stands before `d6`, a notation that ends in it has all of that for
  its count and nothing else (`Form.eq_of_spell_eq_sixes`): no text brings in
  other sides or a modifier.
* Of what values are shown as, only natural numbers and texts can be digits
  throughout (`Value.exists_not_digit_of_display`).
* So a value is accepted as a count exactly when it `CountsDice`
  (`Reading.ofText_sixes_iff`), and then so many dice are rolled
  (`Call.rollSixes_rolls_count`).
-/

namespace Tabletop

open Text

/-! ## Notations that end in six sides -/

namespace Notation.Form

/-- The pieces of a number of six-sided dice. -/
def sixes (count : List Char) : Form := ⟨some ⟨count, false⟩, ['6'], none⟩

theorem wellFormed_sixes {count : List Char} (h : Decimal.IsRun count) :
    (sixes count).WellFormed where
  count_run := by
    rintro _ ⟨⟩
    exact h
  sides_run := by
    show Decimal.IsRun ['6']
    decide
  sides_ne_nil := List.cons_ne_nil _ _
  tail_run := nofun
  tail_ne_nil := nofun

theorem spell_sixes (count : List Char) : (sixes count).spell = count ++ ['d', '6'] := by
  simp [sixes, spell, separator]

theorem countDigits_sixes (count : List Char) :
    (sixes count).countDigits = if count = [] then ['1'] else count := by
  cases count <;> rfl

theorem value_countDigits_sixes (count : List Char) :
    Decimal.value (sixes count).countDigits = if count = [] then 1 else Decimal.value count := by
  rw [countDigits_sixes, apply_ite Decimal.value]
  rfl

theorem length_countDigits_sixes_le_iff (count : List Char) :
    (sixes count).countDigits.length ≤ Decimal.limit ↔ count.length ≤ Decimal.limit := by
  cases count with
  | nil => decide
  | cons c count => rfl

/-- From its end, a text has the digits of its last number and what stands before
them in one way. -/
theorem eq_of_append_run_eq {before before' ds ds' : List Char} (hds : Decimal.IsRun ds)
    (hds' : Decimal.IsRun ds') (hbefore : NoDigitFirst before.reverse)
    (hbefore' : NoDigitFirst before'.reverse) (h : before ++ ds = before' ++ ds') :
    before = before' ∧ ds = ds' := by
  have hreverse : ds.reverse ++ before.reverse = ds'.reverse ++ before'.reverse := by
    rw [← List.reverse_append, h, List.reverse_append]
  have hrun : Decimal.IsRun ds.reverse := fun c hc => hds c (List.mem_reverse.mp hc)
  have hrun' : Decimal.IsRun ds'.reverse := fun c hc => hds' c (List.mem_reverse.mp hc)
  have htake := congrArg (List.takeWhile Char.isDigit) hreverse
  have hdrop := congrArg (List.dropWhile Char.isDigit) hreverse
  rw [takeWhile_isDigit_append hrun hbefore, takeWhile_isDigit_append hrun' hbefore'] at htake
  rw [dropWhile_isDigit_append hrun hbefore, dropWhile_isDigit_append hrun' hbefore'] at hdrop
  exact ⟨List.reverse_inj.mp hdrop, List.reverse_inj.mp htake⟩

/-- A notation that ends in six sides has all that stands before them for its
count. -/
theorem eq_of_spell_eq_sixes {f : Form} (hf : f.WellFormed) {cs : List Char}
    (h : f.spell = cs ++ ['d', '6']) : Decimal.IsRun cs ∧ f = sixes cs := by
  obtain ⟨lead, sides, tail⟩ := f
  have hsix : Decimal.IsRun ['6'] := by decide
  have hcs : NoDigitFirst (cs ++ ['d']).reverse := by
    rw [List.reverse_append]
    exact noDigitFirst_cons rfl
  have hsplit : cs ++ ['d', '6'] = (cs ++ ['d']) ++ ['6'] := by simp
  rw [hsplit] at h
  match lead, tail with
  | lead, some (g, ds) =>
      -- The last number is the modifier, and a sign is no `d`.
      have hspell : spell ⟨lead, sides, some (g, ds)⟩ =
          (leadText lead ++ sides ++ [g.symbol]) ++ ds := by
        simp [spell_eq, tailText]
      have hstop : NoDigitFirst (leadText lead ++ sides ++ [g.symbol]).reverse := by
        rw [List.reverse_append]
        exact noDigitFirst_cons (isDigit_symbol g)
      rw [hspell] at h
      have hbefore := (eq_of_append_run_eq (hf.tail_run _ rfl) hsix hstop hcs h).1
      have hsymbol := (List.append_inj' hbefore rfl).2
      cases g <;> simp [Sign.symbol] at hsymbol
  | none, none =>
      -- There is nothing but the sides.
      have hspell : spell ⟨none, sides, none⟩ = [] ++ sides := by simp [spell]
      have hstop : NoDigitFirst ([] : List Char).reverse := noDigitFirst_nil
      rw [hspell] at h
      have hbefore := (eq_of_append_run_eq hf.sides_run hsix hstop hcs h).1
      simp at hbefore
  | some ⟨count, capital⟩, none =>
      have hspell : spell ⟨some ⟨count, capital⟩, sides, none⟩ =
          (count ++ [separator capital]) ++ sides := by
        simp [spell]
      have hstop : NoDigitFirst (count ++ [separator capital]).reverse := by
        rw [List.reverse_append]
        exact noDigitFirst_cons (isDigit_separator capital)
      rw [hspell] at h
      obtain ⟨hbefore, rfl⟩ := eq_of_append_run_eq hf.sides_run hsix hstop hcs h
      obtain ⟨rfl, hseparator⟩ := List.append_inj' hbefore rfl
      cases capital
      · exact ⟨hf.count_run _ rfl, rfl⟩
      · simp [separator] at hseparator

end Notation.Form

/-! ## Values shown as digits -/

/-- A floating number is never written in digits alone. -/
theorem Floating.exists_not_digit_mem_text (x : Floating) : ∃ c ∈ x.text, c.isDigit = false := by
  cases x with
  | nan => exact ⟨'n', by decide, rfl⟩
  | infinite negative => exact ⟨'i', by cases negative <;> decide, rfl⟩
  | finite negative digits exponent =>
      suffices h : ∀ ds lead, ∃ c ∈ layOut ds lead, c.isDigit = false by
        obtain ⟨c, hc, hdigit⟩ := h (Decimal.ofNat digits) _
        exact ⟨c, List.mem_append_right _ hc, hdigit⟩
      intro ds lead
      unfold layOut
      split
      · split
        · exact ⟨'.', by simp, rfl⟩
        · exact ⟨'.', by simp, rfl⟩
      · exact ⟨'e', by simp [exponentPart], rfl⟩

namespace Value

/-- A value that is shown in digits alone is an integer or a text. -/
theorem exists_not_digit_of_display {v : Value} {shown : List Char}
    (hint : ∀ n, v ≠ .int n) (htext : ∀ t, v ≠ .text t) (h : v.display? = some shown) :
    ∃ c ∈ shown, c.isDigit = false := by
  cases v with
  | int n => exact absurd rfl (hint n)
  | text t => exact absurd rfl (htext t)
  | null =>
      cases h
      exact ⟨'N', by decide, rfl⟩
  | bool b =>
      cases h
      cases b
      · exact ⟨'F', by decide, rfl⟩
      · exact ⟨'T', by decide, rfl⟩
  | float x =>
      cases h
      exact x.exists_not_digit_mem_text
  | bytes content =>
      cases h
      exact ⟨'b', List.mem_cons_self, rfl⟩
  | list items =>
      obtain ⟨ts, -, rfl⟩ := Option.map_eq_some_iff.mp h
      exact ⟨'[', by simp, rfl⟩
  | tuple items =>
      obtain ⟨ts, -, rfl⟩ := Option.map_eq_some_iff.mp h
      refine ⟨'(', ?_, rfl⟩
      unfold tupleText
      split <;> simp
  | dict entries =>
      obtain ⟨ts, -, rfl⟩ := Option.map_eq_some_iff.mp h
      exact ⟨'\x7b', by simp, rfl⟩

/-! ## Counts -/

/-- What a value that is given for a count is shown as, and how many dice that
is: a natural number, or a text of digits that can be converted, where no digits
stand for one die. -/
inductive Counts : Value → List Char → Nat → Prop
  | int (n : Nat) : Counts (.int n) (Decimal.ofNat n) n
  | text {t : String} (hrun : Decimal.IsRun t.toList) (hlength : t.toList.length ≤ Decimal.limit) :
      Counts (.text t) t.toList (if t.toList = [] then 1 else Decimal.value t.toList)

/-- The value is shown like this and counts between 1 and 100 dice. -/
def CountsDice (v : Value) (shown : List Char) (n : Nat) : Prop :=
  v.Counts shown n ∧ 1 ≤ n ∧ n ≤ 100

/-- An integer counts itself. -/
theorem countsDice_int_iff (c : Int) :
    (∃ shown n, (Value.int c).CountsDice shown n) ↔ 1 ≤ c ∧ c ≤ 100 := by
  constructor
  · rintro ⟨_, n, ⟨⟩, hlow, hhigh⟩
    omega
  · rintro ⟨hlow, hhigh⟩
    obtain ⟨n, rfl⟩ := Int.eq_ofNat_of_zero_le (Int.le_trans (by decide) hlow)
    exact ⟨_, n, .int n, by omega, by omega⟩

theorem display?_of_countsDice {v : Value} {shown : List Char} {n : Nat}
    (h : v.CountsDice shown n) : v.display? = some shown := by
  obtain ⟨hcounts, -, hhigh⟩ := h
  cases hcounts with
  | int =>
      have hpower : 10 ^ 3 ≤ 10 ^ Decimal.limit := Nat.pow_le_pow_right (by decide) (by decide)
      have hfits : Decimal.Fits (n : Int) := by
        rw [Decimal.fits_iff, Int.natAbs_natCast]
        omega
      exact if_pos hfits
  | text => rfl

/-- What counts dice is shown in digits, and stands for its number as the count of
a notation. -/
theorem Counts.isRun {v : Value} {shown : List Char} {n : Nat} (h : v.Counts shown n) :
    Decimal.IsRun shown ∧ n = Decimal.value (Notation.Form.sixes shown).countDigits := by
  rw [Notation.Form.value_countDigits_sixes]
  cases h with
  | int =>
      rw [if_neg (Decimal.ofNat_ne_nil n), Decimal.value_ofNat]
      exact ⟨Decimal.isRun_ofNat n, rfl⟩
  | text hrun => exact ⟨hrun, rfl⟩

/-- Digits that a value is shown as count dice if they can be converted. -/
theorem counts_of_isRun {v : Value} {shown : List Char} (h : v.display? = some shown)
    (hrun : Decimal.IsRun shown) (hlength : shown.length ≤ Decimal.limit) :
    v.Counts shown (Decimal.value (Notation.Form.sixes shown).countDigits) := by
  by_cases hint : ∃ n, v = .int n
  · obtain ⟨n, rfl⟩ := hint
    obtain ⟨-, rfl⟩ := Decimal.ofInt?_eq_some_iff.mp h
    cases n with
    | ofNat n =>
        have hvalue := (Counts.int n).isRun.2
        exact hvalue ▸ Counts.int n
    | negSucc n => simp [Decimal.ofInt, Decimal.isRun_cons] at hrun
  · by_cases htext : ∃ t, v = .text t
    · obtain ⟨t, rfl⟩ := htext
      cases h
      rw [Notation.Form.value_countDigits_sixes]
      exact .text hrun hlength
    · obtain ⟨c, hc, hdigit⟩ := exists_not_digit_of_display (fun n hn => hint ⟨n, hn⟩)
        (fun t ht => htext ⟨t, ht⟩) h
      rw [hrun c hc] at hdigit
      contradiction

theorem inBounds_of_countsDice {v : Value} {shown : List Char} {n : Nat}
    (h : v.CountsDice shown n) :
    Notation.Form.InBounds (.count, (Notation.Form.sixes shown).countDigits) := by
  obtain ⟨hcounts, hbounds⟩ := h
  have hadmits : Part.count.Admits n := hbounds
  have hvalue := hcounts.isRun.2
  refine ⟨?_, hvalue ▸ hadmits⟩
  rw [Notation.Form.length_countDigits_sixes_le_iff]
  cases hcounts with
  | int => exact (Notation.Form.inBounds_ofNat hadmits).1
  | text _ hlength => exact hlength

end Value

namespace Reading

open Notation

/-- With `d6` after what it is shown as, a value is accepted exactly when it
counts dice, as the throw of so many with six sides. -/
theorem ofText_sixes_iff {v : Value} {shown : List Char} (h : v.display? = some shown)
    (t : Throw) :
    ofText (String.ofList (shown ++ ['d', '6'])) = .accepted t ↔
      v.CountsDice shown t.count ∧ t.sides = 6 ∧ t.modifier = none := by
  have hspell : (Form.sixes shown).spell = (String.ofList (shown ++ ['d', '6'])).toList := by
    rw [Form.spell_sixes, String.toList_ofList]
  by_cases hrun : Decimal.IsRun shown
  · rw [ofText_eq_accepted_iff (Form.wellFormed_sixes hrun) hspell]
    constructor
    · rintro ⟨hall, hcount, hsides, hmodifier⟩
      obtain ⟨hlength, hadmits⟩ := hall _ List.mem_cons_self
      refine ⟨?_, hsides, Option.map_eq_none_iff.mp hmodifier⟩
      rw [hcount]
      have hshort := (Form.length_countDigits_sixes_le_iff shown).mp hlength
      exact ⟨Value.counts_of_isRun h hrun hshort, hadmits⟩
    · rintro ⟨hcounts, hsides, hmodifier⟩
      refine ⟨?_, hcounts.1.isRun.2, hsides, by rw [hmodifier]; rfl⟩
      have hsix : Form.InBounds (.sides, ['6']) := by decide
      intro p hp
      simp only [Form.parts, Form.sixes, Option.elim_none, List.mem_cons, List.not_mem_nil,
        or_false] at hp
      rcases hp with rfl | rfl
      · exact Value.inBounds_of_countsDice hcounts
      · exact hsix
  · refine iff_of_false (fun haccepted => ?_) fun hcounts => hrun hcounts.1.1.isRun.1
    by_cases hform : ∃ f : Form, f.WellFormed ∧ f.spell = shown ++ ['d', '6']
    · obtain ⟨f, hf, hs⟩ := hform
      exact hrun (Form.eq_of_spell_eq_sixes hf hs).1
    · rw [ofText_of_malformed (by rwa [String.toList_ofList])] at haccepted
      contradiction

end Reading

/-! ## Rolling the dice counted -/

variable {σ κ : Type} [DieSource σ] [Clock κ]

namespace Roll

variable {s : Supply σ κ} {time : Timestamp} {clock : κ}

/-- Dice without a modifier make a success if they and their sum can be written;
they are rolled either way. -/
theorem finish_rollText_of_accepted {u : String} {t : Throw} {rolls : List Int} {dice : σ}
    (hread : Reading.ofText u = .accepted t) (hmodifier : t.modifier = none)
    (hdice : DieSource.drawEach (List.replicate t.count t.sides) s.dice = .ok rolls dice)
    (hnow : Clock.now s.clock = .ok time clock) :
    ((rollText u).finish s).2.dice = dice ∧
      ((rollText u).finish s).1 =
        if ∀ n ∈ rolls ++ [diceSum rolls], Decimal.Fits n then
          .ok (.success (successOf u t rolls (Breakdown.text rolls t) time))
        else .error .oversizedInteger := by
  have hoffset : t.offset = 0 := by rw [Throw.offset, hmodifier]; rfl
  have hroll : rollText (σ := σ) (κ := κ) u = perform u t := by simp only [rollText, hread]
  have hentry : (entryOf u t rolls).numbers = rolls ++ [diceSum rolls] := by
    rw [entryOf, Entry.numbers, hoffset, Int.add_zero]
  rw [hroll]
  by_cases hfits : ∀ n ∈ rolls ++ [diceSum rolls], Decimal.Fits n
  · have hnumbers : ∀ n ∈ Breakdown.numbers rolls t, Decimal.Fits n := by
      simpa [Breakdown.numbers, hoffset] using hfits
    rw [Act.finish_of_ok (perform_of_derivation hdice (fits_entryOf hnumbers) (if_pos hnumbers)
      hnow), if_pos hfits]
    exact ⟨rfl, rfl⟩
  · rw [← hentry] at hfits
    rw [Act.finish_of_error (perform_of_not_fits hdice hfits), ← hentry, if_neg hfits]
    exact ⟨rfl, rfl⟩

/-- For a text that is refused no die is rolled. -/
theorem finish_rollText_of_refused {u : String} {r : Refusal}
    (hread : Reading.ofText u = .refused r) (hnow : Clock.now s.clock = .ok time clock) :
    ((rollText u).finish s).2.dice = s.dice ∧
      ((rollText u).finish s).1 = .ok (.failure ⟨r.spelling, r.message, time⟩) := by
  have hroll : rollText (σ := σ) (κ := κ) u = turnDown (Quoted.ofText u.toList) r := by
    simp only [rollText, hread]
  rw [hroll, Act.finish_of_ok (turnDown_of_now hnow _ r)]
  exact ⟨rfl, rfl⟩

end Roll

namespace Call

variable {settings : Settings} {v : Value}

/-- A count that can be shown is rolled as the text it makes. -/
theorem answer_rollSixes {shown : List Char} (h : v.display? = some shown) (s : Supply σ κ) :
    (rollSixes v).answer settings s =
      (((Roll.rollText (String.ofList (shown ++ ['d', '6']))).finish s).1.map .outcome,
        ((Roll.rollText (String.ofList (shown ++ ['d', '6']))).finish s).2) := by
  simp only [answer, run, Roll.rollSixes, h, Act.finish]
  cases hroll : Roll.rollText (String.ofList (shown ++ ['d', '6'])) s with
  | ok o after => rw [Act.bind_of_ok hroll]; rfl
  | error e after => rw [Act.bind_of_error hroll]; rfl

/-- One that cannot is not rolled, and nothing is touched. -/
theorem answer_rollSixes_of_not_writable (h : ¬v.Writable) (s : Supply σ κ) :
    (rollSixes v).answer settings s = (.error .oversizedInteger, s) := by
  have hnone : v.display? = none := by
    rwa [← Value.isSome_display?_iff, Option.not_isSome_iff_eq_none] at h
  simp only [answer, run, Roll.rollSixes, hnone]
  rfl

/-- What a success says about six-sided dice that were counted like this. -/
structure ShowsSixes (shown : List Char) (dice : List Int) (r : Success) : Prop where
  spelling : r.spelling = String.ofList (shown ++ ['d', '6'])
  rolls : r.rolls = dice
  total : r.total = diceSum dice
  modifier : r.modifier = none

section Served

variable (settings) {s : Supply σ κ} {time : Timestamp} {clock : κ}
  (hnow : Clock.now s.clock = .ok time clock)

include hnow

/-- A value that counts dice has them rolled; they make a success if they and
their sum can be written. -/
theorem answer_of_countsDice {shown : List Char} {n : Nat} (h : v.CountsDice shown n)
    {rolls : List Int} {left : σ}
    (hrolls : DieSource.drawEach (List.replicate n 6) s.dice = .ok rolls left) :
    ((rollSixes v).answer settings s).2.dice = left ∧
      if ∀ k ∈ rolls ++ [diceSum rolls], Decimal.Fits k then
        ∃ r, ((rollSixes v).answer settings s).1 = .ok (.outcome (.success r)) ∧
          ShowsSixes shown rolls r
      else ((rollSixes v).answer settings s).1 = .error .oversizedInteger := by
  let t : Throw := ⟨n, 6, none, h.2, by decide⟩
  have hdisplay := Value.display?_of_countsDice h
  have hread := (Reading.ofText_sixes_iff hdisplay t).mpr ⟨h, rfl, rfl⟩
  obtain ⟨hleft, hending⟩ := Roll.finish_rollText_of_accepted hread rfl hrolls hnow
  rw [answer_rollSixes hdisplay, hending]
  refine ⟨hleft, ?_⟩
  split
  · exact ⟨_, rfl, rfl, rfl, Int.add_zero _, rfl⟩
  · rfl

/-- Any other value has no die rolled. -/
theorem answer_of_not_countsDice (h : ¬∃ shown n, v.CountsDice shown n) :
    ((rollSixes v).answer settings s).2.dice = s.dice ∧
      if v.Writable then ∃ f, ((rollSixes v).answer settings s).1 = .ok (.outcome (.failure f))
      else ((rollSixes v).answer settings s).1 = .error .oversizedInteger := by
  by_cases hv : v.Writable
  · obtain ⟨shown, hdisplay⟩ := (Value.exists_display_iff v).mpr hv
    rw [answer_rollSixes hdisplay, if_pos hv]
    cases hread : Reading.ofText (String.ofList (shown ++ ['d', '6'])) with
    | accepted t =>
        exact absurd ⟨_, _, ((Reading.ofText_sixes_iff hdisplay t).mp hread).1⟩ h
    | refused r =>
        obtain ⟨hdice, hending⟩ := Roll.finish_rollText_of_refused hread hnow
        rw [hending]
        exact ⟨hdice, _, rfl⟩
  · rw [answer_rollSixes_of_not_writable hv, if_neg hv]
    exact ⟨rfl, rfl⟩

end Served

omit [Clock κ] in
/-- Six-sided dice that are fair can be written, and so can their sum. -/
theorem fits_of_fair (hfair : DieSource.Fair σ) {shown : List Char} {n : Nat}
    (h : v.CountsDice shown n) {dice left : σ} {rolls : List Int}
    (hrolls : DieSource.drawEach (List.replicate n 6) dice = .ok rolls left) :
    ∀ k ∈ rolls ++ [diceSum rolls], Decimal.Fits k := by
  let t : Throw := ⟨n, 6, none, h.2, by decide⟩
  have hlength := DieSource.length_of_drawEach hrolls
  rw [List.length_replicate] at hlength
  have hfits := t.numbers_fit hlength (DieSource.bounds_of_throw hfair hrolls)
  intro k hk
  refine hfits k ?_
  simp only [Breakdown.numbers, List.mem_append, List.mem_cons] at hk ⊢
  exact hk.imp_right fun hk => hk.imp_right .inr

/-- **As many six-sided dice are rolled as the count says, or none.**  Where
neither the dice that are counted nor the clock fail:

1. A value that counts dice has so many rolled with six sides, and no other die.
   The roll is a success, of these dice and no modifier, if they and their sum
   are short enough to be written, and the call fails if not.
2. For any other value no die is rolled.  The roll is a failure if the value can
   be shown, and the call fails if not.
3. An integer counts dice exactly when it lies between 1 and 100.
4. With fair dice, the roll is a success exactly when the value counts dice.
5. A script is asked for as many dice of six sides as are rolled. -/
theorem rollSixes_rolls_count (settings : Settings) {s : Supply σ κ}
    (hdice : ∀ shown n, v.CountsDice shown n → ∃ rolls left,
      DieSource.drawEach (List.replicate n 6) s.dice = .ok rolls left)
    (hclock : ∃ time left, Clock.now s.clock = .ok time left) :
    let answered := (rollSixes v).answer settings s
    (∀ shown n, v.CountsDice shown n → ∃ rolls,
      DieSource.drawEach (List.replicate n 6) s.dice = .ok rolls answered.2.dice ∧
      if ∀ k ∈ rolls ++ [diceSum rolls], Decimal.Fits k then
        ∃ r, answered.1 = .ok (.outcome (.success r)) ∧ ShowsSixes shown rolls r
      else answered.1 = .error .oversizedInteger) ∧
    ((¬∃ shown n, v.CountsDice shown n) → answered.2.dice = s.dice ∧
      if v.Writable then ∃ f, answered.1 = .ok (.outcome (.failure f))
      else answered.1 = .error .oversizedInteger) ∧
    (∀ c, v = .int c → ((∃ shown n, v.CountsDice shown n) ↔ 1 ≤ c ∧ c ≤ 100)) ∧
    (DieSource.Fair σ → ((∃ r, answered.1 = .ok (.outcome (.success r))) ↔
      ∃ shown n, v.CountsDice shown n)) ∧
    ∀ n rolls (script left : Script),
      DieSource.drawEach (List.replicate n 6) script = .ok rolls left →
        left.calls = script.calls ++ List.replicate n (1, 6) := by
  intro answered
  obtain ⟨time, clock, hnow⟩ := hclock
  refine ⟨?_, answer_of_not_countsDice settings hnow, ?_, fun hfair => ⟨?_, ?_⟩, ?_⟩
  · intro shown n hcounts
    obtain ⟨rolls, left, hrolls⟩ := hdice shown n hcounts
    obtain ⟨hleft, hanswer⟩ := answer_of_countsDice settings hnow hcounts hrolls
    refine ⟨rolls, ?_, hanswer⟩
    rw [hrolls, hleft]
  · rintro c rfl
    exact Value.countsDice_int_iff c
  · rintro ⟨r, hr⟩
    apply Classical.byContradiction
    intro hnone
    obtain ⟨-, hanswer⟩ := answer_of_not_countsDice settings hnow hnone
    split at hanswer
    · obtain ⟨f, hf⟩ := hanswer
      cases hr.symm.trans hf
    · cases hr.symm.trans hanswer
  · rintro ⟨shown, n, hcounts⟩
    obtain ⟨rolls, left, hrolls⟩ := hdice shown n hcounts
    obtain ⟨-, hanswer⟩ := answer_of_countsDice settings hnow hcounts hrolls
    rw [if_pos (fits_of_fair hfair hcounts hrolls)] at hanswer
    exact ⟨_, hanswer.choose_spec.1⟩
  · intro n rolls script left hrolls
    rw [(drawEach_script_ok hrolls).2.2]

/-- Digits with a zero in front roll two dice; a whole notation given for the count
rolls none. -/
theorem rollSixes_rolls_count_of_zero_two :
    let s := dealt [3, 5, 4]
    (Value.text "02").CountsDice ['0', '2'] 2 ∧
    (∃ r, ((rollSixes (.text "02")).answer .defaults s).1 = .ok (.outcome (.success r)) ∧
      ShowsSixes ['0', '2'] [3, 5] r) ∧
    ((rollSixes (.text "1d20+1")).answer .defaults s).2.dice = s.dice ∧
    ∃ f, ((rollSixes (.text "1d20+1")).answer .defaults s).1 = .ok (.outcome (.failure f)) := by
  intro s
  have htwo : (Value.text "02").CountsDice ['0', '2'] 2 :=
    ⟨.text (t := "02") (by decide) (by decide), by decide, by decide⟩
  have hnone : ¬∃ shown n, (Value.text "1d20+1").CountsDice shown n := by
    rintro ⟨shown, n, hcounts, -⟩
    have hrun := hcounts.isRun.1
    cases hcounts
    exact absurd hrun (by decide)
  have hdice : ∀ shown n, (Value.text "02").CountsDice shown n → ∃ rolls left,
      DieSource.drawEach (List.replicate n 6) s.dice = .ok rolls left := by
    rintro shown n ⟨hcounts, -⟩
    cases hcounts
    exact ⟨_, _, rfl⟩
  have hclock : ∃ time left, Clock.now s.clock = .ok time left := ⟨_, _, rfl⟩
  obtain ⟨hrolled, -⟩ := rollSixes_rolls_count .defaults hdice hclock
  obtain ⟨-, hrefused, -⟩ := rollSixes_rolls_count .defaults
    (fun shown n h => absurd ⟨shown, n, h⟩ hnone) hclock
  obtain ⟨rolls, hrolls, hsuccess⟩ := hrolled _ _ htwo
  have hdrawn : DieSource.drawEach (List.replicate 2 6) s.dice =
      .ok [3, 5] ⟨[4], [(1, 6), (1, 6)]⟩ := rfl
  obtain ⟨rfl, -⟩ := EStateM.Result.ok.inj (hdrawn.symm.trans hrolls)
  rw [if_pos (by decide)] at hsuccess
  obtain ⟨hleft, hfailure⟩ := hrefused hnone
  rw [if_pos (by decide)] at hfailure
  exact ⟨htwo, hsuccess, hleft, hfailure⟩

theorem countsDice_two : (Value.int 2).CountsDice ['2'] 2 := ⟨.int 2, by decide, by decide⟩

/-- Two dice whose sum cannot be written are rolled for nothing. -/
theorem answer_two_of_long_sum {n : Int} (hlong : ¬Decimal.Fits (n + 1)) :
    ((rollSixes (.int 2)).answer .defaults (dealt [n, 1])).1 = .error .oversizedInteger := by
  have hnow : Clock.now (dealt [n, 1]).clock = .ok .epoch (dealt [n, 1]).clock := rfl
  have hrolls : DieSource.drawEach (List.replicate 2 6) (dealt [n, 1]).dice =
      .ok [n, 1] ⟨[], [(1, 6), (1, 6)]⟩ := rfl
  have hunfit : ¬∀ k ∈ [n, 1] ++ [diceSum [n, 1]], Decimal.Fits k :=
    fun hfits => hlong (hfits (n + 1) (by simp [diceSum]))
  have hanswer := (answer_of_countsDice .defaults hnow countsDice_two hrolls).2
  rwa [if_neg hunfit] at hanswer

/-- Two dice that can be written, but whose sum cannot, leave a count of two
without a success, though neither they nor the clock fail. -/
theorem unanswered_count_for_long_sum :
    let most : Int := Decimal.tooLong - 1
    (Value.int 2).CountsDice ['2'] 2 ∧
    (∃ left, DieSource.drawEach (List.replicate 2 6) (dealt [most, 1]).dice = .ok [most, 1] left) ∧
    (Decimal.Fits most ∧ Decimal.Fits 1) ∧
    (∃ time left, Clock.now (dealt [most, 1]).clock = .ok time left) ∧
    ((rollSixes (.int 2)).answer .defaults (dealt [most, 1])).1 = .error .oversizedInteger := by
  intro most
  refine ⟨countsDice_two, ⟨_, rfl⟩, ⟨Decimal.fits_tooLong_sub_one, by decide⟩, ⟨_, _, rfl⟩, ?_⟩
  apply answer_two_of_long_sum
  rw [Int.sub_add_cancel]
  exact Decimal.not_fits_tooLong

end Call

end Tabletop
