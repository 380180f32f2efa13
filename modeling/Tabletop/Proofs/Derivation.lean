import Tabletop.Proofs.Fairness

/-!
# Tabletop.Proofs.Derivation

What the derivation of a total says, and that it loses nothing.

`Breakdown.segments` and `Breakdown.evaluate?` read a derivation back without
knowing how it was written.

* `segments_text`: a derivation is cut exactly where its steps were joined,
  since no step has an equals sign in it.
* `splitOn_sumText`: the words of a step are its numerals and the signs
  between them, since none of these has a blank in it.
* `text_eq_text_iff`: two derivations are the same text exactly when the dice
  are the same and the same is added to them.
* `chain_of_text?`: a derivation is a chain of equal sums that ends in the
  total, if none of its numbers is too long to be written.

A step alone does not tell a modifier from a die: `4 + 2 + 3` may be three
dice, or two and a modifier.  The number of steps does, and so does the second
step, where the dice are already added up.
-/

namespace Tabletop

open Text

namespace Breakdown

/-! ## Numerals -/

theorem numeral?_of_isRun {ds : List Char} (hrun : Decimal.IsRun ds) (hne : ds ≠ []) :
    numeral? ds = some (Decimal.value ds : Int) := by
  unfold numeral?
  split
  · next rest =>
      -- A minus sign is no digit, so the run cannot begin with one.
      have hminus := hrun '-' List.mem_cons_self
      contradiction
  · rw [if_pos ⟨hne, hrun⟩]

theorem numeral?_ofNat (n : Nat) : numeral? (Decimal.ofNat n) = some (n : Int) := by
  rw [numeral?_of_isRun (Decimal.isRun_ofNat n) (Decimal.ofNat_ne_nil n), Decimal.value_ofNat]

/-- The numeral of an integer is read as that integer. -/
theorem numeral?_ofInt (n : Int) : numeral? (Decimal.ofInt n) = some n := by
  cases n with
  | ofNat n => exact numeral?_ofNat n
  | negSucc n =>
      have hdigits : Decimal.ofNat (n + 1) ≠ [] ∧ Decimal.IsRun (Decimal.ofNat (n + 1)) :=
        ⟨Decimal.ofNat_ne_nil _, Decimal.isRun_ofNat _⟩
      rw [Decimal.ofInt, numeral?, if_pos hdigits, Decimal.value_ofNat]
      rfl

theorem not_mem_ofInt {c : Char} (hdigit : c.isDigit = false) (hminus : c ≠ '-') (n : Int) :
    c ∉ Decimal.ofInt n := by
  intro hc
  cases Decimal.mem_ofInt hc with
  | inl h => exact hminus h
  | inr h => simp [hdigit] at h

/-! ## Cutting at the equals signs -/

/-- A character stays with what follows it, unless an equals sign follows. -/
theorem segments_cons {c : Char} {cs first : List Char} {others : List (List Char)}
    (hcs : cs.head? ≠ some '=') (h : segments cs = first :: others) :
    segments (c :: cs) = (c :: first) :: others := by
  unfold segments
  split
  · next heq =>
      obtain ⟨-, rfl⟩ := List.cons.inj heq
      exact absurd rfl hcs
  · next heq =>
      obtain ⟨rfl, rfl⟩ := List.cons.inj heq
      rw [h]
  · contradiction

/-- A text without an equals sign is not cut. -/
theorem segments_of_not_mem {cs : List Char} (h : '=' ∉ cs) : segments cs = [cs] := by
  induction cs with
  | nil => rfl
  | cons c cs ih =>
      simp only [List.mem_cons, not_or] at h
      refine segments_cons (fun hhead => h.2 ?_) (ih h.2)
      exact List.mem_of_head? hhead

/-- The first cut is at the first separator. -/
theorem segments_append {cs : List Char} (h : '=' ∉ cs) (rest : List Char) :
    segments (cs ++ ' ' :: '=' :: ' ' :: rest) = cs :: segments rest := by
  induction cs with
  | nil => rfl
  | cons c cs ih =>
      simp only [List.mem_cons, not_or] at h
      refine segments_cons ?_ (ih h.2)
      cases cs with
      | nil => simp
      | cons d cs =>
          intro hhead
          have hd : d = '=' := Option.some.inj hhead
          simp [hd] at h

/-- Texts without equals signs are what they are cut into when joined. -/
theorem segments_intercalate {ls : List (List Char)} (hne : ls ≠ []) (h : ∀ l ∈ ls, '=' ∉ l) :
    segments ([' ', '=', ' '].intercalate ls) = ls := by
  induction ls with
  | nil => contradiction
  | cons l ls ih =>
      have hl := h l List.mem_cons_self
      cases ls with
      | nil => rw [List.intercalate_singleton, segments_of_not_mem hl]
      | cons l' ls =>
          have hrest := ih (List.cons_ne_nil l' ls) fun k hk => h k (List.mem_cons_of_mem l hk)
          rw [List.intercalate_cons_cons, List.append_assoc, List.cons_append, List.cons_append,
            List.cons_append, List.nil_append, segments_append hl, hrest]

/-! ## The words of a step -/

/-- A step as it is written: the dice, and the modifier if there is one to
show. -/
def sumText (rolls : List Int) (m : Option Modifier) : List Char := dice rolls ++ m.elim [] clause

/-- The words of a step that begins with this number. -/
def sumWords (n : Int) (rest : List Int) (m : Option Modifier) : List (List Char) :=
  Decimal.ofInt n :: rest.flatMap (fun k => [['+'], Decimal.ofInt k]) ++
    m.elim [] fun m => [[m.sign.symbol], Decimal.ofNat m.value]

theorem sumText_singleton (n : Int) : sumText [n] none = Decimal.ofInt n := by
  simp [sumText, dice]

theorem sumText_cons_cons (n k : Int) (rest : List Int) (m : Option Modifier) :
    sumText (n :: k :: rest) m =
      Decimal.ofInt n ++ [' '] ++ (['+'] ++ [' '] ++ sumText (k :: rest) m) := by
  simp [sumText, dice, List.intercalate_cons_cons]

theorem sumWords_cons (n k : Int) (rest : List Int) (m : Option Modifier) :
    sumWords n (k :: rest) m = Decimal.ofInt n :: ['+'] :: sumWords k rest m := rfl

/-- A step is its words with blanks between them. -/
theorem sumText_eq_intercalate (n : Int) (rest : List Int) (m : Option Modifier) :
    sumText (n :: rest) m = [' '].intercalate (sumWords n rest m) := by
  induction rest generalizing n with
  | nil => cases m <;> simp [sumText, sumWords, dice, clause, List.intercalate_cons_cons]
  | cons k rest ih =>
      rw [sumText_cons_cons, sumWords_cons, ih, List.intercalate_cons_cons]
      rfl

theorem not_mem_sumWords {c : Char} (hdigit : c.isDigit = false) (hminus : c ≠ '-')
    (hplus : c ≠ '+') (n : Int) (rest : List Int) (m : Option Modifier) :
    ∀ w ∈ sumWords n rest m, c ∉ w := by
  have hnumeral : ∀ k, c ∉ Decimal.ofInt k := not_mem_ofInt hdigit hminus
  have hvalue : ∀ k : Nat, c ∉ Decimal.ofNat k := fun k => hnumeral k
  have hsymbol : ∀ g : Sign, c ≠ g.symbol := by
    intro g
    cases g <;> assumption
  intro w hw
  simp only [sumWords, List.cons_append, List.mem_cons, List.mem_append, List.mem_flatMap] at hw
  obtain rfl | ⟨k, -, rfl | rfl | hw⟩ | hw := hw
  · exact hnumeral n
  · simpa using hplus
  · exact hnumeral k
  · contradiction
  · cases m with
    | none => contradiction
    | some m =>
        simp only [Option.elim_some, List.mem_cons, List.not_mem_nil, or_false] at hw
        obtain rfl | rfl := hw
        · simpa using hsymbol m.sign
        · exact hvalue m.value

theorem splitOn_sumText (n : Int) (rest : List Int) (m : Option Modifier) :
    (sumText (n :: rest) m).splitOn ' ' = sumWords n rest m := by
  rw [sumText_eq_intercalate]
  exact List.splitOn_intercalate ' '
    (not_mem_sumWords (by decide) (by decide) (by decide) n rest m) (by simp [sumWords])

/-- A step has no equals sign in it. -/
theorem not_mem_sumText (rolls : List Int) (m : Option Modifier) : '=' ∉ sumText rolls m := by
  have hnumeral : ∀ k, '=' ∉ Decimal.ofInt k := not_mem_ofInt (by decide) (by decide)
  have hclause : '=' ∉ m.elim [] clause := by
    cases m with
    | none => exact List.not_mem_nil
    | some m =>
        have hvalue : '=' ∉ Decimal.ofNat m.value := hnumeral m.value
        cases hsign : m.sign <;> simp [clause, hsign, Sign.symbol, hvalue]
  induction rolls with
  | nil => exact hclause
  | cons n rest ih =>
      cases rest with
      | nil => simpa [sumText, dice, hnumeral] using hclause
      | cons k rest => simpa [sumText_cons_cons, hnumeral] using ih

/-! ## The value of a step -/

theorem evaluateFrom?_dice (sum : Int) (rest : List Int) (tail : List (List Char)) :
    evaluateFrom? sum (rest.flatMap (fun k => [['+'], Decimal.ofInt k]) ++ tail) =
      evaluateFrom? (sum + diceSum rest) tail := by
  induction rest generalizing sum with
  | nil => simp [diceSum]
  | cons k rest ih =>
      rw [List.flatMap_cons, List.append_assoc, List.cons_append, List.cons_append,
        List.nil_append, evaluateFrom?, numeral?_ofInt, Option.bind_some, ih, diceSum,
        Int.add_assoc]

theorem evaluateFrom?_clause (sum : Int) (m : Modifier) :
    evaluateFrom? sum [[m.sign.symbol], Decimal.ofNat m.value] = some (sum + m.signed) := by
  cases hsign : m.sign <;>
    simp [evaluateFrom?, Sign.symbol, Modifier.signed, Sign.factor, hsign, numeral?_ofNat,
      Int.sub_eq_add_neg]

/-- A step has the value of its dice and its modifier. -/
theorem evaluate?_sumText (n : Int) (rest : List Int) (m : Option Modifier) :
    evaluate? (sumText (n :: rest) m) = some (diceSum (n :: rest) + m.elim 0 Modifier.signed) := by
  have hwords : evaluate? (sumText (n :: rest) m) =
      evaluateFrom? (n + diceSum rest)
        (m.elim [] fun m => [[m.sign.symbol], Decimal.ofNat m.value]) := by
    rw [evaluate?, splitOn_sumText, sumWords, List.cons_append]
    simp only [numeral?_ofInt, Option.bind_some, evaluateFrom?_dice]
  rw [hwords, diceSum]
  cases m with
  | none => simp [evaluateFrom?]
  | some m => exact evaluateFrom?_clause _ m

/-! ## Whole derivations -/

/-- The steps of a derivation: the dice, their sum if a modifier is shown, and
the total. -/
theorem steps_eq (rolls : List Int) (t : Throw) :
    steps rolls t =
      sumText rolls (shownModifier? t) ::
        (shownModifier? t).elim [] (fun m => [sumText [diceSum rolls] (some m)]) ++
        [sumText [diceSum rolls + (shownModifier? t).elim 0 Modifier.signed] none] := by
  cases h : shownModifier? t <;> simp [steps, h, sumText, dice]

/-- **A derivation is cut into its steps.** -/
theorem segments_text (rolls : List Int) (t : Throw) : segments (text rolls t) = steps rolls t := by
  apply segments_intercalate
  · simp [steps_eq]
  · intro step hstep
    have hsum : ∃ ns m, step = sumText ns m := by
      rw [steps_eq] at hstep
      cases hm : shownModifier? t <;> grind
    obtain ⟨ns, m, rfl⟩ := hsum
    exact not_mem_sumText ns m

/-! ## The modifier that is shown -/

theorem offset_eq (t : Throw) : t.offset = (shownModifier? t).elim 0 Modifier.signed := by
  cases hm : t.modifier with
  | none => simp [Throw.offset, shownModifier?, hm]
  | some m =>
      by_cases hvalue : m.value = 0 <;>
        simp [Throw.offset, shownModifier?, hm, hvalue, Modifier.signed, Option.filter]

/-- A modifier that is shown adds something. -/
theorem signed_ne_zero_of_shown {t : Throw} {m : Modifier} (h : shownModifier? t = some m) :
    m.signed ≠ 0 := by
  rw [shownModifier?, Option.filter_eq_some_iff] at h
  cases hsign : m.sign <;> simpa [Modifier.signed, hsign, Sign.factor] using h.2

/-- No modifier is shown exactly when nothing is added. -/
theorem shownModifier?_eq_none_iff (t : Throw) : shownModifier? t = none ↔ t.offset = 0 := by
  rw [offset_eq]
  cases h : shownModifier? t with
  | none => simp
  | some m => simpa using signed_ne_zero_of_shown h

/-- Modifiers that add the same, and something, are the same. -/
theorem modifier_eq_of_signed_eq {m p : Modifier} (hm : m.signed ≠ 0)
    (h : m.signed = p.signed) : m = p := by
  obtain ⟨g, v, hv⟩ := m
  obtain ⟨g', v', hv'⟩ := p
  have hboth : g = g' ∧ v = v' := by
    cases g <;> cases g' <;> grind [Modifier.signed, Sign.factor]
  obtain ⟨rfl, rfl⟩ := hboth
  rfl

/-- What is added tells which modifier is shown, and the other way round. -/
theorem shownModifier?_eq_iff (t u : Throw) :
    shownModifier? t = shownModifier? u ↔ t.offset = u.offset := by
  constructor
  · intro h
    rw [offset_eq, h, ← offset_eq]
  · intro h
    cases ht : shownModifier? t with
    | none =>
        rw [shownModifier?_eq_none_iff, h, ← shownModifier?_eq_none_iff] at ht
        exact ht.symm
    | some m =>
        have hm := signed_ne_zero_of_shown ht
        cases hu : shownModifier? u with
        | none =>
            rw [shownModifier?_eq_none_iff, ← h, ← shownModifier?_eq_none_iff, ht] at hu
            contradiction
        | some p =>
            rw [offset_eq, offset_eq, ht, hu] at h
            rw [modifier_eq_of_signed_eq hm h]

/-! ## Nothing is lost -/

/-- What is written, if anything is, is the derivation. -/
theorem text?_eq_some_iff {rolls : List Int} {t : Throw} {derivation : List Char} :
    text? rolls t = some derivation ↔
      (∀ n ∈ numbers rolls t, Decimal.Fits n) ∧ text rolls t = derivation := by
  by_cases hfits : ∀ n ∈ numbers rolls t, Decimal.Fits n <;> simp [text?, hfits]

/-- The numerals among the words of a step are its dice and the value of its
modifier. -/
theorem filterMap_splitOn_sumText (n : Int) (rest : List Int) (m : Option Modifier) :
    ((sumText (n :: rest) m).splitOn ' ').filterMap numeral? =
      n :: rest ++ m.elim [] fun m => [(m.value : Int)] := by
  have hdice : (rest.flatMap fun k => [['+'], Decimal.ofInt k]).filterMap numeral? = rest := by
    have hplus : numeral? ['+'] = none := rfl
    induction rest with
    | nil => rfl
    | cons k rest ih => simp [hplus, numeral?_ofInt, ih]
  have hsymbol : ∀ g : Sign, numeral? [g.symbol] = none := by
    intro g
    cases g <;> rfl
  rw [splitOn_sumText]
  cases m <;> simp [sumWords, numeral?_ofInt, numeral?_ofNat, hdice, hsymbol]

theorem dice_injective {rolls rolls' : List Int} (h : dice rolls = dice rolls') :
    rolls = rolls' := by
  -- No dice have no words, where one die or more have.
  have hread : ∀ ns, ((dice ns).splitOn ' ').filterMap numeral? = ns := by
    intro ns
    cases ns with
    | nil => rfl
    | cons n rest => simpa [sumText] using filterMap_splitOn_sumText n rest none
  rw [← hread rolls, h, hread]

theorem clause_injective {m p : Modifier} (h : clause m = clause p) : m = p := by
  obtain ⟨g, v, hv⟩ := m
  obtain ⟨g', v', hv'⟩ := p
  simp only [clause, List.cons.injEq, true_and] at h
  have hsign : g = g' := by
    cases g <;> cases g' <;> simp_all [Sign.symbol]
  have hvalue : v = v' := by rw [← Decimal.value_ofNat v, h.2, Decimal.value_ofNat]
  subst hsign hvalue
  rfl

/-- A number and the modifier after it are told apart. -/
theorem sumText_singleton_injective {n k : Int} {m p : Modifier}
    (h : sumText [n] (some m) = sumText [k] (some p)) : n = k ∧ m = p := by
  have hnumbers := congrArg (fun cs => (cs.splitOn ' ').filterMap numeral?) h
  simp only [filterMap_splitOn_sumText, List.cons_append, List.cons.injEq] at hnumbers
  obtain ⟨rfl, -⟩ := hnumbers
  exact ⟨rfl, clause_injective (List.append_cancel_left h)⟩

/-- The steps of a derivation tell the dice and the modifier shown. -/
theorem steps_injective {rolls rolls' : List Int} {t u : Throw} (h : steps rolls t = steps rolls' u) :
    rolls = rolls' ∧ shownModifier? t = shownModifier? u := by
  rw [steps_eq, steps_eq] at h
  cases ht : shownModifier? t with
  | none =>
      cases hu : shownModifier? u with
      | none =>
          simp only [ht, hu, Option.elim_none, List.cons_append, List.cons.injEq] at h
          exact ⟨dice_injective (List.append_cancel_right h.1), rfl⟩
      | some p => simp [ht, hu] at h
  | some m =>
      cases hu : shownModifier? u with
      | none => simp [ht, hu] at h
      | some p =>
          simp only [ht, hu, Option.elim_some, List.cons_append, List.cons.injEq] at h
          -- The second step settles the modifier, the first one then the dice.
          obtain ⟨-, rfl⟩ := sumText_singleton_injective h.2.1
          exact ⟨dice_injective (List.append_cancel_right h.1), rfl⟩

theorem text_injective {rolls rolls' : List Int} {t u : Throw} (h : text rolls t = text rolls' u) :
    rolls = rolls' ∧ t.offset = u.offset := by
  have hsteps : steps rolls t = steps rolls' u := by
    rw [← segments_text, h, segments_text]
  obtain ⟨hrolls, hshown⟩ := steps_injective hsteps
  exact ⟨hrolls, (shownModifier?_eq_iff t u).mp hshown⟩

theorem text_congr (rolls : List Int) {t u : Throw} (h : t.offset = u.offset) :
    text rolls t = text rolls u := by
  have hshown := (shownModifier?_eq_iff t u).mpr h
  rw [text, text, steps_eq, steps_eq, hshown]

/-- **A derivation loses nothing.**  Two derivations are the same text exactly
when the dice are the same and the same is added to them; so a modifier is
never taken for a die, and only modifiers of zero are taken for none.  Nor is
anything lost where numbers may be too long to be written: two derivations are
then written, and the same text, exactly when besides none of their numbers is
too long. -/
theorem text_eq_text_iff (rolls rolls' : List Int) (t u : Throw) :
    (text rolls t = text rolls' u ↔ rolls = rolls' ∧ t.offset = u.offset) ∧
      ((∃ derivation, text? rolls t = some derivation ∧ text? rolls' u = some derivation) ↔
        (rolls = rolls' ∧ t.offset = u.offset) ∧ ∀ n ∈ numbers rolls t, Decimal.Fits n) := by
  constructor
  · constructor
    · exact text_injective
    · rintro ⟨rfl, hoffset⟩
      exact text_congr rolls hoffset
  · constructor
    · rintro ⟨derivation, ht, hu⟩
      obtain ⟨hfits, rfl⟩ := text?_eq_some_iff.mp ht
      obtain ⟨-, htext⟩ := text?_eq_some_iff.mp hu
      exact ⟨text_injective htext.symm, hfits⟩
    · rintro ⟨⟨rfl, hoffset⟩, hfits⟩
      refine ⟨text rolls t, text?_eq_some_iff.mpr ⟨hfits, rfl⟩, text?_eq_some_iff.mpr ⟨?_, ?_⟩⟩
      · rwa [numbers, ← hoffset]
      · exact text_congr rolls hoffset.symm

/-- A die is told from a modifier by the sum that follows. -/
example :
    text [4, 2] ⟨2, 6, some ⟨.plus, 3, by decide⟩, by decide, by decide⟩ =
        "4 + 2 + 3 = 6 + 3 = 9".toList ∧
      text [4, 2, 3] ⟨3, 6, none, by decide, by decide⟩ = "4 + 2 + 3 = 9".toList := by
  decide

/-! ## A chain of equal sums -/

/-- A derivation with so many steps, each of them a sum that comes to the
total; the last step is the numeral of the total and nothing else. -/
structure Chain (derivation : List Char) (length : Nat) (total : Int) : Prop where
  length_eq : (segments derivation).length = length
  evaluate?_eq : ∀ step ∈ segments derivation, evaluate? step = some total
  getLast?_eq : (segments derivation).getLast? = some (Decimal.ofInt total)
  numeral?_last : ∀ step ∈ (segments derivation).getLast?, numeral? step = some total

theorem length_steps (rolls : List Int) (t : Throw) :
    (steps rolls t).length = if t.offset = 0 then 2 else 3 := by
  simp only [← shownModifier?_eq_none_iff, steps_eq]
  cases shownModifier? t <;> rfl

theorem evaluate?_of_mem_steps {n : Int} {rest : List Int} {t : Throw} {step : List Char}
    (h : step ∈ steps (n :: rest) t) :
    evaluate? step = some (diceSum (n :: rest) + t.offset) := by
  rw [steps_eq] at h
  rw [offset_eq]
  simp only [List.mem_append, List.mem_cons, List.not_mem_nil, or_false] at h
  obtain (rfl | hsum) | rfl := h
  · exact evaluate?_sumText n rest _
  · cases hm : shownModifier? t with
    | none =>
        rw [hm] at hsum
        contradiction
    | some m =>
        simp only [hm, Option.elim_some, List.mem_singleton] at hsum
        simp [hsum, evaluate?_sumText, diceSum]
  · simp [evaluate?_sumText, diceSum]

theorem getLast?_steps (rolls : List Int) (t : Throw) :
    (steps rolls t).getLast? = some (Decimal.ofInt (diceSum rolls + t.offset)) := by
  rw [steps_eq, List.getLast?_concat, sumText_singleton, ← offset_eq]

/-- What is written for one die or more is such a chain. -/
theorem chain_of_text? {n : Int} {rest : List Int} {t : Throw} {derivation : List Char}
    (h : text? (n :: rest) t = some derivation) :
    Chain derivation (if t.offset = 0 then 2 else 3) (diceSum (n :: rest) + t.offset) := by
  obtain ⟨-, rfl⟩ := text?_eq_some_iff.mp h
  constructor
  · rw [segments_text, length_steps]
  · intro step hstep
    rw [segments_text] at hstep
    exact evaluate?_of_mem_steps hstep
  · rw [segments_text, getLast?_steps]
  · intro step hstep
    rw [segments_text, getLast?_steps] at hstep
    cases hstep
    exact numeral?_ofInt _

end Breakdown

/-- The derivation that a success keeps is a chain that ends in its total. -/
theorem Roll.chain_of_roll {σ κ : Type} [DieSource σ] [Clock κ] {settings : Settings} {v : Value}
    {s after : Supply σ κ} {r : Success} (h : Roll.roll settings v s = .ok (.success r) after) :
    ∃ t, Reading.ofText r.spelling = .accepted t ∧
      Breakdown.Chain r.breakdown.toList (if t.offset = 0 then 2 else 3) r.total := by
  have hcourse := course_finish settings v s
  rw [Act.finish_of_ok h] at hcourse
  cases hcourse with
  | @rolled spelling t rolls dice derivation time clock haccepts hdice _ hderivation _ =>
      refine ⟨t, haccepts.2, ?_⟩
      -- Even the smallest throw has a die.
      have hlength := DieSource.length_of_drawEach hdice
      have hcount : 1 ≤ t.count := t.count_admitted.1
      rw [List.length_replicate] at hlength
      cases rolls with
      | nil =>
          rw [List.length_nil] at hlength
          omega
      | cons n rest =>
          have hchain := Breakdown.chain_of_text? hderivation
          simpa [successOf] using hchain

namespace Breakdown

/-- **Every derivation is a chain of equal sums that ends in the total.**  For
one die or more it is written exactly when none of its numbers is too long; it
then has two steps if nothing is added to the dice and three otherwise, each
step comes to the total, and the last one is the numeral of the total.  So the
derivation of every success ends in its total. -/
theorem written_as_chain :
    (∀ (n : Int) (rest : List Int) (t : Throw),
      ((∀ k ∈ numbers (n :: rest) t, Decimal.Fits k) →
        ∃ derivation, text? (n :: rest) t = some derivation ∧
          Chain derivation (if t.offset = 0 then 2 else 3) (diceSum (n :: rest) + t.offset)) ∧
      ((¬∀ k ∈ numbers (n :: rest) t, Decimal.Fits k) → text? (n :: rest) t = none)) ∧
    ∀ (σ κ : Type) [DieSource σ] [Clock κ] (settings : Settings) (v : Value)
      (s after : Supply σ κ) (r : Success), Roll.roll settings v s = .ok (.success r) after →
        ∃ t, Reading.ofText r.spelling = .accepted t ∧
          Chain r.breakdown.toList (if t.offset = 0 then 2 else 3) r.total := by
  refine ⟨fun n rest t => ⟨fun hfits => ?_, fun hlong => if_neg hlong⟩, ?_⟩
  · have hwritten := text?_eq_some_iff.mpr ⟨hfits, rfl⟩
    exact ⟨_, hwritten, chain_of_text? hwritten⟩
  · intro σ κ _ _ settings v s after r h
    exact Roll.chain_of_roll h

/-- A negative die with a negative total, and a roll whose modifier of zero is
left out. -/
theorem written_as_chain_of_negative_total :
    let t : Throw := ⟨2, 6, some ⟨.minus, 4, by decide⟩, by decide, by decide⟩
    let dealt : Supply Script Stopped := ⟨⟨[-3, 2], []⟩, ⟨.epoch⟩, []⟩
    let r : Success := ⟨"2d6-0", [-3, 2], -1, some "-0", "-3 + 2 = -1", .epoch⟩
    (∃ derivation, text? [-3, 2] t = some derivation ∧ Chain derivation 3 (-5)) ∧
      ∃ after, Roll.roll .defaults (.text "2d6-0") dealt = .ok (.success r) after ∧
        ∃ t, Reading.ofText r.spelling = .accepted t ∧
          Chain r.breakdown.toList (if t.offset = 0 then 2 else 3) r.total := by
  intro t dealt r
  let q : Throw := ⟨2, 6, some ⟨.minus, 0, by decide⟩, by decide, by decide⟩
  have hread : Reading.ofText "2d6-0" = .accepted q := by decide
  have hdice : DieSource.drawEach (List.replicate q.count q.sides) dealt.dice =
      .ok [-3, 2] ⟨[], [(1, 6), (1, 6)]⟩ := rfl
  have hfits : ∀ n ∈ numbers [-3, 2] q, Decimal.Fits n := by decide
  have htext : text [-3, 2] q = "-3 + 2 = -1".toList := by decide
  have hroll : ∃ after, Roll.roll .defaults (.text "2d6-0") dealt = .ok (.success r) after := by
    rw [Roll.roll, Roll.rollText, hread]
    exact ⟨_, Roll.perform_of_derivation hdice (Roll.fits_entryOf hfits)
      (text?_eq_some_iff.mpr ⟨hfits, htext⟩) rfl⟩
  obtain ⟨after, hroll⟩ := hroll
  exact ⟨(written_as_chain.1 (-3) [2] t).1 (by decide),
    after, hroll, written_as_chain.2 Script Stopped .defaults _ dealt after r hroll⟩

/-- Dice that can be written down need not have a sum that can; then there is no
derivation. -/
theorem unwritten_for_long_sum :
    let t : Throw := ⟨2, 6, none, by decide, by decide⟩
    let long : Int := Decimal.tooLong - 1
    (∀ n ∈ [long, 1], Decimal.Fits n) ∧ ¬∃ derivation, text? [long, 1] t = some derivation := by
  intro t long
  have hone : ∀ n ∈ [(1 : Int)], Decimal.Fits n := by decide
  refine ⟨List.forall_mem_cons.mpr ⟨Decimal.fits_tooLong_sub_one, hone⟩, ?_⟩
  rintro ⟨derivation, hwritten⟩
  have hsum := (text?_eq_some_iff.mp hwritten).1 (long + 1) (by simp [numbers, diceSum])
  rw [Int.sub_add_cancel] at hsum
  exact Decimal.not_fits_tooLong hsum

end Breakdown

end Tabletop
