import Tabletop.Proofs.Fairness

/-!
# Tabletop.Proofs.Batches

Rolling a batch is rolling its values one after the other.

`Call.answers` makes calls in sequence and goes on after one that fails; a
batch ends there.  Up to that point the two agree, in the outcomes and in the
supply that is left:

* `Roll.rollEach_eq_ok_iff`: a batch is completed exactly when all the single
  rolls are, with their outcomes;
* `Roll.rollEach_eq_error_iff`: it fails exactly when one of the single rolls
  does and those before it are completed, and nothing after it is begun;
* `Roll.rollEach_append`: a batch in two parts is the one after the other.
-/

namespace Tabletop

variable {σ κ : Type} [DieSource σ] [Clock κ]

namespace Call

/-- The answers to single rolls that are completed. -/
def completed (os : List Outcome) : List (Except Fault Answer) := os.map fun o => .ok (.outcome o)

theorem answers_cons (settings : Settings) (c : Call) (rest : List Call) (s : Supply σ κ) :
    answers settings (c :: rest) s =
      ((c.answer settings s).1 :: (answers settings rest (c.answer settings s).2).1,
        (answers settings rest (c.answer settings s).2).2) := rfl

theorem answer_roll_of_ok {settings : Settings} {v : Value} {s after : Supply σ κ} {o : Outcome}
    (h : Roll.roll settings v s = .ok o after) :
    (roll v).answer settings s = (.ok (.outcome o), after) := by
  have hrun : (roll v).run settings s = .ok (.outcome o) after := Act.bind_of_ok h
  simp only [answer, hrun]

theorem answer_roll_of_error {settings : Settings} {v : Value} {s after : Supply σ κ} {e : Fault}
    (h : Roll.roll settings v s = .error e after) :
    (roll v).answer settings s = (.error e, after) := by
  have hrun : (roll v).run settings s = .error e after := Act.bind_of_error h
  simp only [answer, hrun]

theorem answer_roll_eq_error_iff {settings : Settings} {v : Value} {s after : Supply σ κ}
    {e : Fault} :
    (roll v).answer settings s = (.error e, after) ↔
      Roll.roll settings v s = .error e after := by
  cases h : Roll.roll settings v s with
  | ok o next => simp [answer_roll_of_ok h]
  | error e' next => simp [answer_roll_of_error h]

end Call

namespace Roll

variable {settings : Settings} {v : Value} {rest : List Value} {s after : Supply σ κ}

/-! ## A batch and its first value -/

theorem rollEach_cons_of_error {e : Fault} (h : roll settings v s = .error e after) :
    rollEach settings (v :: rest) s = .error e after := by
  rw [rollEach, Act.bind_of_error h]

/-- Once the first roll is completed, the others end the batch. -/
theorem rollEach_cons_of_ok {o : Outcome} (h : roll settings v s = .ok o after) :
    rollEach settings (v :: rest) s =
      (do return o :: (← rollEach settings rest) : Act σ κ (List Outcome)) after := by
  rw [rollEach, Act.bind_of_ok h]

/-! ## Batches and single rolls -/

theorem rollEach_eq_ok_iff {vs : List Value} {os : List Outcome} :
    rollEach settings vs s = .ok os after ↔
      Call.answers settings (vs.map .roll) s = (Call.completed os, after) := by
  induction vs generalizing s os with
  | nil =>
      rw [rollEach, List.map_nil, Call.answers, Prod.mk.injEq, Call.completed]
      constructor
      · intro h
        cases h
        exact ⟨rfl, rfl⟩
      · rintro ⟨hnone, rfl⟩
        rw [List.map_eq_nil_iff.mp hnone.symm]
        rfl
  | cons v rest ih =>
      rw [List.map_cons, Call.answers_cons]
      cases hroll : roll settings v s with
      | error e failed =>
          rw [rollEach_cons_of_error hroll, Call.answer_roll_of_error hroll]
          cases os <;> simp [Call.completed]
      | ok o next =>
          rw [rollEach_cons_of_ok hroll, Call.answer_roll_of_ok hroll]
          constructor
          · intro h
            obtain ⟨others, last, hrest, h⟩ := Act.exists_of_bind_eq_ok h
            cases h
            rw [ih.mp hrest]
            rfl
          · intro h
            obtain ⟨hos, rfl⟩ := Prod.mk.inj h
            obtain ⟨o', others, rfl, ho, hothers⟩ := List.map_eq_cons_iff.mp hos.symm
            cases ho
            exact Act.bind_of_ok (ih.mpr (Prod.ext hothers.symm rfl))

theorem rollEach_append (settings : Settings) (xs ys : List Value) :
    rollEach (σ := σ) (κ := κ) settings (xs ++ ys) = do
      let os ← rollEach settings xs
      let ps ← rollEach settings ys
      return os ++ ps := by
  induction xs with
  | nil => simp [rollEach]
  | cons x xs ih => simp [rollEach, ih]

/-- A roll that fails ends the batch, whatever was to come after it. -/
theorem rollEach_of_error {before : List Value} {os : List Outcome} {next : Supply σ κ} {e : Fault}
    (hbefore : rollEach settings before s = .ok os next)
    (hfails : roll settings v next = .error e after) :
    rollEach settings (before ++ v :: rest) s = .error e after := by
  rw [rollEach_append, Act.bind_of_ok hbefore, Act.bind_of_error (rollEach_cons_of_error hfails)]

/-- A batch that fails does so with one of its rolls, those before it being
completed. -/
theorem exists_of_rollEach_eq_error {vs : List Value} {e : Fault}
    (h : rollEach settings vs s = .error e after) :
    ∃ before v rest os next, vs = before ++ v :: rest ∧
      rollEach settings before s = .ok os next ∧ roll settings v next = .error e after := by
  induction vs generalizing s with
  | nil => contradiction
  | cons v rest ih =>
      cases hroll : roll settings v s with
      | error e' failed =>
          rw [rollEach_cons_of_error hroll] at h
          cases h
          exact ⟨[], v, rest, [], s, rfl, rfl, hroll⟩
      | ok o next =>
          rw [rollEach_cons_of_ok hroll] at h
          cases hrest : rollEach settings rest next with
          | ok others last =>
              rw [Act.bind_of_ok hrest] at h
              contradiction
          | error e' failed =>
              rw [Act.bind_of_error hrest] at h
              cases h
              obtain ⟨before, w, later, os, last, rfl, hbefore, hfails⟩ := ih hrest
              refine ⟨v :: before, w, later, o :: os, last, rfl, ?_, hfails⟩
              rw [rollEach_cons_of_ok hroll, Act.bind_of_ok hbefore]
              rfl

theorem rollEach_eq_error_iff {vs : List Value} {e : Fault} :
    rollEach settings vs s = .error e after ↔
      ∃ before v rest os next, vs = before ++ v :: rest ∧
        Call.answers settings (before.map .roll) s = (Call.completed os, next) ∧
        (Call.roll v).answer settings next = (.error e, after) := by
  simp only [← rollEach_eq_ok_iff, Call.answer_roll_eq_error_iff]
  constructor
  · exact exists_of_rollEach_eq_error
  · rintro ⟨before, v, rest, os, next, rfl, hbefore, hfails⟩
    exact rollEach_of_error hbefore hfails

/-! ## Going through a value -/

theorem rollMany_of_elements {given : Value} {vs : List Value} (h : given.elements? = some vs) :
    rollMany (σ := σ) (κ := κ) settings given = rollEach settings vs := by
  simp only [rollMany, h]

theorem rollMany_of_no_elements {given : Value} (h : given.elements? = none) :
    rollMany (σ := σ) (κ := κ) settings given = throw (.notIterable given.kindName) := by
  simp only [rollMany, h]

/-- **A batch is its values rolled one after the other.**

1. The values of a batch are the items of a list or tuple, the characters of a
   text, the numbers of a byte string and the keys of a dictionary; nothing else
   can be gone through.
2. A batch is completed exactly when the single rolls of its values are, with
   their outcomes in order, and leaves the supply that they leave.
3. It fails exactly when one of the single rolls does, those before it being
   completed, with the same fault and the supply that this roll leaves; nothing
   is done with the values after it.
4. A batch in two parts is the first part and then the second.
5. A value that cannot be gone through is a fault, and the supply stays as it is.
6. In a batch as elsewhere, a missing value asks for what the settings fall back
   on. -/
theorem rollMany_rolls_one_by_one (settings : Settings) (s : Supply σ κ) :
    (∀ (given : Value) (vs : List Value), given.elements? = some vs ↔
      given = .list vs ∨ given = .tuple vs ∨
      (∃ t : String, given = .text t ∧ vs = t.toList.map fun c => .text (String.singleton c)) ∨
      (∃ content, given = .bytes content ∧ vs = content.map fun b => .int b.toNat) ∨
      ∃ entries, given = .dict entries ∧ vs = entries.map Prod.fst) ∧
    (∀ (given : Value) (vs : List Value), given.elements? = some vs →
      (∀ os after, rollMany settings given s = .ok os after ↔
        Call.answers settings (vs.map .roll) s = (Call.completed os, after)) ∧
      ∀ e after, rollMany settings given s = .error e after ↔
        ∃ before v rest os next, vs = before ++ v :: rest ∧
          Call.answers settings (before.map .roll) s = (Call.completed os, next) ∧
          (Call.roll v).answer settings next = (.error e, after)) ∧
    (∀ (given first second : Value) (xs ys : List Value), first.elements? = some xs →
      second.elements? = some ys → given.elements? = some (xs ++ ys) →
        rollMany settings given s =
          (do
            let os ← rollMany settings first
            let ps ← rollMany settings second
            return os ++ ps : Act σ κ (List Outcome)) s) ∧
    (∀ given : Value, given.elements? = none →
      rollMany settings given s = .error (.notIterable given.kindName) s) ∧
    roll settings .null s = roll settings (.text settings.fallback) s := by
  refine ⟨?_, ?_, ?_, ?_, rfl⟩
  · intro given vs
    cases given <;> simp [Value.elements?, eq_comm]
  · intro given vs hvs
    rw [rollMany_of_elements hvs]
    exact ⟨fun os after => rollEach_eq_ok_iff, fun e after => rollEach_eq_error_iff⟩
  · intro given first second xs ys hxs hys hgiven
    rw [rollMany_of_elements hgiven, rollMany_of_elements hxs, rollMany_of_elements hys,
      rollEach_append]
  · intro given hgiven
    rw [rollMany_of_no_elements hgiven]
    rfl

/-- A batch with a missing value, one that is no text and a notation for more
dice than there are ends at that notation; it may be cut in two. -/
theorem rollMany_rolls_one_by_one_of_short_script :
    let s : Supply Script Stopped := ⟨⟨[4, 2, 5], []⟩, ⟨.epoch⟩, []⟩
    let first : List Value := [.null, .bool true]
    let second : List Value := [.text "3d6", .text "d20"]
    let left : Supply Script Stopped := ⟨⟨[], List.replicate 4 (1, 6)⟩, ⟨.epoch⟩,
      [.rolled "1d6" [4] 4, .rejected "True".toList "Dice notation must be a string, got bool"]⟩
    rollMany .defaults (.tuple (first ++ second)) s = .error (.outOfDice 6) left ∧
      rollMany .defaults (.tuple (first ++ second)) s =
        (do
          let os ← rollMany .defaults (.list first)
          let ps ← rollMany .defaults (.list second)
          return os ++ ps : Act Script Stopped (List Outcome)) s ∧
      rollMany .defaults (.int 7) s = .error (.notIterable "int") s := by
  intro s first second left
  let completed : List Outcome := [.success ⟨"1d6", [4], 4, none, "4 = 4", .epoch⟩,
    .failure ⟨"True", "Dice notation must be a string, got bool", .epoch⟩]
  let next : Supply Script Stopped := ⟨⟨[2, 5], [(1, 6)]⟩, ⟨.epoch⟩, left.log⟩
  have hfirst : Call.answers .defaults (first.map .roll) s = (Call.completed completed, next) := rfl
  have hfails : (Call.roll (.text "3d6")).answer .defaults next = (.error (.outOfDice 6), left) :=
    rfl
  obtain ⟨-, hbatch, hparts, hnone, -⟩ := rollMany_rolls_one_by_one .defaults s
  exact ⟨((hbatch _ _ rfl).2 _ _).mpr ⟨first, _, _, completed, next, rfl, hfirst, hfails⟩,
    hparts _ (.list first) (.list second) first second rfl rfl rfl, hnone _ rfl⟩

end Roll

end Tabletop
