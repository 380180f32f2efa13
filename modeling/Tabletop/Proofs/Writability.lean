import Tabletop.Proofs.Identification
import Tabletop.Proofs.SideSequence

/-!
# Tabletop.Proofs.Writability

What can go wrong when a value is offered.

Nothing that is offered is a fault by itself.  What may be one is to write an
integer down, since that is refused past a number of digits.  Nesting is no
fault, since values are written down to any depth (`Value.literal?`); where only
so many levels can be, that nothing else fails is said of values up to that
depth.

* `Value.integers` are the integers that a value holds, however deep; a value
  is `Writable` when none of them is too long, which is when it has a literal
  (`Value.isSome_literal?_iff`).
* A value is read exactly when it is writable (`Reading.exists_ofValue_iff`).
* Where neither dice nor clock fail, a roll is completed exactly when the value
  offered is writable and so are the numbers about its dice
  (`Roll.completed_iff_of_served`).  With fair dice the latter always are
  (`Roll.not_overlong_of_fair`).
-/

namespace Tabletop

open Text

/-! ## The integers in a value -/

namespace Value

mutual

/-- The integers that a value holds. -/
def integers : Value → List Int
  | int n => [n]
  | list items | tuple items => integersOfItems items
  | dict entries => integersOfEntries entries
  | _ => []

/-- The integers that several values hold. -/
def integersOfItems : List Value → List Int
  | [] => []
  | v :: rest => integers v ++ integersOfItems rest

/-- The integers that the entries of a dictionary hold. -/
def integersOfEntries : List (Value × Value) → List Int
  | [] => []
  | (k, v) :: rest => integers k ++ integers v ++ integersOfEntries rest

end

/-- No integer in the value is too long to be written down. -/
def Writable (v : Value) : Prop := ∀ n ∈ v.integers, Decimal.Fits n

instance (v : Value) : Decidable v.Writable := List.decidableBAll _ v.integers

mutual

/-- The values that have a literal are the writable ones. -/
theorem isSome_literal?_iff (v : Value) : v.literal?.isSome ↔ v.Writable := by
  cases v with
  | int n => by_cases h : Decimal.Fits n <;> simp [literal?, Decimal.ofInt?, Writable, integers, h]
  | list items | tuple items =>
      simpa [literal?, Writable, integers] using isSome_literals?_iff items
  | dict entries =>
      simpa [literal?, Writable, integers] using isSome_entryLiterals?_iff entries
  | _ => simp [literal?, Writable, integers]

theorem isSome_literals?_iff (items : List Value) :
    (literals? items).isSome ↔ ∀ n ∈ integersOfItems items, Decimal.Fits n := by
  cases items with
  | nil => simp [literals?, integersOfItems]
  | cons v rest =>
      have hv := isSome_literal?_iff v
      have hrest := isSome_literals?_iff rest
      rw [Writable] at hv
      rw [integersOfItems, List.forall_mem_append, ← hv, ← hrest]
      cases h : v.literal? <;> cases h' : literals? rest <;> simp [literals?, h, h']

theorem isSome_entryLiterals?_iff (entries : List (Value × Value)) :
    (entryLiterals? entries).isSome ↔ ∀ n ∈ integersOfEntries entries, Decimal.Fits n := by
  cases entries with
  | nil => simp [entryLiterals?, integersOfEntries]
  | cons entry rest =>
      obtain ⟨k, v⟩ := entry
      have hk := isSome_literal?_iff k
      have hv := isSome_literal?_iff v
      have hrest := isSome_entryLiterals?_iff rest
      rw [Writable] at hk hv
      rw [integersOfEntries, List.forall_mem_append, List.forall_mem_append, ← hk, ← hv, ← hrest]
      cases h : k.literal? <;> cases h' : v.literal? <;> cases h'' : entryLiterals? rest <;>
        simp [entryLiterals?, h, h', h'']

end

/-- A text holds no integer, so what can be shown is what is writable. -/
theorem isSome_display?_iff (v : Value) : v.display?.isSome ↔ v.Writable := by
  cases v with
  | text s => simp [display?, Writable, integers]
  | _ => exact isSome_literal?_iff _

theorem exists_display_iff (v : Value) : (∃ shown, v.display? = some shown) ↔ v.Writable := by
  rw [← Option.isSome_iff_exists, isSome_display?_iff]

end Value

/-! ## Reading a value -/

namespace Reading

/-- A value of another kind is refused under what it looks like, with its kind
for a reason. -/
theorem refuseKind_eq (kindName : String) (shown : List Char) :
    refuseKind kindName shown =
      ⟨String.ofList shown, "Dice notation must be a string, got " ++ kindName⟩ := by
  have happend : ∀ a b : String, String.ofList (a.toList ++ b.toList) = a ++ b := by
    intro a b
    rw [String.ofList_append, String.ofList_toList, String.ofList_toList]
  exact congrArg (Refusal.mk _) (happend _ kindName)

/-- A value that is not writable is not read. -/
theorem ofValue_of_not_writable {v : Value} (h : ¬v.Writable) :
    ofValue v = .error .oversizedInteger := by
  have hliteral : v.literal? = none := by
    rw [← Value.isSome_literal?_iff, Option.not_isSome_iff_eq_none] at h
    exact h
  have hv : ∀ s, v ≠ .text s := by
    rintro s rfl
    contradiction
  rw [ofValue_of_ne_text hv, hliteral]

theorem exists_ofValue_iff (v : Value) : (∃ r, ofValue v = .ok r) ↔ v.Writable := by
  constructor
  · rintro ⟨r, hr⟩
    apply Classical.byContradiction
    intro hv
    rw [ofValue_of_not_writable hv] at hr
    contradiction
  · intro hv
    cases h : ofValue v with
    | ok r => exact ⟨r, rfl⟩
    | error e => exact absurd h (ofValue_ne_error ((Value.isSome_literal?_iff v).mpr hv))

end Reading

/-! ## Rolling a value -/

namespace Roll

variable {settings : Settings} {v : Value}

theorem writable_standIn (settings : Settings) (v : Value) :
    (settings.standIn v).Writable ↔ v.Writable := by
  cases v <;> simp [Settings.standIn, Value.Writable, Value.integers]

theorem exists_asked_iff (settings : Settings) (v : Value) :
    (∃ r, asked settings v = .ok r) ↔ v.Writable := by
  rw [← writable_standIn settings, ← Reading.exists_ofValue_iff, asked]

variable {σ κ : Type} [DieSource σ] [Clock κ] {s after : Supply σ κ}

/-- A value that is not writable is not rolled, whatever the dice and the clock. -/
theorem ending_of_not_writable (hv : ¬v.Writable) {ending : Except Fault Outcome}
    (h : Course settings v s ending after) : ending = .error .oversizedInteger := by
  rw [← exists_asked_iff settings] at hv
  cases h with
  | unwritable => rfl
  | refused hrefuses | refusedTimeless hrefuses => exact absurd ⟨_, hrefuses.2⟩ hv
  | diceless haccepts | unlogged haccepts | underived haccepts | rolledTimeless haccepts
  | rolled haccepts => exact absurd ⟨_, haccepts.asked_eq⟩ hv

/-- The numbers about the dice of a roll that is completed are writable. -/
theorem not_overlong_of_course {o : Outcome} (h : Course settings v s (.ok o) after) :
    ¬Overlong settings v s := by
  rintro ⟨t, rolls, left, hasked, hrolls, hlong⟩
  cases h with
  | refused hrefuses _ => exact absurd (hrefuses.2.symm.trans hasked) (by simp)
  | rolled haccepts hdice _ hderivation _ =>
      rw [haccepts.asked_eq] at hasked
      cases hasked
      rw [hdice] at hrolls
      cases hrolls
      rw [Breakdown.text?, if_neg hlong] at hderivation
      contradiction

/-- Where neither dice nor clock fail, a roll is completed exactly when the value
offered is writable and so are the numbers about its dice. -/
theorem completed_iff_of_served (hserved : Served settings v s) :
    (∃ o, ((roll settings v).finish s).1 = .ok o) ↔ v.Writable ∧ ¬Overlong settings v s := by
  have hcourse := course_finish settings v s
  cases hending : ((roll settings v).finish s).1 with
  | ok o =>
      rw [hending] at hcourse
      have hv : v.Writable := by
        apply Classical.byContradiction
        intro hv
        have hlost := ending_of_not_writable hv hcourse
        contradiction
      exact iff_of_true ⟨o, rfl⟩ ⟨hv, not_overlong_of_course hcourse⟩
  | error e =>
      rw [hending] at hcourse
      refine iff_of_false (by simp) ?_
      rintro ⟨hv, hshort⟩
      obtain ⟨-, hasked | hlong⟩ := fault_of_served hserved hcourse
      · obtain ⟨r, hr⟩ := (exists_asked_iff settings v).mpr hv
        rw [hasked] at hr
        contradiction
      · exact hshort hlong

end Roll

namespace Call

variable {σ κ : Type} [DieSource σ] [Clock κ] {settings : Settings}

/-- A call that offers one value to be rolled ends as that roll does. -/
theorem answer_of_single_offer {c : Call} {w : Value} (hoffers : c.offers = .ok [w])
    (hanswer : ∀ o, c.answerOf settings [o] = .outcome o) (s : Supply σ κ) :
    (c.answer settings s).1 = ((Roll.roll settings w).finish s).1.map .outcome := by
  rw [(answer_attempts settings c s).1, conclude, attempts]
  simp only [hoffers, Roll.attempts]
  cases hend : (Roll.roll settings w).finish s with
  | mk ending after =>
      cases ending with
      | ok o =>
          simp only [List.mapM_cons, List.mapM_nil]
          exact congrArg Except.ok (hanswer o)
      | error e => rfl

/-- A call to roll a value, or so many six-sided dice, offers one value, if the
value given is writable. -/
theorem offers_of_writable {c : Call} {v : Value} (hc : c = .roll v ∨ c = .rollSixes v)
    (hv : v.Writable) :
    ∃ w : Value, w.Writable ∧ c.offers = .ok [w] ∧
      ∀ (settings : Settings) o, c.answerOf settings [o] = .outcome o := by
  obtain rfl | rfl := hc
  · exact ⟨v, hv, rfl, fun _ _ => rfl⟩
  · obtain ⟨shown, hshown⟩ := (Value.exists_display_iff v).mpr hv
    refine ⟨.text (String.ofList (shown ++ ['d', '6'])), ?_, ?_, fun _ _ => rfl⟩
    · simp [Value.Writable, Value.integers]
    · simp only [offers, hshown]

/-- Such a call fails if the value given is not writable. -/
theorem answer_of_not_writable {c : Call} {v : Value} (hc : c = .roll v ∨ c = .rollSixes v)
    (hv : ¬v.Writable) (s : Supply σ κ) : (c.answer settings s).1 = .error .oversizedInteger := by
  obtain rfl | rfl := hc
  · rw [answer_of_single_offer rfl (fun _ => rfl),
      Roll.ending_of_not_writable hv (Roll.course_finish settings v s)]
    rfl
  · have hdisplay : v.display? = none := by
      rw [← Value.isSome_display?_iff, Option.not_isSome_iff_eq_none] at hv
      exact hv
    simp only [(answer_attempts settings _ s).1, conclude, offers, hdisplay]
    rfl

/-- Where neither dice nor clock fail, such a call is answered exactly when the
value given is writable and so are the numbers about the dice. -/
theorem answered_iff_of_served {c : Call} {v : Value} (hc : c = .roll v ∨ c = .rollSixes v)
    {s : Supply σ κ} (hserved : ∀ w, c.offers = .ok [w] → Roll.Served settings w s) :
    (∃ o, (c.answer settings s).1 = .ok (.outcome o)) ↔
      v.Writable ∧ ∀ w, c.offers = .ok [w] → ¬Roll.Overlong settings w s := by
  by_cases hv : v.Writable
  · obtain ⟨w, hw, hoffers, hanswer⟩ := offers_of_writable hc hv
    have hrolled := Roll.completed_iff_of_served (hserved w hoffers)
    have hmap : ∀ ending : Except Fault Outcome,
        (∃ o, ending.map Answer.outcome = .ok (.outcome o)) ↔ ∃ o, ending = .ok o := by
      intro ending
      cases ending <;> simp [Except.map]
    simp only [answer_of_single_offer hoffers (hanswer settings), hmap, hrolled, hoffers, hv, hw,
      true_and, Except.ok.injEq, List.cons.injEq, and_true, forall_eq']
  · refine iff_of_false ?_ fun h => hv h.1
    simp [answer_of_not_writable hc hv]

/-- Where neither dice nor clock fail, such a call fails for an integer that is
too long. -/
theorem fault_of_served {c : Call} {v : Value} (hc : c = .roll v ∨ c = .rollSixes v)
    {s : Supply σ κ} (hserved : ∀ w, c.offers = .ok [w] → Roll.Served settings w s) {e : Fault}
    (h : (c.answer settings s).1 = .error e) : e = .oversizedInteger := by
  by_cases hv : v.Writable
  · obtain ⟨w, -, hoffers, hanswer⟩ := offers_of_writable hc hv
    rw [answer_of_single_offer hoffers (hanswer settings)] at h
    have hcourse := Roll.course_finish settings w s
    cases hending : ((Roll.roll settings w).finish s).1 with
    | ok o =>
        rw [hending] at h
        contradiction
    | error e' =>
        rw [hending] at h hcourse
        cases h
        exact (Roll.fault_of_served (hserved w hoffers) hcourse).1
  · rw [answer_of_not_writable hc hv] at h
    cases h
    rfl

/-- **What is offered fails for no other reason than a long integer.**

1. A value is read exactly when no integer in it is too long; that is all that
   keeps it from being read.
2. A value that is read and is no text is refused, under what it looks like, and
   the message names its kind.
3. Where neither dice nor clock fail, a call to roll a value, or as many
   six-sided dice as it says, is answered exactly when no integer in the value
   is too long, nor one to be written about the dice; that is all that keeps it
   from being answered.
4. With fair dice it is answered whenever no integer in the value is too long. -/
theorem answered_iff_writable (settings : Settings) (v : Value) :
    ((∃ r, Reading.ofValue v = .ok r) ↔ v.Writable) ∧
    (∀ e, Reading.ofValue v = .error e → e = .oversizedInteger) ∧
    (∀ r, Reading.ofValue v = .ok r → (∀ t, v ≠ .text t) →
      ∃ shown, v.display? = some shown ∧
        r = .refused ⟨String.ofList shown, "Dice notation must be a string, got " ++ v.kindName⟩) ∧
    ∀ c : Call, c = .roll v ∨ c = .rollSixes v → ∀ s : Supply σ κ,
      (∀ w, c.offers = .ok [w] → Roll.Served settings w s) →
        ((∃ o, (c.answer settings s).1 = .ok (.outcome o)) ↔
          v.Writable ∧ ∀ w, c.offers = .ok [w] → ¬Roll.Overlong settings w s) ∧
        (∀ e, (c.answer settings s).1 = .error e → e = .oversizedInteger) ∧
        (DieSource.Fair σ → v.Writable → ∃ o, (c.answer settings s).1 = .ok (.outcome o)) := by
  refine ⟨Reading.exists_ofValue_iff v, ?_, ?_, ?_⟩
  · intro e he
    have hv : ¬v.Writable := by
      rw [← Reading.exists_ofValue_iff, he]
      simp
    rw [Reading.ofValue_of_not_writable hv] at he
    cases he
    rfl
  · intro r hr htext
    obtain ⟨shown, hshown⟩ := (Value.exists_display_iff v).mpr
      ((Reading.exists_ofValue_iff v).mp ⟨r, hr⟩)
    rw [Reading.ofValue_of_not_text htext hshown, Reading.refuseKind_eq] at hr
    exact ⟨shown, hshown, (Except.ok.inj hr).symm⟩
  · intro c hc s hserved
    have hiff := answered_iff_of_served hc hserved
    exact ⟨hiff, fun e he => fault_of_served hc hserved he,
      fun hfair hv => hiff.mpr ⟨hv, fun w _ => Roll.not_overlong_of_fair hfair⟩⟩

/-- A tuple is refused by name, at a table where as many dice as a text says are
rolled. -/
theorem answered_iff_writable_of_tuple :
    let s : Supply Twister Stopped := ⟨Twister.ofSeed 7, ⟨.epoch⟩, []⟩
    let v : Value := .tuple [.int 1, .list [.null]]
    Reading.ofValue v =
        .ok (.refused ⟨"(1, [None])", "Dice notation must be a string, got tuple"⟩) ∧
      (∃ o, ((roll v).answer .defaults s).1 = .ok (.outcome o)) ∧
      ∃ o, ((rollSixes (.text "3")).answer .defaults s).1 = .ok (.outcome o) := by
  intro s v
  have hserved : ∀ w, Roll.Served .defaults w s := fun w =>
    Roll.served_of_tireless DieSource.tireless_twister Clock.tireless_stopped
  obtain ⟨hread, -, hrefused, hrolled⟩ :=
    answered_iff_writable (σ := Twister) (κ := Stopped) .defaults v
  obtain ⟨-, -, -, hsixes⟩ :=
    answered_iff_writable (σ := Twister) (κ := Stopped) .defaults (.text "3")
  obtain ⟨r, hr⟩ := hread.mpr (by decide)
  obtain ⟨shown, hshown, rfl⟩ := hrefused r hr (by simp [v])
  cases hshown
  exact ⟨hr, (hrolled _ (.inl rfl) s fun w _ => hserved w).2.2 DieSource.fair_twister (by decide),
    (hsixes _ (.inr rfl) s fun w _ => hserved w).2.2 DieSource.fair_twister (by decide)⟩

/-- An integer that is too long keeps values from being read and calls from
being answered, at any depth; so do short dice of a throw that come to such an
integer.  Neither dice nor clock fail here. -/
theorem not_answered_of_long_integer :
    let long : Value := .int Decimal.tooLong
    let nested : Value := .list [.dict [(.bool true, .tuple [long])]]
    let most : Int := Decimal.tooLong - 1
    (∀ v ∈ [long, nested], Reading.ofValue v = .error .oversizedInteger ∧
      Roll.Served .defaults v (dealt []) ∧
      ((roll v).answer .defaults (dealt [])).1 = .error .oversizedInteger ∧
      ((rollSixes v).answer .defaults (dealt [])).1 = .error .oversizedInteger) ∧
    Roll.Served .defaults (.text "2d6-1") (dealt [most, 1]) ∧
    ((roll (.text "2d6-1")).answer .defaults (dealt [most, 1])).1 = .error .oversizedInteger := by
  intro long nested most
  refine ⟨?_, ?_, answer_of_long_sum Decimal.fits_tooLong_sub_one ?_⟩
  · intro v hmem
    have hv : ¬v.Writable := by
      simp only [List.mem_cons, List.not_mem_nil, or_false] at hmem
      intro hv
      have hlong : (Decimal.tooLong : Int) ∈ v.integers := by
        obtain rfl | rfl := hmem <;> exact List.mem_singleton_self _
      exact Decimal.not_fits_tooLong (hv _ hlong)
    refine ⟨Reading.ofValue_of_not_writable hv, ⟨?_, ⟨_, _, rfl⟩⟩,
      answer_of_not_writable (.inl rfl) hv _, answer_of_not_writable (.inr rfl) hv _⟩
    intro t hasked
    exact absurd ((Roll.exists_asked_iff .defaults v).mp ⟨_, hasked⟩) hv
  · refine ⟨fun t hasked => ?_, ⟨_, _, rfl⟩⟩
    have hread : Reading.ofText "2d6-1" =
        .accepted ⟨2, 6, some ⟨.minus, 1, by decide⟩, by decide, by decide⟩ := by decide
    cases (Except.ok.inj hasked).symm.trans hread
    exact ⟨_, _, rfl⟩
  · rw [Int.sub_add_cancel]
    exact Decimal.not_fits_tooLong

end Call

end Tabletop
