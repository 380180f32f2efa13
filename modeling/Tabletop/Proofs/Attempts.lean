import Tabletop.Proofs.Courses

/-!
# Tabletop.Proofs.Attempts

Calls as rolls attempted one after the other.

Whatever it is called, a call offers some values to be rolled (`Call.offers`)
and answers with what comes of them (`Call.answerOf`): `Call.run_eq`.  The
rolls that it attempts end with the first that fails.  An `Attempt` keeps the
supply that a roll found and the one that it left, so that what happens over
a whole run is the sum of what happens in its attempts:

* `Call.answers_fst`: the answers of a run are what its attempts ended in;
* `Call.follow_history`: each attempt finds what the one before it left, and
  the last one leaves what the run leaves;
* `Call.course_of_mem_history`: each attempt takes one of the courses of
  `Roll.Course`.
-/

namespace Tabletop

/-- A roll as it was attempted: the value offered, the supply it found, what
it ended in, and the supply it left. -/
structure Attempt (σ κ : Type) where
  offered : Value
  before : Supply σ κ
  ending : Except Fault Outcome
  after : Supply σ κ

section Outcomes

variable {σ κ : Type}

/-- Either all attempts succeed, each with its outcome, or one of them fails. -/
theorem mapM_ending_cases (tries : List (Attempt σ κ)) :
    (∃ os, tries.mapM Attempt.ending = .ok os ∧ tries.map Attempt.ending = os.map .ok) ∨
      (∃ e, tries.mapM Attempt.ending = .error e ∧ ∃ a ∈ tries, a.ending = .error e) := by
  induction tries with
  | nil => exact .inl ⟨[], rfl, rfl⟩
  | cons a rest ih =>
      rw [List.mapM_cons]
      cases ho : a.ending with
      | error e => exact .inr ⟨e, rfl, a, List.mem_cons_self, ho⟩
      | ok o =>
          cases ih with
          | inl hall =>
              obtain ⟨os, hos, hending⟩ := hall
              refine .inl ⟨o :: os, ?_, ?_⟩
              · rw [hos]
                rfl
              · rw [List.map_cons, List.map_cons, ho, hending]
          | inr hfails =>
              obtain ⟨e, he, b, hb, hending⟩ := hfails
              refine .inr ⟨e, ?_, b, List.mem_cons_of_mem a hb, hending⟩
              rw [he]
              rfl

end Outcomes

section Follow

variable {σ κ α : Type} {s s' : Supply σ κ} {tries : List (Attempt σ κ)}

/-- The attempts lead from one supply to another: each finds what the one
before it left. -/
def Follow : Supply σ κ → List (Attempt σ κ) → Supply σ κ → Prop
  | s, [], s' => s = s'
  | s, a :: rest, s' => a.before = s ∧ Follow a.after rest s'

theorem Follow.append {s'' : Supply σ κ} {more : List (Attempt σ κ)} (h : Follow s tries s')
    (hmore : Follow s' more s'') : Follow s (tries ++ more) s'' := by
  induction tries generalizing s with
  | nil =>
      cases h
      exact hmore
  | cons a rest ih => exact ⟨h.1, ih h.2⟩

/-- A stock that each attempt takes something from the front of: what was
there is what the attempts took, in order, and what is left. -/
theorem Follow.spent (stock : Supply σ κ → List α) (spent : Attempt σ κ → List α)
    (h : Follow s tries s') (hspent : ∀ a ∈ tries, stock a.before = spent a ++ stock a.after) :
    stock s = tries.flatMap spent ++ stock s' := by
  induction tries generalizing s with
  | nil =>
      cases h
      rfl
  | cons a rest ih =>
      obtain ⟨rfl, hrest⟩ := h
      have ha := hspent a List.mem_cons_self
      have hih := ih hrest fun b hb => hspent b (List.mem_cons_of_mem a hb)
      rw [ha, hih, List.flatMap_cons, List.append_assoc]

/-- What no attempt changes stays as it was. -/
theorem Follow.kept (part : Supply σ κ → α) (h : Follow s tries s')
    (hkept : ∀ a ∈ tries, part a.after = part a.before) : part s' = part s := by
  induction tries generalizing s with
  | nil =>
      cases h
      rfl
  | cons a rest ih =>
      obtain ⟨rfl, hrest⟩ := h
      rw [ih hrest fun b hb => hkept b (List.mem_cons_of_mem a hb), hkept a List.mem_cons_self]

/-- A record that each attempt adds something to the end of. -/
theorem Follow.gained (record : Supply σ κ → List α) (gained : Attempt σ κ → List α)
    (h : Follow s tries s') (hgained : ∀ a ∈ tries, record a.after = record a.before ++ gained a) :
    record s' = record s ++ tries.flatMap gained := by
  induction tries generalizing s with
  | nil =>
      cases h
      simp
  | cons a rest ih =>
      obtain ⟨rfl, hrest⟩ := h
      have ha := hgained a List.mem_cons_self
      have hih := ih hrest fun b hb => hgained b (List.mem_cons_of_mem a hb)
      rw [hih, ha, List.flatMap_cons, List.append_assoc]

end Follow

namespace Roll

variable {σ κ : Type} [DieSource σ] [Clock κ]

/-- The rolls attempted when values are offered one after the other, up to the
first that fails. -/
def attempts (settings : Settings) : List Value → Supply σ κ → List (Attempt σ κ)
  | [], _ => []
  | v :: rest, s =>
    match (roll settings v).finish s with
    | (.ok o, after) => ⟨v, s, .ok o, after⟩ :: attempts settings rest after
    | (.error e, after) => [⟨v, s, .error e, after⟩]

theorem course_of_mem_attempts {settings : Settings} {vs : List Value} {s : Supply σ κ}
    {a : Attempt σ κ} (h : a ∈ attempts settings vs s) :
    Course settings a.offered a.before a.ending a.after := by
  induction vs generalizing s with
  | nil => contradiction
  | cons v rest ih =>
      have hcourse := course_finish settings v s
      rw [attempts] at h
      split at h
      · next o after hend =>
          rw [hend] at hcourse
          rw [List.mem_cons] at h
          cases h with
          | inl h =>
              rw [h]
              exact hcourse
          | inr h => exact ih h
      · next e after hend =>
          rw [hend] at hcourse
          rw [List.mem_singleton] at h
          rw [h]
          exact hcourse

/-- Only what was offered is attempted. -/
theorem offered_mem_of_mem_attempts {settings : Settings} {vs : List Value} {s : Supply σ κ}
    {a : Attempt σ κ} (h : a ∈ attempts settings vs s) : a.offered ∈ vs := by
  induction vs generalizing s with
  | nil => contradiction
  | cons v rest ih =>
      rw [attempts] at h
      split at h
      · rw [List.mem_cons] at h
        cases h with
        | inl h =>
            rw [h]
            exact List.mem_cons_self
        | inr h => exact List.mem_cons_of_mem v (ih h)
      · rw [List.mem_singleton] at h
        rw [h]
        exact List.mem_cons_self

/-- Everything that was offered is attempted, unless an attempt fails. -/
theorem map_offered_of_mapM {settings : Settings} {vs : List Value} {s : Supply σ κ}
    {os : List Outcome} (h : (attempts settings vs s).mapM Attempt.ending = .ok os) :
    (attempts settings vs s).map Attempt.offered = vs := by
  induction vs generalizing s os with
  | nil => rfl
  | cons v rest ih =>
      rw [attempts] at h ⊢
      split at h
      · next o after _ =>
          rw [List.mapM_cons] at h
          cases hrest : (attempts settings rest after).mapM Attempt.ending with
          | error e =>
              rw [hrest] at h
              contradiction
          | ok os' => rw [List.map_cons, ih hrest]
      · contradiction

/-- Rolling several values ends in what the attempts end in, and leaves what
they leave. -/
theorem rollEach_finish (settings : Settings) (vs : List Value) (s : Supply σ κ) :
    ((rollEach settings vs).finish s).1 = (attempts settings vs s).mapM Attempt.ending ∧
      Follow s (attempts settings vs s) ((rollEach settings vs).finish s).2 := by
  induction vs generalizing s with
  | nil => exact ⟨rfl, rfl⟩
  | cons v rest ih =>
      -- The first roll decides whether there are more attempts than its own.
      rw [attempts, rollEach]
      cases hroll : roll settings v s with
      | error e after =>
          rw [Act.finish_of_error hroll, Act.finish_of_error (Act.bind_of_error hroll)]
          exact ⟨rfl, rfl, rfl⟩
      | ok o after =>
          obtain ⟨hending, hfollow⟩ := ih after
          rw [Act.finish_of_ok hroll]
          simp only [List.mapM_cons]
          rw [← hending]
          cases hrest : rollEach settings rest after with
          | error e after' =>
              rw [Act.finish_of_error hrest] at hfollow ⊢
              rw [Act.finish_of_error ((Act.bind_of_ok hroll).trans (Act.bind_of_error hrest))]
              exact ⟨rfl, rfl, hfollow⟩
          | ok os after' =>
              rw [Act.finish_of_ok hrest] at hfollow ⊢
              rw [Act.finish_of_ok (a := o :: os)
                ((Act.bind_of_ok hroll).trans (Act.bind_of_ok hrest))]
              exact ⟨rfl, rfl, hfollow⟩

end Roll

/-- The outcomes that an answer reports. -/
def Answer.results : Answer → List Outcome
  | outcome o => [o]
  | outcomes os => os
  | profile _ => []

namespace Call

/-- The values that a call offers to be rolled, or why it offers none. -/
def offers : Call → Except Fault (List Value)
  | roll given => .ok [given]
  | rollMany given =>
    match given.elements? with
    | some vs => .ok vs
    | none => .error (.notIterable given.kindName)
  | rollSixes count =>
    match count.display? with
    | some shown => .ok [.text (String.ofList (shown ++ ['d', '6']))]
    | none => .error .oversizedInteger
  | rollD20 => .ok [.text "1d20"]
  | rollD100 => .ok [.text "1d100"]
  | profile => .ok []

/-- The answer that a call makes of what came of its offers. -/
def answerOf (settings : Settings) (c : Call) (os : List Outcome) : Answer :=
  match c, os with
  | rollMany _, os => .outcomes os
  | profile, _ => .profile settings.profile
  | _, [o] => .outcome o
  | _, os => .outcomes os

variable {σ κ : Type} [DieSource σ] [Clock κ]

/-- What a call ends in, given the rolls it attempted. -/
def conclude (settings : Settings) (c : Call) (tries : List (Attempt σ κ)) :
    Except Fault Answer := do
  let _ ← c.offers
  let os ← tries.mapM Attempt.ending
  return c.answerOf settings os

/-- The rolls that a call attempts. -/
def attempts (settings : Settings) (c : Call) (s : Supply σ κ) : List (Attempt σ κ) :=
  match c.offers with
  | .ok vs => Roll.attempts settings vs s
  | .error _ => []

/-- The rolls that each of several calls attempts. -/
def history (settings : Settings) : List Call → Supply σ κ → List (List (Attempt σ κ))
  | [], _ => []
  | c :: rest, s => c.attempts settings s :: history settings rest (c.answer settings s).2

/-- Every call rolls what it offers and answers with the outcomes. -/
theorem run_eq (settings : Settings) (c : Call) :
    c.run (σ := σ) (κ := κ) settings =
      match c.offers with
      | .ok vs => do return c.answerOf settings (← Roll.rollEach settings vs)
      | .error e => throw e := by
  cases c with
  | roll given => simp [run, offers, answerOf, Roll.rollEach]
  | rollMany given =>
      cases h : given.elements? with
      | none =>
          simp only [run, offers, Roll.rollMany, h]
          rfl
      | some vs => simp [run, offers, answerOf, Roll.rollMany, h]
  | rollSixes count =>
      cases h : count.display? with
      | none =>
          simp only [run, offers, Roll.rollSixes, h]
          rfl
      | some shown => simp [run, offers, answerOf, Roll.rollSixes, Roll.rollEach, Roll.roll, h]
  | rollD20 => simp [run, offers, answerOf, Roll.rollEach, Roll.roll]
  | rollD100 => simp [run, offers, answerOf, Roll.rollEach, Roll.roll]
  | profile => simp [run, offers, answerOf, Roll.rollEach]

theorem answer_eq_finish (settings : Settings) (c : Call) (s : Supply σ κ) :
    c.answer settings s = Act.finish (c.run settings) s := by
  cases h : c.run settings s <;> simp only [answer, Act.finish, h]

/-- A call answers with what its attempts ended in, and leaves what they left. -/
theorem answer_attempts (settings : Settings) (c : Call) (s : Supply σ κ) :
    (c.answer settings s).1 = c.conclude settings (c.attempts settings s) ∧
      Follow s (c.attempts settings s) (c.answer settings s).2 := by
  rw [answer_eq_finish, run_eq, attempts, conclude]
  cases c.offers with
  | error e => exact ⟨rfl, rfl⟩
  | ok vs =>
      obtain ⟨hending, hfollow⟩ := Roll.rollEach_finish settings vs s
      simp only [← hending]
      cases hroll : Roll.rollEach settings vs s with
      | error e after =>
          rw [Act.finish_of_error hroll] at hfollow ⊢
          rw [Act.finish_of_error (Act.bind_of_error hroll)]
          exact ⟨rfl, hfollow⟩
      | ok os after =>
          have hend :
              (do return c.answerOf settings (← Roll.rollEach settings vs) : Act σ κ Answer) s =
                .ok (c.answerOf settings os) after := by
            rw [Act.bind_of_ok hroll]
            rfl
          rw [Act.finish_of_ok hroll] at hfollow ⊢
          rw [Act.finish_of_ok hend]
          exact ⟨rfl, hfollow⟩

theorem results_answerOf (settings : Settings) {c : Call} {vs : List Value} {os : List Outcome}
    (hoffers : c.offers = .ok vs) (hlength : os.length = vs.length) :
    (c.answerOf settings os).results = os := by
  have hsingle : ∀ v, vs = [v] → ∃ o, os = [o] := by
    rintro v rfl
    exact List.length_eq_one_iff.mp hlength
  cases c with
  | roll given =>
      obtain ⟨o, rfl⟩ := hsingle given (Except.ok.inj hoffers).symm
      rfl
  | rollMany given => rfl
  | rollSixes count =>
      cases hshown : count.display? with
      | none =>
          simp only [offers, hshown] at hoffers
          contradiction
      | some shown =>
          simp only [offers, hshown] at hoffers
          obtain ⟨o, rfl⟩ := hsingle _ (Except.ok.inj hoffers).symm
          rfl
  | rollD20 =>
      obtain ⟨o, rfl⟩ := hsingle _ (Except.ok.inj hoffers).symm
      rfl
  | rollD100 =>
      obtain ⟨o, rfl⟩ := hsingle _ (Except.ok.inj hoffers).symm
      rfl
  | profile =>
      cases hoffers
      rw [List.length_eq_zero_iff.mp hlength]
      rfl

/-- An answered call attempted all that it offers, and reports what each
attempt ended in. -/
theorem attempts_of_answer_ok {settings : Settings} {c : Call} {s : Supply σ κ} {a : Answer}
    (h : (c.answer settings s).1 = .ok a) :
    ∃ vs, c.offers = .ok vs ∧ (c.attempts settings s).map Attempt.offered = vs ∧
      (c.attempts settings s).map Attempt.ending = a.results.map .ok := by
  rw [(answer_attempts settings c s).1, conclude, attempts] at h
  rw [attempts]
  cases hoffers : c.offers with
  | error e =>
      rw [hoffers] at h
      contradiction
  | ok vs =>
      simp only [hoffers] at h ⊢
      obtain ⟨os, hos, hending⟩ | ⟨e, he, -⟩ := mapM_ending_cases (Roll.attempts settings vs s)
      · rw [hos] at h
        cases h
        have hoffered := Roll.map_offered_of_mapM hos
        have hlength : os.length = vs.length := by
          have hends := congrArg List.length hending
          have hvalues := congrArg List.length hoffered
          rw [List.length_map, List.length_map] at hends
          rw [List.length_map] at hvalues
          omega
        exact ⟨vs, rfl, hoffered, by rw [hending, results_answerOf settings hoffers hlength]⟩
      · rw [he] at h
        contradiction

theorem answers_singleton (settings : Settings) (c : Call) (s : Supply σ κ) :
    (answers settings [c] s).1 = [(c.answer settings s).1] := rfl

/-- The answers of a run are what its attempts ended in. -/
theorem answers_fst (settings : Settings) (cs : List Call) (s : Supply σ κ) :
    (answers settings cs s).1 = cs.zipWith (conclude settings) (history settings cs s) := by
  induction cs generalizing s with
  | nil => rfl
  | cons c rest ih =>
      rw [answers, history, List.zipWith_cons_cons, ← ih, ← (answer_attempts settings c s).1]

/-- The attempts of a run lead from the supply it finds to the one it leaves. -/
theorem follow_history (settings : Settings) (cs : List Call) (s : Supply σ κ) :
    Follow s (history settings cs s).flatten (answers settings cs s).2 := by
  induction cs generalizing s with
  | nil => exact rfl
  | cons c rest ih =>
      rw [answers, history, List.flatten_cons]
      exact (answer_attempts settings c s).2.append (ih _)

/-- Each call of a run is answered from some supply. -/
theorem exists_answer_of_mem_zip {settings : Settings} {cs : List Call} {s : Supply σ κ}
    {p : Call × Except Fault Answer} (h : p ∈ cs.zip (answers settings cs s).1) :
    p.1 ∈ cs ∧ ∃ found : Supply σ κ, p.2 = (p.1.answer settings found).1 := by
  induction cs generalizing s with
  | nil => contradiction
  | cons c rest ih =>
      rw [answers, List.zip_cons_cons, List.mem_cons] at h
      cases h with
      | inl h =>
          rw [h]
          exact ⟨List.mem_cons_self, s, rfl⟩
      | inr h =>
          obtain ⟨hmem, hfound⟩ := ih h
          exact ⟨List.mem_cons_of_mem c hmem, hfound⟩

/-- The attempts of a call are those of the values that it offers. -/
theorem exists_offers_of_mem_attempts {settings : Settings} {c : Call} {s : Supply σ κ}
    {a : Attempt σ κ} (h : a ∈ c.attempts settings s) :
    ∃ vs, c.offers = .ok vs ∧ a ∈ Roll.attempts settings vs s := by
  unfold attempts at h
  cases hoffers : c.offers with
  | error e =>
      rw [hoffers] at h
      contradiction
  | ok vs =>
      rw [hoffers] at h
      exact ⟨vs, rfl, h⟩

/-- Each attempt of a call takes one of the courses of a roll. -/
theorem course_of_mem_attempts {settings : Settings} {c : Call} {s : Supply σ κ}
    {a : Attempt σ κ} (h : a ∈ c.attempts settings s) :
    Roll.Course settings a.offered a.before a.ending a.after := by
  obtain ⟨vs, -, ha⟩ := exists_offers_of_mem_attempts h
  exact Roll.course_of_mem_attempts ha

theorem course_of_mem_history {settings : Settings} {cs : List Call} {s : Supply σ κ}
    {a : Attempt σ κ} (h : a ∈ (history settings cs s).flatten) :
    Roll.Course settings a.offered a.before a.ending a.after := by
  induction cs generalizing s with
  | nil => contradiction
  | cons c rest ih =>
      rw [history, List.flatten_cons, List.mem_append] at h
      cases h with
      | inl h => exact course_of_mem_attempts h
      | inr h => exact ih h

end Call

end Tabletop
