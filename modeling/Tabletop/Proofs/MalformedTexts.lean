import Tabletop.Proofs.Identification
import Tabletop.Proofs.MessageLength

/-!
# Tabletop.Proofs.MalformedTexts

What is said about a text that is not a notation says which text it is.

A quoted text ends where it ends (`Quoted.enclose_append_injective`), so
whatever has it in front is about that text alone:

* `Reading.eq_text_of_message_eq`: no other value is refused with the message
  about a malformed text;
* `Roll.standIn_of_line_eq`: no other value is logged on the line about a text
  that is refused, since no literal but that of a text begins with a quote
  (`Value.not_isQuote_of_literal`).

`Call.malformed_text_identified` says both of the rolls of any two runs.
-/

namespace Tabletop

open Text Notation

/-! ## Literals that are not quoted -/

namespace Text.Quoted

theorem IsQuote.isDigit_eq_false {c : Char} (h : IsQuote c) : c.isDigit = false := by
  obtain rfl | rfl := h <;> decide

theorem ofText_append_injective {s t x y : List Char} (h : ofText s ++ x = ofText t ++ y) :
    s = t ∧ x = y := enclose_append_injective h

end Text.Quoted

namespace Value

/-- No literal begins with a quote but that of a text. -/
theorem not_isQuote_of_literal {v : Value} (hv : ∀ s, v ≠ .text s) {c : Char} {cs : List Char}
    (h : v.literal? = some (c :: cs)) : ¬Quoted.IsQuote c := by
  cases v with
  | text s => exact absurd rfl (hv s)
  | null =>
      cases h
      decide
  | bool b =>
      cases b <;> cases h <;> decide
  | int n =>
      intro hquote
      obtain ⟨-, hnumeral⟩ := Decimal.ofInt?_eq_some_iff.mp h
      have hc : c ∈ Decimal.ofInt n := hnumeral ▸ List.mem_cons_self
      cases Decimal.mem_ofInt hc with
      | inl hminus => exact absurd (hminus ▸ hquote) (by decide)
      | inr hdigit => simp [hquote.isDigit_eq_false] at hdigit
  | float x =>
      intro hquote
      have hc : c ∈ x.text := Option.some.inj h ▸ List.mem_cons_self
      cases Floating.mem_text hc with
      | inl hdigit => simp [hquote.isDigit_eq_false] at hdigit
      | inr hmark =>
          obtain rfl | rfl := hquote <;> exact absurd hmark (by decide)
  | bytes content =>
      cases h
      decide
  | list items =>
      obtain ⟨ts, -, hts⟩ := Option.map_eq_some_iff.mp h
      cases hts
      decide
  | tuple items =>
      obtain ⟨ts, -, hts⟩ := Option.map_eq_some_iff.mp h
      unfold tupleText at hts
      split at hts <;> cases hts <;> decide
  | dict entries =>
      obtain ⟨ts, -, hts⟩ := Option.map_eq_some_iff.mp h
      cases hts
      decide

end Value

/-! ## Messages -/

namespace Reading

theorem eq_malformed_of_opening {e : Rejection} (h : e.opening = Rejection.malformed.opening) :
    e = .malformed := by
  cases e with
  | notText kindName => simp [Rejection.opening] at h
  | malformed => rfl
  | outOfBounds part digits => cases part <;> simp [Rejection.opening, Part.label] at h

/-- No other value is refused with the message about a malformed text. -/
theorem eq_text_of_message_eq {s : String} {v : Value} {r : Refusal}
    (h : ofValue v = .ok (.refused r))
    (hmessage : r.message = String.ofList (Rejection.malformed.message s.toList)) :
    v = .text s := by
  obtain ⟨t, rfl, ht⟩ | ⟨literal, hv, -, rfl⟩ := refused_of_ofValue h
  · obtain ⟨e, he, -⟩ := rejection_of_refused ht
    rw [he] at hmessage
    have heq := String.ofList_injective hmessage
    obtain rfl := eq_malformed_of_opening (Rejection.opening_eq_of_message_eq heq)
    rw [Rejection.message_malformed, Rejection.message_malformed, List.append_cancel_left_eq] at heq
    have hquoted : Quoted.ofText t.toList ++ [] = Quoted.ofText s.toList ++ [] := by rw [heq]
    rw [String.toList_injective (Quoted.ofText_append_injective hquoted).1]
  · have heq := String.ofList_injective hmessage
    have hsort := eq_malformed_of_opening (Rejection.opening_eq_of_message_eq heq)
    contradiction

end Reading

/-! ## Lines of the log -/

namespace Entry

/-- The line about a refusal is about no throw. -/
theorem line_rolled_ne (spelling : String) (rolls : List Int) (total : Int) (literal : List Char)
    (message : String) : (rolled spelling rolls total).line ≠ (rejected literal message).line := by
  intro h
  have htext := List.append_cancel_left (String.ofList_injective h)
  rw [text_rolled, text_rejected] at htext
  have hsecond := congrArg (fun cs => cs[1]?) htext
  simp at hsecond

theorem line_rejected_injective {literal literal' : List Char} {message message' : String}
    (h : (rejected literal message).line = (rejected literal' message').line) :
    literal ++ ':' :: ' ' :: message.toList = literal' ++ ':' :: ' ' :: message'.toList := by
  have htext := List.append_cancel_left (String.ofList_injective h)
  rw [text_rejected, text_rejected] at htext
  simpa using htext

end Entry

namespace Roll

/-- No other value is logged on the line about a text that is refused. -/
theorem standIn_of_line_eq {settings : Settings} {v : Value} {e : Entry}
    (h : Noted settings v e) {s message : String}
    (hline : e.line = (Entry.rejected (Quoted.ofText s.toList) message).line) :
    settings.standIn v = .text s := by
  cases h with
  | rolled => exact absurd hline (Entry.line_rolled_ne _ _ _ _ _)
  | @rejected literal r hrefuses =>
      have htext := Entry.line_rejected_injective hline
      obtain ⟨hliteral, hasked⟩ := hrefuses
      obtain ⟨t, ht, -⟩ | ⟨shown, hv, hshown, -⟩ := Reading.refused_of_ofValue hasked
      · rw [ht] at hliteral ⊢
        cases hliteral
        rw [String.toList_injective (Quoted.ofText_append_injective htext).1]
      · -- The literal begins like the quoted text, which that of no other value does.
        exfalso
        have hquote := Quoted.isQuote_enclosing s.toList
        cases literal with
        | nil =>
            have hcolon : ':' = Quoted.enclosing s.toList := (List.cons.inj htext).1
            rw [← hcolon] at hquote
            exact absurd hquote (by decide)
        | cons c cs =>
            have hc : c = Quoted.enclosing s.toList := (List.cons.inj htext).1
            exact Value.not_isQuote_of_literal hv hliteral (hc ▸ hquote)

/-- A failure bears the message that the value is refused with. -/
theorem message_of_failure {σ κ : Type} [DieSource σ] [Clock κ] {settings : Settings} {v : Value}
    {s after : Supply σ κ} {f : Failure} (h : Course settings v s (.ok (.failure f)) after) :
    ∃ r, asked settings v = .ok (.refused r) ∧ r.message = f.error := by
  cases h with
  | refused hrefuses _ => exact ⟨_, hrefuses.2, rfl⟩

/-- A text that is refused is logged as its literal, once, and its roll ends in
a failure if it ends in an outcome at all. -/
theorem logged_of_refused {σ κ : Type} [DieSource σ] [Clock κ] {settings : Settings}
    {a : Attempt σ κ} (h : Course settings a.offered a.before a.ending a.after) {s : String}
    (hs : settings.standIn a.offered = .text s) {r : Refusal} (hr : Reading.ofText s = .refused r) :
    a.entries = [.rejected (Quoted.ofText s.toList) r.message] ∧
      ∀ o, a.ending = .ok o → ∃ time, o = .failure ⟨r.spelling, r.message, time⟩ := by
  have hasked : asked settings a.offered = .ok (.refused r) := by
    rw [asked, hs, Reading.ofValue, hr]
  have hliteral : (settings.standIn a.offered).literal? = some (Quoted.ofText s.toList) := by
    rw [hs]
    rfl
  obtain ⟨offered, before, ending, after⟩ := a
  change Course settings offered before ending after at h
  cases h with
  | unwritable hunwritable => exact absurd (hasked.symm.trans hunwritable) (by simp)
  | refused hrefuses _ =>
      cases hliteral.symm.trans hrefuses.1
      cases hasked.symm.trans hrefuses.2
      refine ⟨Attempt.entries_eq rfl, fun o ho => ?_⟩
      cases ho
      exact ⟨_, rfl⟩
  | refusedTimeless hrefuses _ =>
      cases hliteral.symm.trans hrefuses.1
      cases hasked.symm.trans hrefuses.2
      exact ⟨Attempt.entries_eq rfl, fun o ho => by contradiction⟩
  | diceless haccepts | unlogged haccepts | underived haccepts | rolledTimeless haccepts
  | rolled haccepts => exact absurd (hasked.symm.trans haccepts.asked_eq) (by simp)

end Roll

namespace Call

variable {σ κ σ' κ' : Type} [DieSource σ] [Clock κ] [DieSource σ'] [Clock κ']

/-- **A malformed text can be told from what is said about it.**  A text that
is not a notation is refused with a message that quotes it, and no other value
is refused with that message.  Where a run is offered the text, or falls back
on it, the roll ends in a failure that bears the message, if it ends in an
outcome at all, and one entry is logged.  Wherever another run fails with that
message, or logs an entry that reads the same, it is about that text. -/
theorem malformed_text_identified {s : String}
    (hs : ¬∃ f : Form, f.WellFormed ∧ f.spell = s.toList) :
    let message := String.ofList ("Invalid dice notation: ".toList ++ Quoted.ofText s.toList)
    Reading.ofText s = .refused ⟨s, message⟩ ∧
      (∀ v r, Reading.ofValue v = .ok (.refused r) → r.message = message → v = .text s) ∧
      ∀ (settings settings' : Settings) (cs cs' : List Call) (supply : Supply σ κ)
        (supply' : Supply σ' κ'),
        ∀ a ∈ (history settings cs supply).flatten, settings.standIn a.offered = .text s →
          (∀ o, a.ending = .ok o → ∃ time, o = .failure ⟨s, message, time⟩) ∧
          ∃ e, a.entries = [e] ∧ ∀ a' ∈ (history settings' cs' supply').flatten,
            (∃ f, a'.ending = .ok (.failure f) ∧ f.error = message) ∨
              (∃ e' ∈ a'.entries, e'.line = e.line) →
            settings'.standIn a'.offered = .text s := by
  intro message
  have hrefused : Reading.ofText s = .refused ⟨s, message⟩ := Reading.ofText_of_malformed hs
  refine ⟨hrefused, fun v r h hmessage => Reading.eq_text_of_message_eq h hmessage, ?_⟩
  intro settings settings' cs cs' supply supply' a ha hoffered
  obtain ⟨hentries, hending⟩ := Roll.logged_of_refused (course_of_mem_history ha) hoffered hrefused
  refine ⟨hending, _, hentries, fun a' ha' => ?_⟩
  have hcourse := course_of_mem_history ha'
  rintro (⟨f, hf, hmessage⟩ | ⟨e', he', hline⟩)
  · rw [hf] at hcourse
    obtain ⟨r, hr, herror⟩ := Roll.message_of_failure hcourse
    exact Reading.eq_text_of_message_eq hr (herror.trans hmessage)
  · exact Roll.standIn_of_line_eq (Roll.noted_of_course hcourse e' he') hline

/-- A line break, and things that look like it when they are written down. -/
theorem malformed_text_identified_of_newline :
    let lookalikes : List Value := [.text "\\n", .text "'\\n'", .list [.text "\n"]]
    let supply : Supply Script Stopped := ⟨⟨[], []⟩, ⟨.epoch⟩, []⟩
    (¬∃ f : Form, f.WellFormed ∧ f.spell = "\n".toList) ∧
      (∀ v ∈ lookalikes, ∀ r, Reading.ofValue v = .ok (.refused r) →
        r.message ≠ String.ofList ("Invalid dice notation: ".toList ++
          Quoted.ofText "\n".toList)) ∧
      ∀ a ∈ (history .defaults [roll (.text "\n")] supply).flatten,
        ∀ a' ∈ (history .defaults [rollMany (.list lookalikes)] supply).flatten,
          ∀ e ∈ a.entries, ∀ e' ∈ a'.entries, e'.line ≠ e.line := by
  intro lookalikes supply
  have hs : ¬∃ f : Form, f.WellFormed ∧ f.spell = "\n".toList :=
    Reading.malformed_of_mem (c := '\n') (by decide) rfl (by decide)
  have hother : ∀ v ∈ lookalikes, v ≠ .text "\n" ∧ v ≠ .null := by simp [lookalikes]
  obtain ⟨-, hmessage, hruns⟩ :=
    @malformed_text_identified Script Stopped Script Stopped _ _ _ _ _ hs
  refine ⟨hs, fun v hv r hr heq => (hother v hv).1 (hmessage v r hr heq), ?_⟩
  intro a ha a' ha' e he e' he' hline
  have hoffered : a.offered = .text "\n" := by
    simp only [history, List.flatten_cons, List.flatten_nil, List.append_nil] at ha
    simpa using Roll.offered_mem_of_mem_attempts ha
  have hoffered' : a'.offered ∈ lookalikes := by
    simp only [history, List.flatten_cons, List.flatten_nil, List.append_nil] at ha'
    change a' ∈ Roll.attempts .defaults lookalikes supply at ha'
    exact Roll.offered_mem_of_mem_attempts ha'
  obtain ⟨-, d, hd, hidentified⟩ := hruns .defaults .defaults _ _ supply supply a ha (by
    rw [hoffered]
    rfl)
  rw [hd, List.mem_singleton] at he
  have hstandIn := hidentified a' ha' (.inr ⟨e', he', he ▸ hline⟩)
  obtain ⟨hne, hnull⟩ := hother _ hoffered'
  cases hvalue : a'.offered with
  | null => exact hnull hvalue
  | _ =>
      rw [hvalue] at hstandIn hne
      exact hne hstandIn

end Call

end Tabletop
