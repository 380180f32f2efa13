import Tabletop.Proofs.Agreement
import Tabletop.Proofs.Conservation
import Tabletop.Proofs.Derivation
import Tabletop.Proofs.Quotation

/-!
# Tabletop.Proofs.SingleLines

Nothing that is offered can break a line of the log.

A notation that is accepted is logged as it stands, and one that is refused as
its literal.  The first is harmless because of what the grammar admits, the
second because quoting spells out whatever is hidden.  A text *keeps to a
line* when all its characters are plain (`IsPlain`), and this is followed from
characters through numerals, quotations and literals to entries and outcomes.

* `Value.isLine_literal?`: whatever it holds and however deep, the literal of
  a value keeps to a line.
* `Roll.Noted`: what may be logged about a value; nothing else is
  (`Roll.noted_of_course`).
* `Call.run_keeps_to_lines`: every entry of a run and every reason or
  derivation that it answers with keep to a line.
-/

namespace Tabletop

open Text

namespace Text

/-! ## Plain characters -/

/-- Neither a control character nor a line or paragraph separator. -/
def IsPlain (c : Char) : Prop :=
  0x20 ≤ c.toNat ∧ ¬(0x7f ≤ c.toNat ∧ c.toNat ≤ 0x9f) ∧ c.toNat ≠ 0x2028 ∧ c.toNat ≠ 0x2029

instance (c : Char) : Decidable (IsPlain c) := inferInstanceAs (Decidable (_ ∧ _))

/-- The text has plain characters only, so nothing in it ends a line. -/
def IsLine (cs : List Char) : Prop := ∀ c ∈ cs, IsPlain c

instance (cs : List Char) : Decidable (IsLine cs) := List.decidableBAll _ cs

theorem isLine_nil : IsLine [] := by simp [IsLine]

@[simp] theorem isLine_cons {c : Char} {cs : List Char} :
    IsLine (c :: cs) ↔ IsPlain c ∧ IsLine cs := List.forall_mem_cons

@[simp] theorem isLine_append {cs ds : List Char} : IsLine (cs ++ ds) ↔ IsLine cs ∧ IsLine ds :=
  List.forall_mem_append

theorem isLine_enclosed {before after : Char} (hbefore : IsPlain before) {cs : List Char}
    (h : IsLine cs) (hafter : IsPlain after) : IsLine (before :: cs ++ [after]) := by
  simp [hbefore, h, hafter, isLine_nil]

/-- Pieces that keep to a line are joined to such a text by another. -/
theorem isLine_intercalate {mark : List Char} (hmark : IsLine mark) {pieces : List (List Char)}
    (h : ∀ cs ∈ pieces, IsLine cs) : IsLine (mark.intercalate pieces) := by
  induction pieces with
  | nil => exact isLine_nil
  | cons cs rest ih =>
      rw [List.forall_mem_cons] at h
      cases rest with
      | nil => simpa using h.1
      | cons ds rest =>
          rw [List.intercalate_cons_cons, isLine_append, isLine_append]
          exact ⟨⟨h.1, hmark⟩, ih h.2⟩

theorem isPlain_of_isDigit {c : Char} (h : c.isDigit = true) : IsPlain c := by
  have hbounds := Decimal.toNat_bounds_of_isDigit h
  unfold IsPlain
  omega

theorem Printable.not_hidden {c : Char} (h : isPrintable c) {r : Nat × Nat} (hr : r ∈ hidden) :
    ¬(r.1 ≤ c.toNat ∧ c.toNat ≤ r.2) := by
  simp only [isPrintable, Bool.not_eq_true', List.any_eq_false, Bool.and_eq_true,
    decide_eq_true_eq] at h
  exact h r hr

/-- Whatever is not plain is hidden. -/
theorem isPlain_of_isPrintable {c : Char} (h : Printable.isPrintable c) : IsPlain c := by
  have hcontrol := Printable.not_hidden h (r := (0x0000, 0x001f)) (by decide +kernel)
  have hdelete := Printable.not_hidden h (r := (0x007f, 0x00a0)) (by decide +kernel)
  have hseparator := Printable.not_hidden h (r := (0x2028, 0x202f)) (by decide +kernel)
  unfold IsPlain
  omega

theorem isPlain_of_isVisibleAscii {c : Char} (h : Quoted.isVisibleAscii c) : IsPlain c := by
  simp only [Quoted.isVisibleAscii, Bool.and_eq_true, decide_eq_true_eq] at h
  unfold IsPlain
  omega

/-! ## Numerals and quotations -/

namespace Decimal

theorem isLine_of_isRun {digits : List Char} (h : IsRun digits) : IsLine digits :=
  fun c hc => isPlain_of_isDigit (h c hc)

theorem isLine_ofNat (n : Nat) : IsLine (ofNat n) := isLine_of_isRun (isRun_ofNat n)

theorem isLine_ofInt (n : Int) : IsLine (ofInt n) := by
  intro c hc
  obtain rfl | hdigit := mem_ofInt hc
  · decide
  · exact isPlain_of_isDigit hdigit

end Decimal

namespace Quoted

theorem isLine_hex (width n : Nat) : IsLine (hex width n) := by
  have hdigit : ∀ k < 16, IsPlain (Nat.digitChar k) := by decide
  induction width generalizing n with
  | zero => exact isLine_nil
  | succ width ih => simp [hex, ih, isLine_nil, hdigit (n % 16) (Nat.mod_lt n (by decide))]

variable {shown : Char → Bool}

/-- Where only plain characters are shown, each is written in such. -/
theorem Escaped.isLine {mark c : Char} {cs : List Char} (h : Escaped shown mark c cs)
    (hmark : IsQuote mark) (hshown : ∀ d, shown d → IsPlain d) : IsLine cs := by
  have hbackslash : IsPlain backslash := by decide
  cases h with
  | guarded h =>
      have hc : IsPlain c := by
        obtain rfl | rfl := h
        · obtain rfl | rfl := hmark <;> decide
        · decide
      simp [hbackslash, hc, isLine_nil]
  | @lettered letter h =>
      have hletter : ∀ p ∈ letters, IsPlain p.1 := by decide
      simp [hbackslash, hletter _ h, isLine_nil]
  | verbatim _ _ hc => simp [hshown c hc, isLine_nil]
  | @coded letter width h _ _ =>
      have hletter : ∀ p ∈ widths, IsPlain p.1 := by decide
      simp [hbackslash, hletter _ h, isLine_hex]

theorem isLine_enclose (hshown : ∀ c, shown c → IsPlain c) (content : List Char) :
    IsLine (enclose shown content) := by
  have hquote := isQuote_enclosing content
  have hmark : IsPlain (enclosing content) := by
    obtain h | h := hquote <;> rw [h] <;> decide
  have hcontent : IsLine (content.flatMap (escape shown (enclosing content))) := by
    intro d hd
    obtain ⟨c, -, hd⟩ := List.mem_flatMap.mp hd
    exact (escaped_escape shown (enclosing content) c).isLine hquote hshown d hd
  simp [enclose, hmark, hcontent, isLine_nil]

theorem isLine_ofText (content : List Char) : IsLine (ofText content) :=
  isLine_enclose (fun _ => isPlain_of_isPrintable) content

theorem isLine_ofBytes (content : List UInt8) : IsLine (ofBytes content) :=
  isLine_cons.mpr ⟨by decide, isLine_enclose (fun _ => isPlain_of_isVisibleAscii) _⟩

end Quoted

end Text

/-! ## Literals -/

namespace Floating

/-- The characters of numbers that are no digits. -/
def marks : List Char := ['-', '+', '.', 'e', 'i', 'n', 'f', 'a']

theorem mem_exponentPart {e : Int} {c : Char} (h : c ∈ exponentPart e) :
    c.isDigit = true ∨ c ∈ marks := by
  have hsign : (if e < 0 then '-' else '+') ∈ marks := by split <;> decide
  simp only [exponentPart, List.cons_append, List.mem_cons, List.mem_append] at h
  obtain rfl | rfl | hzero | hdigit := h
  · exact .inr (by decide)
  · exact .inr hsign
  · rw [List.eq_of_mem_replicate hzero]
    exact .inl rfl
  · exact .inl (Decimal.isRun_ofNat _ c hdigit)

theorem mem_layOut {ds : List Char} (hds : Decimal.IsRun ds) {lead : Int} {c : Char}
    (h : c ∈ layOut ds lead) : c.isDigit = true ∨ c ∈ marks := by
  have hzero : ∀ k, c ∈ List.replicate k '0' → c.isDigit = true := by
    intro k hc
    rw [List.eq_of_mem_replicate hc]
    rfl
  have htake : ∀ k, c ∈ ds.take k → c.isDigit = true := fun k hc => hds c (List.mem_of_mem_take hc)
  have hdrop : ∀ k, c ∈ ds.drop k → c.isDigit = true := fun k hc => hds c (List.mem_of_mem_drop hc)
  unfold layOut at h
  split at h
  · split at h
    · simp only [List.cons_append, List.mem_cons, List.mem_append] at h
      obtain rfl | rfl | h | h := h
      · exact .inl rfl
      · exact .inr (by decide)
      · exact .inl (hzero _ h)
      · exact .inl (hds c h)
    · simp only [List.append_assoc, List.mem_cons, List.mem_append] at h
      obtain h | h | rfl | h := h
      · exact .inl (htake _ h)
      · exact .inl (hzero _ h)
      · exact .inr (by decide)
      · split at h
        · rw [List.mem_singleton.mp h]
          exact .inl rfl
        · exact .inl (hdrop _ h)
  · simp only [List.append_assoc, List.mem_append] at h
    obtain h | h | h := h
    · exact .inl (htake _ h)
    · split at h
      · contradiction
      · obtain rfl | h := List.mem_cons.mp h
        · exact .inr (by decide)
        · exact .inl (hdrop _ h)
    · exact mem_exponentPart h

/-- The text of a number is made of digits and marks. -/
theorem mem_text {x : Floating} {c : Char} (h : c ∈ x.text) : c.isDigit = true ∨ c ∈ marks := by
  have hminus : ∀ negative : Bool, c ∈ (if negative then ['-'] else []) → c ∈ marks := by
    intro negative
    cases negative <;> simp +contextual [marks]
  cases x with
  | nan =>
      have hnan : nan.text ⊆ marks := by decide
      exact .inr (hnan h)
  | infinite negative =>
      have hinf : (infinite negative).text ⊆ marks := by cases negative <;> decide
      exact .inr (hinf h)
  | finite negative digits exponent =>
      obtain h | h := List.mem_append.mp h
      · exact .inr (hminus negative h)
      · exact mem_layOut (Decimal.isRun_ofNat digits) h

theorem isLine_text (x : Floating) : IsLine x.text := by
  intro c hc
  cases mem_text hc with
  | inl h => exact isPlain_of_isDigit h
  | inr h =>
      have hmarks : IsLine marks := by decide
      exact hmarks c h

end Floating

namespace Value

theorem isLine_commaSeparated {items : List (List Char)} (h : ∀ cs ∈ items, IsLine cs) :
    IsLine (commaSeparated items) := isLine_intercalate (by decide) h

theorem isLine_tupleText {items : List (List Char)} (h : ∀ cs ∈ items, IsLine cs) :
    IsLine (tupleText items) := by
  unfold tupleText
  split
  · next item =>
      have hitem : IsLine item := by simpa using h
      exact isLine_cons.mpr ⟨by decide, isLine_append.mpr ⟨hitem, by decide⟩⟩
  · exact isLine_enclosed (by decide) (isLine_commaSeparated h) (by decide)

mutual

/-- The literal of a value keeps to a line, whatever the value holds. -/
theorem isLine_literal? (v : Value) {literal : List Char} (h : v.literal? = some literal) :
    IsLine literal := by
  cases v with
  | null =>
      cases h
      decide
  | bool b =>
      cases h
      cases b <;> decide
  | int n =>
      obtain ⟨-, rfl⟩ := Decimal.ofInt?_eq_some_iff.mp h
      exact Decimal.isLine_ofInt n
  | float x =>
      cases h
      exact x.isLine_text
  | text s =>
      cases h
      exact Quoted.isLine_ofText s.toList
  | bytes content =>
      cases h
      exact Quoted.isLine_ofBytes content
  | list items =>
      obtain ⟨ts, hts, rfl⟩ := Option.map_eq_some_iff.mp h
      exact isLine_enclosed (by decide) (isLine_commaSeparated (isLine_of_literals? items hts))
        (by decide)
  | tuple items =>
      obtain ⟨ts, hts, rfl⟩ := Option.map_eq_some_iff.mp h
      exact isLine_tupleText (isLine_of_literals? items hts)
  | dict entries =>
      obtain ⟨ts, hts, rfl⟩ := Option.map_eq_some_iff.mp h
      exact isLine_enclosed (by decide)
        (isLine_commaSeparated (isLine_of_entryLiterals? entries hts)) (by decide)

theorem isLine_of_literals? (items : List Value) {literals : List (List Char)}
    (h : literals? items = some literals) : ∀ cs ∈ literals, IsLine cs := by
  cases items with
  | nil =>
      cases h
      exact List.forall_mem_nil _
  | cons v rest =>
      simp only [literals?, Option.bind_eq_bind, Option.bind_eq_some_iff] at h
      obtain ⟨literal, hliteral, others, hothers, hall⟩ := h
      cases hall
      exact List.forall_mem_cons.mpr
        ⟨isLine_literal? v hliteral, isLine_of_literals? rest hothers⟩

theorem isLine_of_entryLiterals? (entries : List (Value × Value)) {literals : List (List Char)}
    (h : entryLiterals? entries = some literals) : ∀ cs ∈ literals, IsLine cs := by
  cases entries with
  | nil =>
      cases h
      exact List.forall_mem_nil _
  | cons entry rest =>
      obtain ⟨k, v⟩ := entry
      simp only [entryLiterals?, Option.bind_eq_bind, Option.bind_eq_some_iff] at h
      obtain ⟨key, hkey, literal, hliteral, others, hothers, hall⟩ := h
      cases hall
      have hentry : IsLine (key ++ [':', ' '] ++ literal) :=
        isLine_append.mpr ⟨isLine_append.mpr ⟨isLine_literal? k hkey, by decide⟩,
          isLine_literal? v hliteral⟩
      exact List.forall_mem_cons.mpr ⟨hentry, isLine_of_entryLiterals? rest hothers⟩

end

theorem isLine_kindName (v : Value) : IsLine v.kindName.toList := by
  cases v <;> simp only [kindName] <;> decide

end Value

/-! ## Notations and what is said about them -/

namespace Notation

theorem Form.mem_spell {f : Form} (hf : f.WellFormed) {c : Char} (h : c ∈ f.spell) :
    c.isDigit = true ∨ c ∈ ['d', 'D', '+', '-'] := by
  obtain ⟨lead, sides, tail⟩ := f
  rw [Form.spell_eq, List.append_assoc, List.mem_append, List.mem_append] at h
  obtain h | h | h := h
  · cases lead with
    | none => contradiction
    | some l =>
        obtain h | h := List.mem_append.mp h
        · exact .inl (hf.count_run l rfl c h)
        · rw [List.mem_singleton.mp h]
          cases l.capital <;> exact .inr (by decide)
  · exact .inl (hf.sides_run c h)
  · cases tail with
    | none => contradiction
    | some t =>
        obtain rfl | h := List.mem_cons.mp h
        · cases t.1 <;> exact .inr (by decide)
        · exact .inl (hf.tail_run t rfl c h)

/-- Nothing that the grammar admits ends a line. -/
theorem Form.isLine_spell {f : Form} (hf : f.WellFormed) : IsLine f.spell := by
  intro c hc
  cases Form.mem_spell hf hc with
  | inl h => exact isPlain_of_isDigit h
  | inr h =>
      have hletters : IsLine ['d', 'D', '+', '-'] := by decide
      exact hletters c h

theorem isLine_abbreviate (most : Nat) {cs : List Char} (h : IsLine cs) :
    IsLine (abbreviate most cs) := by
  unfold abbreviate
  split
  · exact h
  · exact isLine_append.mpr ⟨fun c hc => h c (List.mem_of_mem_take hc), by decide⟩

theorem isLine_outOfBounds (part : Part) {digits : List Char} (h : IsLine digits)
    (spelling : List Char) : IsLine ((Rejection.outOfBounds part digits).message spelling) := by
  have hlabel : IsLine part.label.toList := by cases part <;> decide
  have hdigits := isLine_abbreviate shownDigits h
  have hwords : IsLine " must be between ".toList ∧ IsLine " and ".toList ∧
      IsLine ", got ".toList ∧ IsLine " in ".toList := by decide
  rw [Rejection.message_outOfBounds]
  simp only [isLine_append, hlabel, Decimal.isLine_ofNat, hdigits, Quoted.isLine_ofText, hwords,
    and_self]

end Notation

namespace Reading

open Notation

theorem isLine_of_accepted {s : String} {t : Throw} (h : ofText s = .accepted t) :
    IsLine s.toList := by
  have hwell : ∃ f : Form, f.WellFormed ∧ f.spell = s.toList := by
    apply Classical.byContradiction
    intro hnone
    rw [ofText_of_malformed hnone] at h
    contradiction
  obtain ⟨f, hf, hs⟩ := hwell
  exact hs ▸ Form.isLine_spell hf

theorem isLine_of_refused {s : String} {r : Refusal} (h : ofText s = .refused r) :
    IsLine r.message.toList := by
  obtain ⟨-, rfl⟩ | ⟨f, part, ds, hf, -, hmem, rfl⟩ := refused_cases h
  · rw [String.toList_ofList]
    exact isLine_append.mpr ⟨by decide, Quoted.isLine_ofText _⟩
  · have hds := (Form.isRun_of_mem_parts hf _ hmem).1
    rw [String.toList_ofList]
    exact isLine_outOfBounds part (Decimal.isLine_of_isRun hds) _

/-- A value is refused as the text that it is, or for being none. -/
theorem refused_of_ofValue {v : Value} {r : Refusal} (h : ofValue v = .ok (.refused r)) :
    (∃ s, v = .text s ∧ ofText s = .refused r) ∨
      ∃ literal, (∀ s, v ≠ .text s) ∧ v.literal? = some literal ∧
        r = refuseKind v.kindName literal := by
  by_cases htext : ∃ s, v = .text s
  · obtain ⟨s, rfl⟩ := htext
    exact .inl ⟨s, rfl, Except.ok.inj h⟩
  · have hv : ∀ s, v ≠ .text s := fun s hs => htext ⟨s, hs⟩
    rw [ofValue_of_ne_text hv] at h
    cases hliteral : v.literal? with
    | none =>
        rw [hliteral] at h
        contradiction
    | some literal =>
        rw [hliteral] at h
        cases h
        exact .inr ⟨literal, hv, rfl, rfl⟩

theorem isLine_of_ofValue {v : Value} {r : Refusal} (h : ofValue v = .ok (.refused r)) :
    IsLine r.message.toList := by
  obtain ⟨s, -, hs⟩ | ⟨literal, -, -, rfl⟩ := refused_of_ofValue h
  · exact isLine_of_refused hs
  · rw [refuseKind, String.toList_ofList]
    exact isLine_append.mpr ⟨by decide, v.isLine_kindName⟩

end Reading

/-! ## Derivations -/

namespace Breakdown

theorem isLine_clause (m : Modifier) : IsLine (clause m) := by
  have hsymbol : IsPlain m.sign.symbol := by cases m.sign <;> decide
  have hblank : IsPlain ' ' := by decide
  simp [clause, hblank, hsymbol, Decimal.isLine_ofNat]

theorem isLine_dice (rolls : List Int) : IsLine (dice rolls) := by
  refine isLine_intercalate (by decide) fun cs hcs => ?_
  obtain ⟨n, -, rfl⟩ := List.mem_map.mp hcs
  exact Decimal.isLine_ofInt n

theorem isLine_text (rolls : List Int) (t : Throw) : IsLine (text rolls t) := by
  refine isLine_intercalate (by decide) ?_
  unfold steps
  split <;> simp [isLine_dice, isLine_clause, Decimal.isLine_ofInt]

end Breakdown

/-! ## Entries and outcomes -/

namespace Entry

theorem toList_line (e : Entry) :
    e.line.toList = "DEBUG dice_roller.roller ".toList ++ e.text := String.toList_ofList

theorem text_rolled (spelling : String) (rolls : List Int) (total : Int) :
    (rolled spelling rolls total).text = "Rolled ".toList ++ spelling.toList ++ ": ".toList ++
      Value.tupleText (rolls.map Decimal.ofInt) ++ " -> ".toList ++ Decimal.ofInt total := rfl

theorem text_rejected (literal : List Char) (message : String) :
    (rejected literal message).text =
      "Rejected dice notation ".toList ++ literal ++ ": ".toList ++ message.toList := rfl

theorem isLine_line {e : Entry} (h : IsLine e.text) : IsLine e.line.toList := by
  rw [toList_line]
  exact isLine_append.mpr ⟨by decide, h⟩

end Entry

/-- What an outcome says for itself: the derivation of a total, or the reason
of a failure. -/
def Outcome.explanation : Outcome → String
  | success r => r.breakdown
  | failure f => f.error

namespace Roll

/-- What may be logged about an offered value: the notation as it stands, when
it is accepted, or the literal of what is refused. -/
inductive Noted (settings : Settings) (v : Value) : Entry → Prop
  | rolled {spelling : String} {t : Throw} (haccepts : Accepts settings v spelling t)
      (rolls : List Int) : Noted settings v (entryOf spelling t rolls)
  | rejected {literal : List Char} {r : Refusal} (hrefuses : Refuses settings v literal r) :
      Noted settings v (.rejected literal r.message)

variable {settings : Settings} {v : Value}

theorem Noted.isLine_text {e : Entry} (h : Noted settings v e) : IsLine e.text := by
  cases h with
  | @rolled spelling t haccepts rolls =>
      have hspelling := Reading.isLine_of_accepted haccepts.2
      have hrolls : IsLine (Value.tupleText (rolls.map Decimal.ofInt)) := by
        refine Value.isLine_tupleText fun cs hcs => ?_
        obtain ⟨n, -, rfl⟩ := List.mem_map.mp hcs
        exact Decimal.isLine_ofInt n
      have hwords : IsLine "Rolled ".toList ∧ IsLine ": ".toList ∧ IsLine " -> ".toList := by
        decide
      simp only [entryOf, Entry.text_rolled, isLine_append, hspelling, hrolls, hwords,
        Decimal.isLine_ofInt, and_self]
  | @rejected literal r hrefuses =>
      have hliteral := Value.isLine_literal? _ hrefuses.1
      have hmessage := Reading.isLine_of_ofValue hrefuses.2
      have hwords : IsLine "Rejected dice notation ".toList ∧ IsLine ": ".toList := by decide
      simp only [Entry.text_rejected, isLine_append, hliteral, hmessage, hwords, and_self]

/-- How the line begins, and what stands in it. -/
theorem Noted.line_cases {e : Entry} (h : Noted settings v e) :
    (∃ spelling t, Accepts settings v spelling t ∧
      "DEBUG dice_roller.roller Rolled ".toList ++ spelling.toList ++ ": ".toList <+:
        e.line.toList) ∨
    ∃ literal r, Refuses settings v literal r ∧
      e.line.toList = "DEBUG dice_roller.roller Rejected dice notation ".toList ++
        literal ++ ": ".toList ++ r.message.toList := by
  have hrolled : "DEBUG dice_roller.roller Rolled ".toList =
      "DEBUG dice_roller.roller ".toList ++ "Rolled ".toList := by decide
  have hrejected : "DEBUG dice_roller.roller Rejected dice notation ".toList =
      "DEBUG dice_roller.roller ".toList ++ "Rejected dice notation ".toList := by decide
  rw [Entry.toList_line, hrolled, hrejected]
  cases h with
  | @rolled spelling t haccepts rolls =>
      refine .inl ⟨spelling, t, haccepts, ?_⟩
      simp only [entryOf, Entry.text_rolled, List.append_assoc, List.prefix_append_right_inj,
        List.prefix_append]
  | @rejected literal r hrefuses =>
      refine .inr ⟨literal, r, hrefuses, ?_⟩
      simp only [Entry.text_rejected, List.append_assoc]

variable {σ κ : Type} [DieSource σ] [Clock κ]

/-- Whatever course a roll takes, nothing else is logged. -/
theorem noted_of_course {a : Attempt σ κ}
    (h : Course settings a.offered a.before a.ending a.after) :
    ∀ e ∈ a.entries, Noted settings a.offered e := by
  obtain ⟨offered, before, ending, after⟩ := a
  change Course settings offered before ending after at h
  cases h with
  | unwritable | diceless | unlogged =>
      rw [Attempt.entries_eq (List.append_nil _).symm]
      exact List.forall_mem_nil _
  | refused hrefuses | refusedTimeless hrefuses =>
      rw [Attempt.entries_eq rfl, List.forall_mem_singleton]
      exact .rejected hrefuses
  | @underived _ _ rolls _ haccepts | @rolledTimeless _ _ rolls _ _ _ _ haccepts
  | @rolled _ _ rolls _ _ _ _ haccepts =>
      rw [Attempt.entries_eq rfl, List.forall_mem_singleton]
      exact .rolled haccepts rolls

theorem isLine_explanation_of_course {s after : Supply σ κ} {o : Outcome}
    (h : Course settings v s (.ok o) after) : IsLine o.explanation.toList := by
  cases h with
  | refused hrefuses _ => exact Reading.isLine_of_ofValue hrefuses.2
  | @rolled _ t rolls _ _ _ _ _ _ _ hderivation _ =>
      obtain ⟨-, rfl⟩ := Breakdown.text?_eq_some_iff.mp hderivation
      rw [Outcome.explanation, successOf, String.toList_ofList]
      exact Breakdown.isLine_text rolls t

end Roll

namespace Call

variable {σ κ : Type} [DieSource σ] [Clock κ]

/-- Each answer of a run is that of a call, from some supply. -/
theorem exists_answer_of_mem_answers {settings : Settings} {cs : List Call} {s : Supply σ κ}
    {x : Except Fault Answer} (h : x ∈ (answers settings cs s).1) :
    ∃ (c : Call) (found : Supply σ κ), x = (c.answer settings found).1 := by
  induction cs generalizing s with
  | nil => contradiction
  | cons c rest ih =>
      rw [answers] at h
      obtain rfl | h := List.mem_cons.mp h
      · exact ⟨c, s, rfl⟩
      · exact ih h

/-- Each outcome that is answered with is what a roll has come to. -/
theorem exists_course_of_mem_results {settings : Settings} {cs : List Call} {s : Supply σ κ}
    {answer : Answer} (h : .ok answer ∈ (answers settings cs s).1) :
    ∀ o ∈ answer.results, ∃ (v : Value) (before after : Supply σ κ),
      Roll.Course settings v before (.ok o) after := by
  intro o ho
  obtain ⟨c, found, hfound⟩ := exists_answer_of_mem_answers h
  obtain ⟨vs, -, -, hending⟩ := attempts_of_answer_ok hfound.symm
  have hmem : .ok o ∈ (c.attempts settings found).map Attempt.ending := by
    rw [hending]
    exact List.mem_map_of_mem ho
  obtain ⟨a, ha, hok⟩ := List.mem_map.mp hmem
  have hcourse := course_of_mem_attempts ha
  rw [hok] at hcourse
  exact ⟨_, _, _, hcourse⟩

/-- **What is offered cannot break a line.**  Over any run of calls, failing
ones included, the log grows by the entries of the rolls attempted.  Each of
them keeps to a line, although an accepted notation stands in it as it was
offered; what is refused stands in it as its literal.  The derivations and the
reasons that the run answers with keep to a line as well. -/
theorem run_keeps_to_lines (settings : Settings) (cs : List Call) (s : Supply σ κ) :
    let tries := (history settings cs s).flatten
    (answers settings cs s).2.log = s.log ++ tries.flatMap Attempt.entries ∧
      (∀ a ∈ tries, ∀ e ∈ a.entries, IsLine e.line.toList ∧
        ((∃ spelling t, Roll.Accepts settings a.offered spelling t ∧
            "DEBUG dice_roller.roller Rolled ".toList ++ spelling.toList ++ ": ".toList <+:
              e.line.toList) ∨
          ∃ literal r, Roll.Refuses settings a.offered literal r ∧
            e.line.toList = "DEBUG dice_roller.roller Rejected dice notation ".toList ++
              literal ++ ": ".toList ++ r.message.toList)) ∧
      ∀ answer, .ok answer ∈ (answers settings cs s).1 →
        ∀ o ∈ answer.results, IsLine o.explanation.toList := by
  intro tries
  have hcourse : ∀ a ∈ tries, Roll.Course settings a.offered a.before a.ending a.after :=
    fun a ha => course_of_mem_history ha
  refine ⟨?_, ?_, ?_⟩
  · exact (follow_history settings cs s).gained Supply.log Attempt.entries fun a ha =>
      Attempt.log_of_course (hcourse a ha)
  · intro a ha e he
    have hnoted := Roll.noted_of_course (hcourse a ha) e he
    exact ⟨Entry.isLine_line hnoted.isLine_text, hnoted.line_cases⟩
  · intro answer hanswer o ho
    obtain ⟨v, before, after, hroll⟩ := exists_course_of_mem_results hanswer o ho
    exact Roll.isLine_explanation_of_course hroll

/-- Line breaks in a notation, in the one that the settings fall back on and in
a nested text, beside a notation that is rolled: four entries, each on a line. -/
theorem run_keeps_to_lines_of_breaks :
    let settings := { Settings.defaults with fallback := "oops\x0a" }
    let calls := [roll (.text "2d6\nDEBUG dice_roller.roller Rolled 2d6: (6, 6) -> 12"),
      rollMany (.list [.null, .text "02D6", .list [.tuple [.text "\u2028"]]])]
    let s : Supply Script Stopped := ⟨⟨[4, 2], []⟩, ⟨.epoch⟩, []⟩
    (answers settings calls s).2.log.length = 4 ∧
      ∀ e ∈ (answers settings calls s).2.log, IsLine e.line.toList := by
  intro settings calls s
  refine ⟨by decide +kernel, fun e he => ?_⟩
  obtain ⟨hlog, hlines, -⟩ := run_keeps_to_lines settings calls s
  rw [hlog] at he
  obtain he | he := List.mem_append.mp he
  · contradiction
  · obtain ⟨a, ha, he⟩ := List.mem_flatMap.mp he
    exact (hlines a ha e he).1

end Call

end Tabletop
