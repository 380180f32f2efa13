import Tabletop.Proofs.LeadingZeros
import Tabletop.Proofs.SingleLines

/-!
# Tabletop.Proofs.MessageLength

How long the message about a refused text is.

* A number that is out of bounds is shown by its first digits, and the
  notation it stands in by its first characters.  The grammar admits none that
  quoting would lengthen (`Form.isVerbatim_of_mem_spell`), so there is one
  length that no such message exceeds (`length_outOfBounds_le`).
* A text that is not a notation is quoted in full.  The message about it is
  longer than the text, and no length holds for all (`messages_unbounded`).

`Reading.length_message_of_refused` puts both together.
-/

namespace Tabletop

open Text

namespace Notation

/-! ## Abbreviations -/

theorem length_abbreviate_le (most : Nat) (cs : List Char) :
    (abbreviate most cs).length ≤ most + 3 := by
  unfold abbreviate
  split
  · omega
  · rw [List.length_append, List.length_take]
    exact Nat.add_le_add_right (Nat.min_le_left _ _) 3

/-- An abbreviation is made of characters of the text, and of dots. -/
theorem mem_abbreviate {most : Nat} {cs : List Char} {c : Char} (h : c ∈ abbreviate most cs) :
    c ∈ cs ∨ c = '.' := by
  unfold abbreviate at h
  split at h
  · exact .inl h
  · obtain h | h := List.mem_append.mp h
    · exact .inl (List.mem_of_mem_take h)
    · exact .inr (by simpa using h)

/-! ## Quoted notations -/

/-- Whatever the grammar admits stands for itself between quotes. -/
theorem Form.isVerbatim_of_mem_spell {f : Form} (hf : f.WellFormed) {c : Char}
    (h : c ∈ f.spell) : Quoted.IsVerbatim Printable.isPrintable c := by
  cases Form.mem_spell hf h with
  | inl hdigit =>
      obtain ⟨d, hd, hc, -⟩ := Decimal.exists_ofNat_of_isDigit hdigit
      have hdigits : ∀ d < 10, Quoted.IsVerbatim Printable.isPrintable (Nat.digitChar d) := by
        decide +kernel
      rw [Decimal.ofNat, Nat.toDigits_of_lt_base hd] at hc
      rw [List.singleton_inj.mp hc]
      exact hdigits d hd
  | inr hletter =>
      have hletters : ['d', 'D', '+', '-'].all fun c =>
          decide (Quoted.IsVerbatim Printable.isPrintable c) := by
        decide +kernel
      exact of_decide_eq_true (List.all_eq_true.mp hletters c hletter)

/-- A notation takes no more room between quotes than its abbreviation. -/
theorem length_quoted_abbreviate_le (most : Nat) {f : Form} (hf : f.WellFormed) :
    (Quoted.ofText (abbreviate most f.spell)).length ≤ most + 5 := by
  have hdot : Quoted.IsVerbatim Printable.isPrintable '.' := by decide +kernel
  have hverbatim : ∀ c ∈ abbreviate most f.spell,
      Quoted.IsVerbatim Printable.isPrintable c := by
    intro c hc
    obtain hc | rfl := mem_abbreviate hc
    · exact Form.isVerbatim_of_mem_spell hf hc
    · exact hdot
  have hlength := length_abbreviate_le most f.spell
  rw [Quoted.ofText, Quoted.enclose_of_verbatim hverbatim]
  simp only [List.length_append, List.length_cons, List.length_nil]
  omega

/-! ## Messages -/

/-- However long a notation and its runs of digits are, the message about one
of them is not. -/
theorem length_outOfBounds_le {f : Form} (hf : f.WellFormed) (part : Part) (ds : List Char) :
    ((Rejection.outOfBounds part ds).message f.spell).length ≤ 106 := by
  have hnotation := length_quoted_abbreviate_le shownNotation hf
  have hdigits := length_abbreviate_le shownDigits ds
  have hpart : part.label.toList.length + (Decimal.ofNat part.lowest).length +
      (Decimal.ofNat part.highest).length ≤ 14 := by
    cases part <;> decide
  have hwords : " must be between ".toList.length = 17 ∧ " and ".toList.length = 5 ∧
      ", got ".toList.length = 6 ∧ " in ".toList.length = 4 := by decide
  rw [Rejection.message_outOfBounds]
  simp only [List.length_append, hwords]
  simp only [shownNotation, shownDigits] at hnotation hdigits ⊢
  omega

theorem length_malformed (spelling : List Char) :
    (Rejection.malformed.message spelling).length = (Quoted.ofText spelling).length + 23 := by
  have hwords : "Invalid dice notation: ".toList.length = 23 := by decide
  rw [Rejection.message_malformed, List.length_append, hwords, Nat.add_comm]

end Notation

namespace Reading

open Notation

/-! ## Refused texts -/

/-- A text with a character that the grammar does not know is not a notation. -/
theorem malformed_of_mem {s : String} {c : Char} (hc : c ∈ s.toList) (hdigit : c.isDigit = false)
    (hletter : c ∉ ['d', 'D', '+', '-']) : ¬∃ f : Form, f.WellFormed ∧ f.spell = s.toList := by
  rintro ⟨f, hf, hs⟩
  rw [← hs] at hc
  cases Form.mem_spell hf hc with
  | inl h =>
      rw [hdigit] at h
      contradiction
  | inr h => exact hletter h

theorem malformed_replicate {n : Nat} (hn : n ≠ 0) :
    ¬∃ f : Form, f.WellFormed ∧ f.spell = (String.ofList (List.replicate n 'x')).toList := by
  refine malformed_of_mem (c := 'x') ?_ rfl (by decide)
  rw [String.toList_ofList]
  exact List.mem_replicate.mpr ⟨hn, rfl⟩

/-- The message about a text that is not a notation grows with the text. -/
theorem length_message_of_malformed {s : String} {r : Refusal} (h : ofText s = .refused r)
    (hs : ¬∃ f : Form, f.WellFormed ∧ f.spell = s.toList) :
    s.length + 25 ≤ r.message.length ∧ r.message.length ≤ 10 * s.length + 25 := by
  rw [ofText_of_malformed hs] at h
  cases h
  have hquoted := Quoted.length_ofText_bounds s.toList
  rw [String.length_toList] at hquoted
  rw [String.length_ofList, length_malformed]
  omega

/-- **Messages about notations are short, those about other texts are not.**  A
text is refused under its own spelling, in full.

1. If it is a notation, the message has no more than 106 characters, however
   long the notation or a run of digits in it is.
2. If it is none, the message is longer than the text: by 25 characters if all
   of it is shown, and by nine more for each character at the most. -/
theorem length_message_of_refused {s : String} {r : Refusal} (h : ofText s = .refused r) :
    r.spelling = s ∧
    ((∃ f : Form, f.WellFormed ∧ f.spell = s.toList) → r.message.length ≤ 106) ∧
    ((¬∃ f : Form, f.WellFormed ∧ f.spell = s.toList) →
      s.length + 25 ≤ r.message.length ∧ r.message.length ≤ 10 * s.length + 25) := by
  refine ⟨spelling_of_refused h, fun hwell => ?_, length_message_of_malformed h⟩
  obtain ⟨hmalformed, -⟩ | ⟨f, part, ds, hf, hs, -, rfl⟩ := refused_cases h
  · exact absurd hwell hmalformed
  · rw [String.length_ofList, ← hs]
    exact length_outOfBounds_le hf part ds

/-- Five thousand digits for the count, and five thousand letters. -/
theorem length_message_of_refused_of_thousands :
    let ones := '1' :: List.replicate 4999 '1'
    let f : Form := ⟨some ⟨ones, false⟩, ['6'], none⟩
    let s := String.ofList f.spell
    let u := String.ofList (List.replicate 5000 'x')
    (∃ r, ofText s = .refused r ∧ f.WellFormed ∧ r.spelling = s ∧ r.message.length ≤ 106) ∧
      ∃ r, ofText u = .refused r ∧ r.spelling = u ∧ 5025 ≤ r.message.length := by
  intro ones f s u
  have hs : f.spell = s.toList := String.toList_ofList.symm
  have hones : Decimal.IsRun ones := by
    intro c hc
    obtain rfl | hc := List.mem_cons.mp hc
    · rfl
    · rw [List.eq_of_mem_replicate hc]
      rfl
  have hf : f.WellFormed := ⟨by rintro _ ⟨⟩; exact hones, by decide, by decide, by rintro _ ⟨⟩,
    by rintro _ ⟨⟩⟩
  have hlong : ¬Form.InBounds (.count, f.countDigits) := by
    rintro ⟨hlength, -⟩
    have hones : f.countDigits.length = 5000 := by
      rw [show f.countDigits = ones from rfl, List.length_cons, List.length_replicate]
    rw [hones] at hlength
    exact absurd hlength (by decide)
  have hfirst : f.parts.find? (fun p => ¬Form.InBounds p) = some (.count, ones) :=
    List.find?_cons_of_pos (by simpa using hlong)
  have hrefused := ofText_of_outOfBounds hf hs hfirst
  have hu : ¬∃ f : Form, f.WellFormed ∧ f.spell = u.toList := malformed_replicate (by decide)
  obtain ⟨hspelling, hshort, -⟩ := length_message_of_refused hrefused
  obtain ⟨hspelling', -, hgrows⟩ := length_message_of_refused (ofText_of_malformed hu)
  have hlength : u.length = 5000 := by rw [String.length_ofList, List.length_replicate]
  refine ⟨⟨_, hrefused, hf, hspelling, hshort ⟨f, hf, hs⟩⟩, _, ofText_of_malformed hu,
    hspelling', ?_⟩
  have hleast := (hgrows hu).1
  rw [hlength] at hleast
  exact hleast

/-- No length holds for the messages about all refused texts. -/
theorem messages_unbounded :
    ¬∃ most, ∀ (s : String) (r : Refusal), ofText s = .refused r → r.message.length ≤ most := by
  rintro ⟨most, hmost⟩
  let s := String.ofList (List.replicate (most + 1) 'x')
  have hs : ¬∃ f : Form, f.WellFormed ∧ f.spell = s.toList :=
    malformed_replicate (Nat.succ_ne_zero most)
  have hlength : s.length = most + 1 := by rw [String.length_ofList, List.length_replicate]
  have hrefused := ofText_of_malformed hs
  have hleast := (length_message_of_malformed hrefused hs).1
  have hbound := hmost s _ hrefused
  omega

end Reading

end Tabletop
