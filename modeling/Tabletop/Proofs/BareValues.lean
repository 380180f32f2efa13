import Mathlib.Data.List.Chain
import Mathlib.Data.List.TakeWhile
import Tabletop.Settings.VariableFile

/-!
# Tabletop.Proofs.BareValues

Values that stand in a file of variables without quotes.

From an equals sign to the end of the line there are spaces, the value, more
spaces and perhaps a comment (`Bare`).  The value neither begins nor ends with a
space and does not begin with a quote.  A number sign that has a space in front
begins the comment, and no other does.

* What is read of such a text is its value (`Bare.strip_dropComment_text`).
* Every text on one line is made up like this, unless it begins with a quote
  (`Bare.exists_text_eq`).
-/

namespace Tabletop

open Text

/-! ## Taking off what is at the ends -/

namespace Text.Blank

variable {inClass : Char → Bool} {cs : List Char}

theorem dropWhile_eq_self (h : ∀ c ∈ cs.head?, inClass c = false) : cs.dropWhile inClass = cs := by
  cases cs with
  | nil => rfl
  | cons c cs =>
      rw [List.dropWhile_cons, h c rfl]
      rfl

/-- What stands between characters of the class, and has none at its ends, is left. -/
theorem strip_append {before value after : List Char} (hbefore : ∀ c ∈ before, inClass c = true)
    (hfirst : ∀ c ∈ value.head?, inClass c = false)
    (hlast : ∀ c ∈ value.getLast?, inClass c = false) (hafter : ∀ c ∈ after, inClass c = true) :
    strip inClass (before ++ value ++ after) = value := by
  have hreverse : ∀ c ∈ after.reverse, inClass c = true := by simpa using hafter
  rw [← List.head?_reverse] at hlast
  rw [strip, List.append_assoc, List.dropWhile_append_of_pos hbefore]
  cases value with
  | nil =>
      have hnone : after.dropWhile inClass = [] := List.dropWhile_eq_nil_iff.mpr hafter
      rw [List.nil_append, hnone]
      rfl
  | cons c rest =>
      have hstart : ∀ d ∈ (c :: rest ++ after).head?, inClass d = false := hfirst
      rw [dropWhile_eq_self hstart, List.reverse_append, List.dropWhile_append_of_pos hreverse,
        dropWhile_eq_self hlast, List.reverse_reverse]

end Text.Blank

namespace Settings.VariableFile

/-! ## Number signs behind spaces -/

/-- No number sign in the text has a space in front. -/
def NoComment (cs : List Char) : Prop :=
  cs.IsChain fun c d => Blank.isSpace c = true → d ≠ '#'

instance : DecidablePred NoComment := fun cs => inferInstanceAs (Decidable (cs.IsChain _))

variable {cs ds : List Char}

theorem noComment_cons {c : Char} :
    NoComment (c :: cs) ↔ (Blank.isSpace c = true → cs.head? ≠ some '#') ∧ NoComment cs := by
  cases cs with
  | nil => simp [NoComment]
  | cons d cs => simp [NoComment]

theorem noComment_of_not_mem (h : '#' ∉ cs) : NoComment cs := by
  induction cs with
  | nil => exact .nil
  | cons c cs ih =>
      refine noComment_cons.mpr ⟨fun _ hhead => ?_, ih fun hmem => h (List.mem_cons_of_mem c hmem)⟩
      exact h (List.mem_cons_of_mem c (List.mem_of_head? hhead))

/-- Text without a number sign may follow. -/
theorem NoComment.append (h : NoComment cs) (hds : '#' ∉ ds) : NoComment (cs ++ ds) := by
  refine List.IsChain.append h (noComment_of_not_mem hds) fun c _ d hd _ heq => ?_
  exact hds (heq ▸ List.mem_of_head? hd)

/-- Nor is there one behind several spaces. -/
theorem NoComment.head?_dropWhile {c : Char} (h : NoComment (c :: cs))
    (hc : Blank.isSpace c = true) : (cs.dropWhile Blank.isSpace).head? ≠ some '#' := by
  induction cs generalizing c with
  | nil => simp
  | cons d cs ih =>
      obtain ⟨hhead, hrest⟩ := noComment_cons.mp h
      cases hd : Blank.isSpace d with
      | true => simpa [List.dropWhile_cons, hd] using ih hrest hd
      | false => simpa [List.dropWhile_cons, hd] using hhead hc

/-- Where there is no comment, none is dropped. -/
theorem NoComment.dropComment_eq (h : NoComment cs) : dropComment cs = cs := by
  induction cs with
  | nil => rfl
  | cons c cs ih =>
      have hstay : (Blank.isSpace c &&
          (cs.dropWhile Blank.isSpace).head? == some '#') = false := by
        cases hc : Blank.isSpace c with
        | false => rfl
        | true => simpa using h.head?_dropWhile hc
      rw [dropComment, hstay, ih (noComment_cons.mp h).2]
      rfl

/-- A comment is dropped with the spaces that set it off. -/
theorem NoComment.dropComment_append (h : NoComment cs)
    (hlast : ∀ c ∈ cs.getLast?, Blank.isSpace c = false) {spaces : List Char}
    (hspaces : ∀ c ∈ spaces, Blank.isSpace c = true) (hne : spaces ≠ []) (words : List Char) :
    dropComment (cs ++ (spaces ++ '#' :: words)) = cs := by
  induction cs with
  | nil =>
      obtain ⟨c, spaces, rfl⟩ := List.exists_cons_of_ne_nil hne
      obtain ⟨hc, hrest⟩ := List.forall_mem_cons.mp hspaces
      have hsign : (spaces ++ '#' :: words).dropWhile Blank.isSpace = '#' :: words :=
        List.dropWhile_append_of_pos hrest
      simp [dropComment, hc, hsign]
  | cons c cs ih =>
      have hstay : (Blank.isSpace c &&
          ((cs ++ (spaces ++ '#' :: words)).dropWhile Blank.isSpace).head? ==
            some '#') = false := by
        cases hc : Blank.isSpace c with
        | false => rfl
        | true =>
            -- The last character is no space, so there is one between this and the comment.
            have hleft : cs.dropWhile Blank.isSpace ≠ [] := by
              intro hnil
              have hall : ∀ d ∈ c :: cs, Blank.isSpace d = true :=
                List.forall_mem_cons.mpr ⟨hc, List.dropWhile_eq_nil_iff.mp hnil⟩
              have hend := hlast _ (List.getLast?_eq_some_getLast (List.cons_ne_nil c cs))
              rw [hall _ (List.getLast_mem _)] at hend
              contradiction
            have hhead := h.head?_dropWhile hc
            obtain ⟨d, rest, hrest⟩ := List.exists_cons_of_ne_nil hleft
            rw [hrest] at hhead
            simpa [List.dropWhile_append, hrest] using hhead
      have hlast' : ∀ d ∈ cs.getLast?, Blank.isSpace d = false := by
        intro d hd
        refine hlast d ?_
        cases cs with
        | nil => contradiction
        | cons e es => exact (List.getLast?_cons_cons).trans hd
      rw [List.cons_append, dropComment, hstay, ih (noComment_cons.mp h).2 hlast']
      rfl

/-! ## Values between spaces -/

theorem isSpace_of_isGap {c : Char} (h : isGap c = true) : Blank.isSpace c = true :=
  (Bool.and_eq_true_iff.mp h).1

/-- What stands from an equals sign to the end of the line, without quotes. -/
structure Bare where
  before : List Char
  value : List Char
  after : List Char
  /-- The words behind the number sign. -/
  comment : Option (List Char)

namespace Bare

def text (b : Bare) : List Char :=
  b.before ++ b.value ++ b.after ++ b.comment.elim [] ('#' :: ·)

/-- The spaces are spaces, the value begins and ends with other characters, and a
number sign with a space in front is that of the comment. -/
structure WellFormed (b : Bare) : Prop where
  spaces : ∀ c ∈ b.before ++ b.after, isGap c = true
  line : '\n' ∉ b.value ++ b.comment.getD []
  first : ∀ c ∈ b.value.head?, Blank.isSpace c = false ∧ c ≠ '\x27' ∧ c ≠ '\x22'
  last : ∀ c ∈ b.value.getLast?, Blank.isSpace c = false
  noComment : NoComment (b.before ++ b.value)
  comment : b.comment.isSome → b.after ≠ []

instance : DecidablePred WellFormed := fun b =>
  decidable_of_iff ((b.before ++ b.after).all isGap = true ∧
      '\n' ∉ b.value ++ b.comment.getD [] ∧
      b.value.head?.all (fun c => !Blank.isSpace c && c != '\x27' && c != '\x22') = true ∧
      b.value.getLast?.all (fun c => !Blank.isSpace c) = true ∧
      NoComment (b.before ++ b.value) ∧ (b.comment.isSome → b.after ≠ []))
    ⟨fun ⟨h₁, h₂, h₃, h₄, h₅, h₆⟩ => ⟨List.all_eq_true.mp h₁, h₂,
        by simpa [Option.all_eq_true, and_assoc] using h₃, by simpa [Option.all_eq_true] using h₄,
        h₅, h₆⟩,
      fun h => ⟨List.all_eq_true.mpr h.spaces, h.line,
        by simpa [Option.all_eq_true, and_assoc] using h.first,
        by simpa [Option.all_eq_true] using h.last, h.noComment, h.comment⟩⟩

variable {b : Bare}

section WellFormed

variable (h : b.WellFormed)

include h

theorem WellFormed.before_spaces : ∀ c ∈ b.before, Blank.isSpace c = true :=
  fun c hc => isSpace_of_isGap (h.spaces c (List.mem_append_left _ hc))

theorem WellFormed.after_spaces : ∀ c ∈ b.after, Blank.isSpace c = true :=
  fun c hc => isSpace_of_isGap (h.spaces c (List.mem_append_right _ hc))

theorem newline_not_mem_text : '\n' ∉ b.text := by
  have hgap : '\n' ∉ b.before ++ b.after := fun hmem => absurd (h.spaces _ hmem) (by decide)
  have hline := h.line
  cases hcomment : b.comment <;> simp_all [text]

/-- It does not begin with a quote, spaces apart. -/
theorem head?_text : (b.text.dropWhile isGap).head? ∉ [some '\x27', some '\x22'] := by
  have hbefore : ∀ c ∈ b.before, isGap c = true :=
    fun c hc => h.spaces c (List.mem_append_left _ hc)
  have hafter : ∀ c ∈ b.after, isGap c = true :=
    fun c hc => h.spaces c (List.mem_append_right _ hc)
  have hsign : isGap '#' = false := by decide
  rw [text, List.append_assoc, List.append_assoc, List.dropWhile_append_of_pos hbefore]
  cases hvalue : b.value with
  | nil =>
      rw [List.nil_append, List.dropWhile_append_of_pos hafter]
      cases b.comment <;> simp [hsign]
  | cons c rest =>
      obtain ⟨hspace, hquotes⟩ := h.first c (by rw [hvalue]; rfl)
      have hgap : isGap c = false := by rw [isGap, hspace, Bool.false_and]
      simpa [List.dropWhile_cons, hgap] using hquotes

/-- Without its comment, the text has spaces around the value and nothing else. -/
theorem exists_dropComment_text :
    ∃ before after, dropComment b.text = before ++ b.value ++ after ∧
      (∀ c ∈ before, Blank.isSpace c = true) ∧ ∀ c ∈ after, Blank.isSpace c = true := by
  have hbefore := h.before_spaces
  have hafter := h.after_spaces
  cases hcomment : b.comment with
  | none =>
      have hnone : '#' ∉ b.after := fun hmem => absurd (hafter _ hmem) (by decide)
      refine ⟨b.before, b.after, ?_, hbefore, hafter⟩
      rw [text, hcomment, Option.elim_none, List.append_nil,
        (h.noComment.append hnone).dropComment_eq]
  | some words =>
      have hne : b.after ≠ [] := h.comment (by rw [hcomment]; rfl)
      cases hvalue : b.value with
      | nil =>
          -- All spaces stand in front of the comment.
          have hspaces : ∀ c ∈ b.before ++ b.after, Blank.isSpace c = true :=
            fun c hc => isSpace_of_isGap (h.spaces c hc)
          have hnone : NoComment [] := .nil
          have hdrop := hnone.dropComment_append (by simp) hspaces (by simp [hne]) words
          refine ⟨[], [], ?_, List.forall_mem_nil _, List.forall_mem_nil _⟩
          simpa [text, hcomment, hvalue] using hdrop
      | cons c rest =>
          have hlast : ∀ d ∈ (b.before ++ b.value).getLast?, Blank.isSpace d = false := by
            rw [hvalue, List.getLast?_append_cons, ← hvalue]
            exact h.last
          have hdrop := h.noComment.dropComment_append hlast hafter hne words
          refine ⟨b.before, [], ?_, hbefore, List.forall_mem_nil _⟩
          rw [← hvalue, List.append_nil, ← hdrop, text, hcomment, Option.elim_some,
            List.append_assoc (b.before ++ b.value)]

/-- **Nothing but the value is read.** -/
theorem strip_dropComment_text : Blank.strip Blank.isSpace (dropComment b.text) = b.value := by
  obtain ⟨before, after, htext, hbefore, hafter⟩ := exists_dropComment_text h
  rw [htext, Blank.strip_append hbefore (fun c hc => (h.first c hc).1) h.last hafter]

end WellFormed

/-! ## Every text on a line -/

/-- A text has no comment, or one with a space in front. -/
theorem noComment_or_exists (cs : List Char) :
    NoComment cs ∨ ∃ front space words, Blank.isSpace space = true ∧
      cs = front ++ space :: '#' :: words ∧ NoComment front := by
  induction cs with
  | nil => exact .inl .nil
  | cons c cs ih =>
      by_cases hsign : Blank.isSpace c = true ∧ cs.head? = some '#'
      · obtain ⟨words, rfl⟩ := List.head?_eq_some_iff.mp hsign.2
        exact .inr ⟨[], c, words, hsign.1, rfl, .nil⟩
      · rw [not_and] at hsign
        obtain hnone | ⟨front, space, words, hspace, rfl, hfront⟩ := ih
        · exact .inl (noComment_cons.mpr ⟨hsign, hnone⟩)
        · refine .inr ⟨c :: front, space, words, hspace, rfl, noComment_cons.mpr ⟨?_, hfront⟩⟩
          intro hc hhead
          obtain ⟨rest, rfl⟩ := List.head?_eq_some_iff.mp hhead
          exact hsign hc rfl

/-- A text is a value between spaces. -/
theorem exists_between_spaces (cs : List Char) :
    ∃ before value after, cs = before ++ value ++ after ∧
      (∀ c ∈ before ++ after, Blank.isSpace c = true) ∧
      (∀ c ∈ value.head?, Blank.isSpace c = false) ∧
      ∀ c ∈ value.getLast?, Blank.isSpace c = false := by
  let rest := cs.dropWhile Blank.isSpace
  let value := (rest.reverse.dropWhile Blank.isSpace).reverse
  let after := (rest.reverse.takeWhile Blank.isSpace).reverse
  have hrest : value ++ after = cs.dropWhile Blank.isSpace := by
    rw [← List.reverse_append, List.takeWhile_append_dropWhile, List.reverse_reverse]
  refine ⟨cs.takeWhile Blank.isSpace, value, after, ?_, ?_, ?_, ?_⟩
  · rw [List.append_assoc, hrest, List.takeWhile_append_dropWhile]
  · intro c hc
    rw [List.mem_append, List.mem_reverse] at hc
    exact hc.elim List.mem_takeWhile_imp List.mem_takeWhile_imp
  · intro c hc
    have hhead : (cs.dropWhile Blank.isSpace).head? = some c := by
      obtain ⟨more, hmore⟩ := List.head?_eq_some_iff.mp hc
      rw [← hrest, hmore]
      rfl
    have hnot := List.head?_dropWhile_not Blank.isSpace cs
    rw [hhead] at hnot
    exact hnot
  · intro c hc
    rw [List.getLast?_reverse] at hc
    have hnot := List.head?_dropWhile_not Blank.isSpace rest.reverse
    rw [hc] at hnot
    simpa using hnot

theorem isGap_of_isSpace {c : Char} (h : Blank.isSpace c = true) (hline : c ≠ '\n') :
    isGap c = true := by
  simp [isGap, h, hline]

/-- What is the first character behind spaces is that of the value. -/
theorem first_of_head? {before value more : List Char} (hbefore : ∀ c ∈ before, isGap c = true)
    (hfirst : ∀ c ∈ value.head?, Blank.isSpace c = false)
    (hquote : ((before ++ (value ++ more)).dropWhile isGap).head? ∉ [some '\x27', some '\x22']) :
    ∀ c ∈ value.head?, Blank.isSpace c = false ∧ c ≠ '\x27' ∧ c ≠ '\x22' := by
  intro c hc
  obtain ⟨rest, rfl⟩ := List.head?_eq_some_iff.mp hc
  have hspace := hfirst c hc
  have hgap : isGap c = false := by rw [isGap, hspace, Bool.false_and]
  rw [List.dropWhile_append_of_pos hbefore] at hquote
  exact ⟨hspace, by simpa [List.dropWhile_cons, hgap] using hquote⟩

/-- **A text on one line that does not begin with a quote is made up like this.** -/
theorem exists_text_eq {cs : List Char} (hline : '\n' ∉ cs)
    (hquote : (cs.dropWhile isGap).head? ∉ [some '\x27', some '\x22']) :
    ∃ b : Bare, b.WellFormed ∧ b.text = cs := by
  obtain hnone | ⟨front, space, words, hspace, rfl, hfront⟩ := noComment_or_exists cs
  · obtain ⟨before, value, after, rfl, hspaces, hfirst, hlast⟩ := exists_between_spaces cs
    obtain ⟨hbefore, hvalue, hafter⟩ : '\n' ∉ before ∧ '\n' ∉ value ∧ '\n' ∉ after := by
      simpa using hline
    have hgaps : ∀ c ∈ before ++ after, isGap c = true := fun c hc =>
      isGap_of_isSpace (hspaces c hc) fun heq => by simp [heq, hbefore, hafter] at hc
    rw [List.append_assoc] at hquote
    refine ⟨⟨before, value, after, none⟩, ⟨hgaps, by simpa using hvalue, ?_, hlast, ?_, nofun⟩,
      by simp [text]⟩
    · exact first_of_head? (fun c hc => hgaps c (List.mem_append_left _ hc)) hfirst hquote
    · exact List.IsChain.left_of_append hnone
  · obtain ⟨before, value, after, rfl, hspaces, hfirst, hlast⟩ := exists_between_spaces front
    obtain ⟨hbefore, hvalue, hafter, hend, hwords⟩ : '\n' ∉ before ∧ '\n' ∉ value ∧
        '\n' ∉ after ∧ '\n' ≠ space ∧ '\n' ∉ words := by
      simpa using hline
    have hgaps : ∀ c ∈ before ++ (after ++ [space]), isGap c = true := by
      intro c hc
      rw [← List.append_assoc, List.mem_append, List.mem_singleton] at hc
      obtain hc | rfl := hc
      · exact isGap_of_isSpace (hspaces c hc) fun heq => by simp [heq, hbefore, hafter] at hc
      · exact isGap_of_isSpace hspace hend.symm
    have hwhole : before ++ value ++ after ++ space :: '#' :: words =
        before ++ (value ++ (after ++ space :: '#' :: words)) := by
      simp
    rw [hwhole] at hquote
    refine ⟨⟨before, value, after ++ [space], some words⟩,
      ⟨hgaps, by simp [hvalue, hwords], ?_, hlast, ?_, fun _ => by simp⟩, by simp [text]⟩
    · exact first_of_head? (fun c hc => hgaps c (List.mem_append_left _ hc)) hfirst hquote
    · exact List.IsChain.left_of_append hfront

end Bare

end Settings.VariableFile

end Tabletop
