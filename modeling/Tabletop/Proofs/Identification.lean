import Tabletop.Proofs.Fairness
import Tabletop.Proofs.Grammar

/-!
# Tabletop.Proofs.Identification

Which values come to the same when they are offered as notations.

* `ofText_spell`: the canonical spelling of a throw asks for that throw, so
  throws of one spelling are equal.
* `ofText_ne_refuseKind`: what a text comes to is never what another kind of
  value comes to, since no message about a text is one about a kind.
* `ofValue_eq_iff`: texts that are accepted are identified by the canonical
  spelling of what they ask for, texts that are refused only with themselves,
  and other values by their kind and how they are shown.
-/

namespace Tabletop

open Text Notation

/-! ## The canonical spelling -/

namespace Notation.Form

/-- The pieces of the canonical spelling of a throw. -/
def ofThrow (t : Throw) : Form where
  lead := some ⟨Decimal.ofNat t.count, false⟩
  sides := Decimal.ofNat t.sides
  tail := t.modifier.map fun m => (m.sign, Decimal.ofNat m.value)

theorem spell_ofThrow (t : Throw) : (ofThrow t).spell = t.spell := by
  cases hm : t.modifier <;> simp [ofThrow, spell, Throw.spell, separator, Modifier.spell, hm]

theorem wellFormed_ofThrow (t : Throw) : (ofThrow t).WellFormed where
  count_run := by simp [ofThrow, Decimal.isRun_ofNat]
  sides_run := Decimal.isRun_ofNat t.sides
  sides_ne_nil := Decimal.ofNat_ne_nil t.sides
  tail_run := by
    intro p hp
    obtain ⟨m, -, rfl⟩ := Option.map_eq_some_iff.mp hp
    exact Decimal.isRun_ofNat m.value
  tail_ne_nil := by
    intro p hp
    obtain ⟨m, -, rfl⟩ := Option.map_eq_some_iff.mp hp
    exact Decimal.ofNat_ne_nil m.value

theorem countDigits_ofThrow (t : Throw) : (ofThrow t).countDigits = Decimal.ofNat t.count := by
  cases h : Decimal.ofNat t.count with
  | nil => exact absurd h (Decimal.ofNat_ne_nil t.count)
  | cons c cs => simp [countDigits, ofThrow, h]

/-- A number that a part admits is written within bounds. -/
theorem inBounds_ofNat {part : Part} {n : Nat} (h : part.Admits n) :
    InBounds (part, Decimal.ofNat n) := by
  have hshort : Decimal.Fits n := by
    have hn : n ≤ 1000 := by
      cases part <;> exact Nat.le_trans h.2 (by decide)
    have hpower : 10 ^ 4 ≤ 10 ^ Decimal.limit := Nat.pow_le_pow_right (by decide) (by decide)
    rw [Decimal.fits_iff]
    omega
  refine ⟨hshort, ?_⟩
  rw [Decimal.value_ofNat]
  exact h

theorem inBounds_ofThrow (t : Throw) : ∀ p ∈ (ofThrow t).parts, InBounds p := by
  have htail : ∀ p ∈ (ofThrow t).tail.elim [] fun d => [(Part.modifier, d.2)], InBounds p := by
    cases hm : t.modifier with
    | none => simp [ofThrow, hm]
    | some m => simpa [ofThrow, hm] using inBounds_ofNat m.admitted
  rw [parts, countDigits_ofThrow]
  simp only [List.forall_mem_cons]
  exact ⟨inBounds_ofNat t.count_admitted, inBounds_ofNat t.sides_admitted, htail⟩

/-- The pieces of its canonical spelling ask for the throw. -/
theorem asksFor_ofThrow (t : Throw) : (ofThrow t).AsksFor t where
  count := by rw [countDigits_ofThrow, Decimal.value_ofNat]
  sides := by rw [ofThrow, Decimal.value_ofNat]
  modifier := by simp [ofThrow, Function.comp_def, Decimal.value_ofNat]

end Notation.Form

namespace Reading

/-- The canonical spelling of a throw asks for that throw. -/
theorem ofText_spell (t : Throw) : ofText (String.ofList t.spell) = .accepted t := by
  have hspell : (Form.ofThrow t).spell = (String.ofList t.spell).toList := by
    rw [Form.spell_ofThrow, String.toList_ofList]
  obtain ⟨u, hu, hasks⟩ :=
    ofText_of_inBounds (Form.wellFormed_ofThrow t) hspell (Form.inBounds_ofThrow t)
  rw [hu, Form.eq_of_asksFor hasks (Form.asksFor_ofThrow t)]

/-- Throws of one canonical spelling are equal. -/
theorem spell_injective {t u : Throw} (h : t.spell = u.spell) : t = u := by
  have haccepted := ofText_spell t
  rw [h, ofText_spell u] at haccepted
  exact (Reading.accepted.inj haccepted).symm

/-! ## Texts and other values -/

/-- A text is refused for what is wrong with it, never for its kind. -/
theorem rejection_of_refused {s : String} {r : Refusal} (h : ofText s = .refused r) :
    ∃ e : Rejection, r.message = String.ofList (e.message s.toList) ∧
      ∀ kindName, e ≠ .notText kindName := by
  obtain ⟨-, rfl⟩ | ⟨-, -, -, -, -, -, rfl⟩ := refused_cases h <;> exact ⟨_, rfl, by simp⟩

end Reading

/-! ## How messages begin -/

namespace Notation.Rejection

/-- What every message about a rejection of this sort begins with. -/
def opening : Rejection → String
  | notText _ => "Dice notation must be a string, got "
  | malformed => "Invalid dice notation: "
  | outOfBounds part _ => part.label

/-- All that a message can begin with. -/
def openings : List String :=
  ["Dice notation must be a string, got ", "Invalid dice notation: ", Part.count.label,
    Part.sides.label, Part.modifier.label]

theorem opening_mem_openings (e : Rejection) : e.opening ∈ openings := by
  cases e with
  | notText kindName => simp [opening, openings]
  | malformed => simp [opening, openings]
  | outOfBounds part digits => cases part <;> simp [opening, openings]

/-- No opening goes on as another one. -/
theorem eq_of_prefix_of_openings :
    ∀ a ∈ openings, ∀ b ∈ openings, a.toList <+: b.toList → a = b := by
  decide

theorem opening_prefix_message (e : Rejection) (spelling : List Char) :
    e.opening.toList <+: e.message spelling := by
  cases e with
  | notText kindName => exact List.prefix_append _ _
  | malformed => exact List.prefix_append _ _
  | outOfBounds part digits =>
      rw [message_outOfBounds]
      simp only [opening, List.append_assoc, List.prefix_append]

/-- Equal messages are about rejections of one sort. -/
theorem opening_eq_of_message_eq {e e' : Rejection} {spelling spelling' : List Char}
    (h : e.message spelling = e'.message spelling') : e.opening = e'.opening := by
  have he := e.opening_prefix_message spelling
  have he' := e'.opening_prefix_message spelling'
  rw [h] at he
  cases List.prefix_or_prefix_of_prefix he he' with
  | inl hprefix =>
      exact eq_of_prefix_of_openings _ e.opening_mem_openings _ e'.opening_mem_openings hprefix
  | inr hprefix =>
      exact (eq_of_prefix_of_openings _ e'.opening_mem_openings _ e.opening_mem_openings hprefix).symm

theorem eq_notText_of_opening {e : Rejection} {kindName : String}
    (h : e.opening = (notText kindName).opening) : ∃ kindName', e = notText kindName' := by
  cases e with
  | notText kindName' => exact ⟨kindName', rfl⟩
  | malformed => simp [opening] at h
  | outOfBounds part digits => cases part <;> simp [opening, Part.label] at h

end Notation.Rejection

namespace Reading

/-! ## Equal outcomes -/

/-- What a text comes to is never what another kind of value comes to. -/
theorem ofText_ne_refuseKind (s kindName : String) (shown : List Char) :
    ofText s ≠ .refused (refuseKind kindName shown) := by
  intro h
  obtain ⟨e, hmessage, hsort⟩ := rejection_of_refused h
  have hopening := Rejection.opening_eq_of_message_eq (String.ofList_injective hmessage)
  obtain ⟨kindName', rfl⟩ := Rejection.eq_notText_of_opening hopening.symm
  exact hsort kindName' rfl

/-- Texts come to the same if they ask for one throw, or are equal. -/
theorem ofText_eq_iff (s u : String) :
    ofText s = ofText u ↔
      (∃ t q, ofText s = .accepted t ∧ ofText u = .accepted q ∧ t.spell = q.spell) ∨ s = u := by
  constructor
  · intro h
    cases hs : ofText s with
    | accepted t => exact .inl ⟨t, t, rfl, h ▸ hs, rfl⟩
    | refused r =>
        have hu : ofText u = .refused r := h ▸ hs
        exact .inr ((spelling_of_refused hs).symm.trans (spelling_of_refused hu))
  · rintro (⟨t, q, ht, hq, hspell⟩ | rfl)
    · rw [ht, hq, spell_injective hspell]
    · rfl

/-- Values of other kinds come to the same if they are of one kind and look
the same. -/
theorem refuseKind_eq_iff (kindName kindName' : String) (shown shown' : List Char) :
    refuseKind kindName shown = refuseKind kindName' shown' ↔
      kindName = kindName' ∧ shown = shown' := by
  constructor
  · intro h
    have hshown : shown = shown' := String.ofList_injective (congrArg Refusal.spelling h)
    have hmessage := String.ofList_injective (congrArg Refusal.message h)
    exact ⟨String.toList_injective (List.append_cancel_left hmessage), hshown⟩
  · rintro ⟨rfl, rfl⟩
    rfl

theorem ofValue_of_not_text {v : Value} (hv : ∀ s, v ≠ .text s) {shown : List Char}
    (h : v.display? = some shown) : ofValue v = .ok (.refused (refuseKind v.kindName shown)) := by
  have hliteral : v.literal? = some shown := by
    cases v with
    | text s => exact absurd rfl (hv s)
    | _ => exact h
  rw [ofValue_of_ne_text hv, hliteral]

/-- **What comes to the same.**  The canonical spelling of a throw asks for that
throw.  Values that can be shown are read, and two of them come to the same
exactly if both are texts that ask for throws of one canonical spelling, or both
are texts and equal, or neither is a text and they are of one kind and look the
same. -/
theorem ofValue_eq_iff :
    (∀ t : Throw, ofText (String.ofList t.spell) = .accepted t) ∧
    ∀ a b : Value, a.display?.isSome → b.display?.isSome →
      ∃ ra rb, ofValue a = .ok ra ∧ ofValue b = .ok rb ∧
        (ra = rb ↔
          (∃ s u t q, a = .text s ∧ b = .text u ∧ ofText s = .accepted t ∧
            ofText u = .accepted q ∧ t.spell = q.spell) ∨
          (∃ s u, a = .text s ∧ b = .text u ∧ s = u) ∨
          ((∀ s, a ≠ .text s) ∧ (∀ s, b ≠ .text s) ∧ a.kindName = b.kindName ∧
            a.display? = b.display?)) := by
  refine ⟨ofText_spell, fun a b ha hb => ?_⟩
  obtain ⟨shown, hshown⟩ := Option.isSome_iff_exists.mp ha
  obtain ⟨shown', hshown'⟩ := Option.isSome_iff_exists.mp hb
  by_cases hta : ∃ s, a = .text s
  · obtain ⟨s, rfl⟩ := hta
    by_cases htb : ∃ u, b = .text u
    · obtain ⟨u, rfl⟩ := htb
      refine ⟨ofText s, ofText u, rfl, rfl, (ofText_eq_iff s u).trans ⟨?_, ?_⟩⟩
      · rintro (⟨t, q, ht, hq, hspell⟩ | heq)
        · exact .inl ⟨s, u, t, q, rfl, rfl, ht, hq, hspell⟩
        · exact .inr (.inl ⟨s, u, rfl, rfl, heq⟩)
      · rintro (⟨s', u', t, q, ⟨⟩, ⟨⟩, ht, hq, hspell⟩ | ⟨s', u', ⟨⟩, ⟨⟩, heq⟩ | ⟨hs, -⟩)
        · exact .inl ⟨t, q, ht, hq, hspell⟩
        · exact .inr heq
        · exact absurd rfl (hs s)
    · have hb : ∀ u, b ≠ .text u := fun u hu => htb ⟨u, hu⟩
      refine ⟨_, _, rfl, ofValue_of_not_text hb hshown', ?_⟩
      simp [ofText_ne_refuseKind, hb]
  · have ha : ∀ s, a ≠ .text s := fun s hs => hta ⟨s, hs⟩
    by_cases htb : ∃ u, b = .text u
    · obtain ⟨u, rfl⟩ := htb
      refine ⟨_, _, ofValue_of_not_text ha hshown, rfl, ?_⟩
      simp [(ofText_ne_refuseKind _ _ _).symm, ha]
    · have hb : ∀ u, b ≠ .text u := fun u hu => htb ⟨u, hu⟩
      refine ⟨_, _, ofValue_of_not_text ha hshown, ofValue_of_not_text hb hshown', ?_⟩
      simp [refuseKind_eq_iff, ha, hb, hshown, hshown']

/-- A short spelling and a long one come to the same; a text that is refused
and a value of another kind that looks the same do not. -/
theorem ofValue_eq_iff_of_lookalikes :
    ((Value.text "d6").display?.isSome ∧ (Value.text "01D06").display?.isSome ∧
      ∃ r, ofValue (.text "d6") = .ok r ∧ ofValue (.text "01D06") = .ok r) ∧
    ((Value.text "None").display?.isSome ∧ Value.null.display?.isSome ∧
      ∃ ra rb, ofValue (.text "None") = .ok ra ∧ ofValue .null = .ok rb ∧ ra ≠ rb) := by
  constructor
  · refine ⟨rfl, rfl, ?_⟩
    obtain ⟨ra, rb, ha, hb, hiff⟩ := ofValue_eq_iff.2 (.text "d6") (.text "01D06") rfl rfl
    let t : Throw := ⟨1, 6, none, by decide, by decide⟩
    have hsame : ra = rb :=
      hiff.mpr (.inl ⟨"d6", "01D06", t, t, rfl, rfl, by decide, by decide, rfl⟩)
    exact ⟨ra, ha, hsame ▸ hb⟩
  · refine ⟨rfl, rfl, ?_⟩
    obtain ⟨ra, rb, ha, hb, hiff⟩ := ofValue_eq_iff.2 (.text "None") .null rfl rfl
    refine ⟨ra, rb, ha, hb, fun hsame => ?_⟩
    rcases hiff.mp hsame with ⟨s, u, t, q, -, hnull, -⟩ | ⟨s, u, -, hnull, -⟩ | ⟨htext, -⟩
    · contradiction
    · contradiction
    · exact htext "None" rfl

/-- Spellings of one throw, and throws that differ in a modifier of zero. -/
example :
    ofText "d6" = ofText "1d6" ∧ ofText "D6" = ofText "6" ∧ ofText "6" = ofText "01d06" ∧
      ofText "1d6" ≠ ofText "1d6+0" ∧ ofText "1d6+0" ≠ ofText "1d6-0" ∧
      ofText "1d6-0" ≠ ofText "1d6" := by
  decide

end Reading

end Tabletop
