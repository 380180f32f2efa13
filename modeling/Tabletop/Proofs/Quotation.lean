import Mathlib.Algebra.Group.Nat.Defs
import Tabletop.Text.Quoted

/-!
# Tabletop.Proofs.Quotation

What stands between quotes, one character at a time.

There are four ways to write a character (`Escaped`), and `escaped_escape`
says that it is written in one of them.  What holds of quoted texts is proved
from that by cases, and never by opening `escape` again:

* `Escaped.readChar?_append`: a character is read back, whatever follows it;
* `enclose_append_injective`: where a quoted text stands in front of something
  else, both it and its content are known, so a quoted text has one content;
* `length_ofText_bounds`: no content is shortened, and none becomes more than
  ten times as long, the quotes apart;
* `enclose_of_verbatim`: a content of shown characters stands as it is.
-/

namespace Tabletop.Text.Quoted

/-! ## How a character is written -/

/-- The letters that stand for characters of their own, behind a backslash. -/
def letters : List (Char × Char) := [('n', '\n'), ('r', '\r'), ('t', '\t')]

/-- The letters that announce a code point, and how many digits follow each. -/
def widths : List (Char × Nat) := [('x', 2), ('u', 4), ('U', 8)]

/-- The ways to write a character between quotes. -/
inductive Escaped (shown : Char → Bool) (mark c : Char) : List Char → Prop
  /-- An enclosing quote or a backslash. -/
  | guarded (h : c = mark ∨ c = backslash) : Escaped shown mark c [backslash, c]
  /-- A character that has a letter. -/
  | lettered {letter : Char} (h : (letter, c) ∈ letters) : Escaped shown mark c [backslash, letter]
  /-- A character that is shown. -/
  | verbatim (hmark : c ≠ mark) (hbackslash : c ≠ backslash) (hshown : shown c) :
      Escaped shown mark c [c]
  /-- A character that is not shown, by its code point. -/
  | coded {letter : Char} {width : Nat} (h : (letter, width) ∈ widths)
      (hwidth : c.toNat < 16 ^ width) (hhidden : ¬shown c) :
      Escaped shown mark c (backslash :: letter :: hex width c.toNat)

theorem escaped_codePoint {shown : Char → Bool} {c : Char} (hhidden : ¬shown c) (mark : Char) :
    Escaped shown mark c (codePoint c) := by
  unfold codePoint
  split
  · next h => exact .coded (by decide) h hhidden
  · split
    · next h => exact .coded (by decide) h hhidden
    · exact .coded (by decide) c.val.toNat_lt hhidden

/-- **A character is written in one of the ways listed.** -/
theorem escaped_escape (shown : Char → Bool) (mark c : Char) :
    Escaped shown mark c (escape shown mark c) := by
  unfold escape
  split
  · next h => exact .guarded h
  · next h =>
      rw [not_or] at h
      split
      · next hc => exact .lettered (hc ▸ by decide)
      · split
        · next hc => exact .lettered (hc ▸ by decide)
        · split
          · next hc => exact .lettered (hc ▸ by decide)
          · split
            · next hshown => exact .verbatim h.1 h.2 hshown
            · next hhidden => exact escaped_codePoint hhidden mark

/-! ## Hexadecimal digits -/

/-- The number that a hexadecimal digit stands for. -/
def hexDigit (c : Char) : Nat :=
  if c.isDigit then c.toNat - '0'.toNat else c.toNat - 'a'.toNat + 10

/-- The number that hexadecimal digits stand for. -/
def hexValue (ds : List Char) : Nat := ds.foldl (fun n c => 16 * n + hexDigit c) 0

theorem hexDigit_digitChar : ∀ n < 16, hexDigit (Nat.digitChar n) = n := by decide

theorem length_hex (width n : Nat) : (hex width n).length = width := by
  induction width generalizing n with
  | zero => rfl
  | succ width ih => rw [hex, List.length_append, ih, List.length_singleton]

/-- The digits of a number that they can hold stand for it. -/
theorem hexValue_hex {width n : Nat} (h : n < 16 ^ width) : hexValue (hex width n) = n := by
  induction width generalizing n with
  | zero =>
      have hn : n = 0 := by simpa using h
      rw [hn]
      rfl
  | succ width ih =>
      have hhigh : n / 16 < 16 ^ width := by
        rw [Nat.pow_succ] at h
        omega
      have hlow := hexDigit_digitChar (n % 16) (Nat.mod_lt n (by decide))
      rw [hex, hexValue, List.foldl_append, ← hexValue, ih hhigh]
      simp only [List.foldl_cons, List.foldl_nil, hlow]
      omega

/-! ## Reading back -/

/-- Reads what stands behind a backslash: the character meant, and the rest. -/
def readEscape? : List Char → Option (Char × List Char)
  | [] => none
  | letter :: rest =>
    match widths.lookup letter with
    | some width => some (Char.ofNat (hexValue (rest.take width)), rest.drop width)
    | none => some ((letters.lookup letter).getD letter, rest)

/-- Reads one character of a quoted content, and gives the rest. -/
def readChar? : List Char → Option (Char × List Char)
  | [] => none
  | c :: rest => if c = backslash then readEscape? rest else some (c, rest)

/-- A mark that may enclose a content. -/
def IsQuote (mark : Char) : Prop := mark = singleQuote ∨ mark = doubleQuote

instance (mark : Char) : Decidable (IsQuote mark) := inferInstanceAs (Decidable (_ ∨ _))

theorem isQuote_enclosing (content : List Char) : IsQuote (enclosing content) := by
  unfold enclosing
  split
  · exact .inr rfl
  · exact .inl rfl

theorem IsQuote.ne_backslash {mark : Char} (h : IsQuote mark) : mark ≠ backslash := by
  obtain rfl | rfl := h <;> decide

namespace Escaped

variable {shown : Char → Bool} {mark c d : Char} {cs ds : List Char}

/-- A character is read back, whatever follows it. -/
theorem readChar?_append (h : Escaped shown mark c cs) (hmark : IsQuote mark) (rest : List Char) :
    readChar? (cs ++ rest) = some (c, rest) := by
  cases h with
  | guarded h =>
      obtain rfl | rfl := h
      · obtain rfl | rfl := hmark <;> rfl
      · rfl
  | lettered h =>
      simp only [letters, List.mem_cons, Prod.mk.injEq, List.not_mem_nil, or_false] at h
      obtain ⟨rfl, rfl⟩ | ⟨rfl, rfl⟩ | ⟨rfl, rfl⟩ := h <;> rfl
  | verbatim _ hbackslash _ => exact if_neg hbackslash
  | @coded letter width h hwidth _ =>
      have hlookup : widths.lookup letter = some width := by
        simp only [widths, List.mem_cons, Prod.mk.injEq, List.not_mem_nil, or_false] at h
        obtain ⟨rfl, rfl⟩ | ⟨rfl, rfl⟩ | ⟨rfl, rfl⟩ := h <;> rfl
      have hread : readChar? (backslash :: letter :: hex width c.toNat ++ rest) =
          readEscape? (letter :: (hex width c.toNat ++ rest)) := rfl
      simp only [hread, readEscape?, hlookup, List.take_left' (length_hex width c.toNat),
        List.drop_left' (length_hex width c.toNat), hexValue_hex hwidth, Char.ofNat_toNat]

/-- Two characters that are written alike, whatever follows them, are equal. -/
theorem append_injective (h : Escaped shown mark c cs) (h' : Escaped shown mark d ds)
    (hmark : IsQuote mark) {x y : List Char} (heq : cs ++ x = ds ++ y) : c = d ∧ x = y := by
  have hread := h.readChar?_append hmark x
  rw [heq, h'.readChar?_append hmark y] at hread
  cases hread
  exact ⟨rfl, rfl⟩

/-- No character is written with an enclosing quote in front. -/
theorem ne_mark_cons (h : Escaped shown mark c cs) (hmark : IsQuote mark) (x y : List Char) :
    cs ++ x ≠ mark :: y := by
  intro heq
  cases h with
  | verbatim hne _ _ => exact hne (List.cons.inj heq).1
  | guarded | lettered | coded => exact hmark.ne_backslash (List.cons.inj heq).1.symm

theorem length_pos (h : Escaped shown mark c cs) : 1 ≤ cs.length := by
  cases h <;> simp

theorem length_le (h : Escaped shown mark c cs) : cs.length ≤ 10 := by
  cases h with
  | guarded | lettered | verbatim => simp
  | coded h _ _ =>
      simp only [widths, List.mem_cons, Prod.mk.injEq, List.not_mem_nil, or_false] at h
      obtain ⟨-, rfl⟩ | ⟨-, rfl⟩ | ⟨-, rfl⟩ := h <;> simp [length_hex]

end Escaped

/-- A character that stands for itself between any quotes. -/
def IsVerbatim (shown : Char → Bool) (c : Char) : Prop :=
  ¬IsQuote c ∧ c ≠ backslash ∧ c ∉ letters.map Prod.snd ∧ shown c

instance (shown : Char → Bool) (c : Char) : Decidable (IsVerbatim shown c) :=
  inferInstanceAs (Decidable (_ ∧ _))

theorem Escaped.eq_singleton {shown : Char → Bool} {mark c : Char} {cs : List Char}
    (h : Escaped shown mark c cs) (hmark : IsQuote mark) (hc : IsVerbatim shown c) : cs = [c] := by
  obtain ⟨hquote, hbackslash, hletters, hshown⟩ := hc
  cases h with
  | guarded h =>
      obtain rfl | rfl := h
      · exact absurd hmark hquote
      · exact absurd rfl hbackslash
  | lettered h => exact absurd (List.mem_map_of_mem h) hletters
  | verbatim => rfl
  | coded _ _ hhidden => exact absurd hshown hhidden

/-! ## Whole contents -/

variable {shown : Char → Bool}

/-- A content and what follows its enclosing quote can be told apart. -/
theorem flatMap_escape_injective {mark : Char} (hmark : IsQuote mark) {s t x y : List Char}
    (h : s.flatMap (escape shown mark) ++ mark :: x = t.flatMap (escape shown mark) ++ mark :: y) :
    s = t ∧ x = y := by
  induction s generalizing t with
  | nil =>
      cases t with
      | nil => exact ⟨rfl, (List.cons.inj h).2⟩
      | cons d t =>
          rw [List.flatMap_cons, List.append_assoc] at h
          exact absurd h.symm ((escaped_escape shown mark d).ne_mark_cons hmark _ _)
  | cons c s ih =>
      cases t with
      | nil =>
          rw [List.flatMap_cons, List.append_assoc] at h
          exact absurd h ((escaped_escape shown mark c).ne_mark_cons hmark _ _)
      | cons d t =>
          simp only [List.flatMap_cons, List.append_assoc] at h
          obtain ⟨rfl, hrest⟩ :=
            (escaped_escape shown mark c).append_injective (escaped_escape shown mark d) hmark h
          obtain ⟨rfl, rfl⟩ := ih hrest
          exact ⟨rfl, rfl⟩

/-- **A quoted text ends where it ends.**  What has a quoted text in front has
only one, and that has only one content. -/
theorem enclose_append_injective {s t x y : List Char}
    (h : enclose shown s ++ x = enclose shown t ++ y) : s = t ∧ x = y := by
  simp only [enclose, List.cons_append, List.append_assoc, List.nil_append] at h
  obtain ⟨hmark, hrest⟩ := List.cons.inj h
  rw [← hmark] at hrest
  exact flatMap_escape_injective (isQuote_enclosing s) hrest

/-- No content is shortened, and no character takes more than ten. -/
theorem length_flatMap_escape (shown : Char → Bool) (mark : Char) (content : List Char) :
    content.length ≤ (content.flatMap (escape shown mark)).length ∧
      (content.flatMap (escape shown mark)).length ≤ 10 * content.length := by
  induction content with
  | nil => simp
  | cons c content ih =>
      have hc := escaped_escape shown mark c
      have hpos := hc.length_pos
      have hle := hc.length_le
      rw [List.flatMap_cons, List.length_append, List.length_cons]
      omega

theorem length_ofText_bounds (content : List Char) :
    content.length + 2 ≤ (ofText content).length ∧
      (ofText content).length ≤ 10 * content.length + 2 := by
  have hcontent := length_flatMap_escape Printable.isPrintable (enclosing content) content
  simp only [ofText, enclose, List.length_append, List.length_cons, List.length_nil]
  omega

/-- A content of characters that stand for themselves is written as it is. -/
theorem enclose_of_verbatim {content : List Char} (h : ∀ c ∈ content, IsVerbatim shown c) :
    enclose shown content = singleQuote :: content ++ [singleQuote] := by
  have hcontent : content.flatMap (escape shown singleQuote) = content := by
    induction content with
    | nil => rfl
    | cons c content ih =>
        rw [List.forall_mem_cons] at h
        rw [List.flatMap_cons, ih h.2,
          (escaped_escape shown singleQuote c).eq_singleton (.inl rfl) h.1, List.singleton_append]
  have hquote : singleQuote ∉ content := fun hmem => (h _ hmem).1 (.inl rfl)
  have hmark : enclosing content = singleQuote := by simp [enclosing, hquote]
  simp only [enclose, hmark, hcontent]

end Tabletop.Text.Quoted
