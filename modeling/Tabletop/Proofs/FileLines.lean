import Tabletop.Proofs.BareValues

/-!
# Tabletop.Proofs.FileLines

What is read from a file of variables that is written line by line.

A `Line` is a blank line, a comment, or a name and a value with an equals sign
between them.  The value stands by itself, between spaces and before a comment
(`Bare`), or in quotes, with characters in it that a backslash makes stand for
others (`Letter`).  None of this is said by means of the functions that read it.

* Reading a file that is made of such lines gives the bindings of its lines, in
  order, and nothing else (`readBindings_render`): each piece of a line is read
  off its front, whatever follows, and a line that binds nothing is passed over.
* A binding keeps its value when references are replaced, if there are none in
  it (`Reference.exists_settle_eq_ofList`).
-/

namespace Tabletop.Settings

namespace VariableFile

open Text

/-! ## Lines as they are written -/

/-- The quotes that a value may stand in. -/
inductive Quote where
  | single
  | double

namespace Quote

def mark : Quote → Char
  | single => '\x27'
  | double => '\x22'

/-- The characters that stand for something behind a backslash between the
quotes, and what each stands for. -/
def escapes : Quote → List (Char × Char)
  | single => [('\\', '\\'), ('\x27', '\x27')]
  | double =>
    [('\\', '\\'), ('\x27', '\x27'), ('\x22', '\x22'), ('a', '\x07'), ('b', '\x08'),
      ('f', '\x0c'), ('n', '\n'), ('r', '\r'), ('t', '\t'), ('v', '\x0b')]

/-- What a backslash and a character are read as. -/
def escape? : Quote → Char → Option Char
  | single => singleEscape?
  | double => doubleEscape?

theorem escape?_eq_lookup (q : Quote) (c : Char) : q.escape? c = q.escapes.lookup c := by
  by_cases hc : c ∈ q.escapes.map Prod.fst
  · cases q with
    | single =>
        simp only [escapes, List.map_cons, List.map_nil, List.mem_cons, List.not_mem_nil,
          or_false] at hc
        obtain rfl | rfl := hc <;> rfl
    | double =>
        simp only [escapes, List.map_cons, List.map_nil, List.mem_cons, List.not_mem_nil,
          or_false] at hc
        obtain rfl | rfl | rfl | rfl | rfl | rfl | rfl | rfl | rfl | rfl := hc <;> rfl
  · have hnone : q.escapes.lookup c = none := by
      rw [List.lookup_eq_none_iff]
      intro p hp
      rw [bne_iff_ne]
      rintro rfl
      exact hc (List.mem_map_of_mem hp)
    rw [hnone]
    cases q with
    | single => simpa [escape?, singleEscape?, escapes] using hc
    | double =>
        simp only [escapes, List.map_cons, List.map_nil, List.mem_cons, List.not_mem_nil,
          or_false, not_or] at hc
        simp [escape?, doubleEscape?, hc]

end Quote

/-- A character between quotes, by itself or behind a backslash. -/
inductive Letter where
  | plain (c : Char)
  | escaped (c : Char)

namespace Letter

def text : Letter → List Char
  | plain c => [c]
  | escaped c => ['\\', c]

/-- What the letter stands for. -/
def value (q : Quote) : Letter → List Char
  | plain c => [c]
  | escaped c =>
    match q.escapes.lookup c with
    | some d => [d]
    | none => ['\\', c]

/-- By itself, a character is neither a backslash nor the closing quote. -/
def Allowed (q : Quote) : Letter → Prop
  | plain c => c ≠ '\\' ∧ c ≠ q.mark
  | escaped _ => True

instance (q : Quote) : DecidablePred (Allowed q)
  | plain c => inferInstanceAs (Decidable (c ≠ '\\' ∧ c ≠ q.mark))
  | escaped _ => inferInstanceAs (Decidable True)

end Letter

/-- A value as it is written after an equals sign. -/
inductive Written where
  /-- A value by itself, and all that is left of the line. -/
  | bare (b : Bare)
  /-- Letters between quotes, and what is left of the line after them. -/
  | quoted (q : Quote) (letters : List Letter) (rest : List Char)

namespace Written

def text : Written → List Char
  | bare b => b.text
  | quoted q letters rest => q.mark :: letters.flatMap Letter.text ++ q.mark :: rest

/-- What is written stands for this. -/
def value : Written → List Char
  | bare b => b.value
  | quoted q letters _ => letters.flatMap (Letter.value q)

/-- After a value in quotes there is a comment at most. -/
def WellFormed : Written → Prop
  | bare b => b.WellFormed
  | quoted q letters rest => (∀ l ∈ letters, l.Allowed q) ∧ '\n' ∉ rest ∧
      (rest.dropWhile isGap).head? ∈ [none, some '#']

instance : DecidablePred WellFormed
  | bare b => inferInstanceAs (Decidable b.WellFormed)
  | quoted .. => inferInstanceAs (Decidable (_ ∧ _ ∧ _))

end Written

/-- What stands on a line. -/
inductive Content where
  | blank
  | comment (words : List Char)
  | binding (name : List Char) (value : Written)

namespace Content

def text : Content → List Char
  | blank => []
  | comment words => '#' :: words
  | binding name value => name ++ '=' :: value.text

/-- The variable that is bound, and its value. -/
def binding? : Content → Option Binding
  | binding name value => some (String.ofList name, some (String.ofList value.value))
  | _ => none

def WellFormed : Content → Prop
  | blank => True
  | comment words => '\n' ∉ words
  | binding name value =>
    name ≠ [] ∧ name.all (fun c => c != '=' && c != '#' && !Blank.isSpace c) = true ∧
      name.head? ≠ some '\x27' ∧ value.WellFormed

instance : DecidablePred WellFormed
  | blank => inferInstanceAs (Decidable True)
  | comment _ => inferInstanceAs (Decidable (¬_))
  | binding .. => inferInstanceAs (Decidable (_ ∧ _ ∧ _ ∧ _))

end Content

/-- A line of a file, which may be indented. -/
structure Line where
  indent : List Char
  content : Content

namespace Line

def text (l : Line) : List Char := l.indent ++ l.content.text

def binding? (l : Line) : Option Binding := l.content.binding?

structure WellFormed (l : Line) : Prop where
  indent : l.indent.all isGap = true
  content : l.content.WellFormed

instance : DecidablePred WellFormed := fun l =>
  decidable_of_iff (l.indent.all isGap = true ∧ l.content.WellFormed)
    ⟨fun h => ⟨h.1, h.2⟩, fun h => ⟨h.indent, h.content⟩⟩

end Line

/-- Lines one below the other. -/
def render (ls : List Line) : List Char := ['\n'].intercalate (ls.map Line.text)

/-! ## The end of a line -/

/-- A line ends here, or the text does. -/
def LineEnd (tail : List Char) : Prop := ∀ c ∈ tail.head?, c = '\n'

theorem isGap_newline : isGap '\n' = false := by decide

theorem lineEnd_cases {tail : List Char} (h : LineEnd tail) :
    tail = [] ∨ ∃ more, tail = '\n' :: more := by
  cases tail with
  | nil => exact .inl rfl
  | cons c more => exact .inr ⟨more, by rw [h c rfl]⟩

theorem dropWhile_isGap_lineEnd {tail : List Char} (h : LineEnd tail) :
    tail.dropWhile isGap = tail := by
  obtain rfl | ⟨more, rfl⟩ := lineEnd_cases h
  · rfl
  · rw [List.dropWhile_cons, isGap_newline]
    rfl

theorem takeWhile_append_lineEnd {cs tail : List Char} (hcs : '\n' ∉ cs) (h : LineEnd tail) :
    (cs ++ tail).takeWhile (· != '\n') = cs ∧ (cs ++ tail).dropWhile (· != '\n') = tail := by
  have hall : ∀ c ∈ cs, (c != '\n') = true := fun c hc => by
    simpa using fun heq : c = '\n' => hcs (heq ▸ hc)
  rw [List.takeWhile_append_of_pos hall, List.dropWhile_append_of_pos hall]
  obtain rfl | ⟨more, rfl⟩ := lineEnd_cases h <;> simp

theorem nextLine_append {cs tail : List Char} (hcs : '\n' ∉ cs) (h : LineEnd tail) :
    nextLine (cs ++ tail) = tail.drop 1 := by
  rw [nextLine, (takeWhile_append_lineEnd hcs h).2]

theorem dropWhile_append_lineEnd (cs : List Char) {tail : List Char} (h : LineEnd tail) :
    (cs ++ tail).dropWhile isGap = cs.dropWhile isGap ++ tail := by
  rw [List.dropWhile_append]
  split
  · next hnil => rw [List.isEmpty_iff.mp hnil, dropWhile_isGap_lineEnd h, List.nil_append]
  · rfl

/-- A line ends where nothing but a comment is left on it. -/
theorem endLine?_append {rest tail : List Char} (hrest : '\n' ∉ rest)
    (hcomment : (rest.dropWhile isGap).head? ∈ [none, some '#']) (h : LineEnd tail) :
    endLine? (rest ++ tail) = some (tail.drop 1) := by
  have hsuffix := (List.dropWhile_suffix isGap (l := rest)).subset
  rw [endLine?, dropWhile_append_lineEnd rest h]
  cases hleft : rest.dropWhile isGap with
  | nil =>
      obtain rfl | ⟨more, rfl⟩ := lineEnd_cases h <;> rfl
  | cons c words =>
      rw [hleft] at hcomment hsuffix
      obtain rfl : c = '#' := by simpa using hcomment
      have hwords : '\n' ∉ words := fun hmem => hrest (hsuffix (List.mem_cons_of_mem _ hmem))
      exact congrArg some (nextLine_append hwords h)

/-! ## Values -/

theorem readQuoted?_plain {q : Quote} {c : Char} (h : (Letter.plain c).Allowed q)
    (cs : List Char) :
    readQuoted? q.mark q.escape? (c :: cs) =
      (readQuoted? q.mark q.escape? cs).map fun r => (c :: r.1, r.2) := by
  rw [readQuoted?]
  · rw [if_neg h.2]
  · rintro _ _ ⟨⟩
    exact absurd rfl h.1

theorem readQuoted?_escaped (q : Quote) (c : Char) (cs : List Char) :
    readQuoted? q.mark q.escape? ('\\' :: c :: cs) =
      (readQuoted? q.mark q.escape? cs).map fun r => ((Letter.escaped c).value q ++ r.1, r.2) := by
  rw [readQuoted?, Letter.value, ← Quote.escape?_eq_lookup]
  cases q.escape? c <;> rfl

theorem readQuoted?_mark (q : Quote) (after : List Char) :
    readQuoted? q.mark q.escape? (q.mark :: after) = some ([], after) := by
  rw [readQuoted?]
  · rw [if_pos rfl]
  · cases q <;> nofun

/-- Letters are read one by one, up to the closing quote. -/
theorem readQuoted?_letters {q : Quote} {letters : List Letter}
    (h : ∀ l ∈ letters, l.Allowed q) (after : List Char) :
    readQuoted? q.mark q.escape? (letters.flatMap Letter.text ++ q.mark :: after) =
      some (letters.flatMap (Letter.value q), after) := by
  induction letters with
  | nil => exact readQuoted?_mark q after
  | cons l letters ih =>
      have hrest := ih fun l hl => h l (List.mem_cons_of_mem _ hl)
      rw [List.flatMap_cons, List.append_assoc, List.flatMap_cons]
      cases l with
      | plain c =>
          have hc := readQuoted?_plain (h _ List.mem_cons_self)
            (letters.flatMap Letter.text ++ q.mark :: after)
          rw [hrest] at hc
          exact hc
      | escaped c =>
          have hc := readQuoted?_escaped q c (letters.flatMap Letter.text ++ q.mark :: after)
          rw [hrest] at hc
          exact hc

theorem readValue?_mark (q : Quote) (cs : List Char) :
    readValue? (q.mark :: cs) = readQuoted? q.mark q.escape? cs := by
  cases q <;> rfl

/-- Without a quote at its start, what is left of the line is the value. -/
theorem readValue?_of_no_quote {cs : List Char}
    (h : (cs.dropWhile isGap).head? ∉ [some '\x27', some '\x22']) :
    readValue? cs = some (Blank.strip Blank.isSpace (dropComment (cs.takeWhile (· != '\n'))),
      cs.dropWhile (· != '\n')) := by
  unfold readValue?
  split
  · next hquote => exact absurd (by simp [hquote]) h
  · next hquote => exact absurd (by simp [hquote]) h
  · rfl

theorem readValue?_bare {b : Bare} (hb : b.WellFormed) {tail : List Char} (h : LineEnd tail) :
    readValue? (b.text ++ tail) = some (b.value, tail) := by
  have hhead := Bare.head?_text hb
  have hstart : ((b.text ++ tail).dropWhile isGap).head? ∉ [some '\x27', some '\x22'] := by
    rw [dropWhile_append_lineEnd b.text h]
    cases hleft : b.text.dropWhile isGap with
    | nil => obtain rfl | ⟨more, rfl⟩ := lineEnd_cases h <;> simp
    | cons c rest =>
        rw [hleft] at hhead
        exact hhead
  obtain ⟨htake, hdrop⟩ := takeWhile_append_lineEnd (Bare.newline_not_mem_text hb) h
  rw [readValue?_of_no_quote hstart, htake, hdrop, Bare.strip_dropComment_text hb]

/-- A value is read off its line, and the line ends after it. -/
theorem readValue?_text {w : Written} (hw : w.WellFormed) {tail : List Char} (h : LineEnd tail) :
    ∃ after, readValue? (w.text ++ tail) = some (w.value, after) ∧
      endLine? after = some (tail.drop 1) := by
  cases w with
  | bare b =>
      have hend : endLine? ([] ++ tail) = some (tail.drop 1) :=
        endLine?_append List.not_mem_nil (by simp) h
      exact ⟨tail, readValue?_bare hw h, hend⟩
  | quoted q letters rest =>
      obtain ⟨hletters, hrest, hcomment⟩ := hw
      refine ⟨rest ++ tail, ?_, endLine?_append hrest hcomment h⟩
      have htext : (Written.quoted q letters rest).text ++ tail =
          q.mark :: (letters.flatMap Letter.text ++ q.mark :: (rest ++ tail)) := by
        simp [Written.text]
      rw [htext, readValue?_mark, readQuoted?_letters hletters]
      rfl

/-! ## Bindings -/

/-- What follows the first letters of a name and its equals sign, if they are
others than the equals sign, is a letter of the name or that sign. -/
theorem mem_of_append_eq {name cs word rest : List Char} {c : Char} (hword : '=' ∉ word)
    (h : name ++ '=' :: cs = word ++ c :: rest) : c ∈ name ++ ['='] := by
  rcases List.append_eq_append_iff.mp h with ⟨more, hmore, heq⟩ | ⟨more, hmore, heq⟩
  · cases more with
    | nil =>
        cases heq
        exact List.mem_append_right _ List.mem_cons_self
    | cons d more =>
        cases heq
        exact absurd (hmore ▸ List.mem_append_right _ List.mem_cons_self) hword
  · cases more with
    | nil =>
        cases heq
        exact List.mem_append_right _ List.mem_cons_self
    | cons d more =>
        cases heq
        rw [hmore]
        simp

/-- No name is taken for the word `export` before a name. -/
theorem dropExport_name {name : List Char} (h : ∀ c ∈ name, inName c = true) (cs : List Char) :
    dropExport (name ++ '=' :: cs) = name ++ '=' :: cs := by
  have hgap : ∀ c ∈ name ++ ['='], isGap c = false := by
    intro c hc
    rcases List.mem_append.mp hc with hc | hc
    · have hspace := h c hc
      simp only [inName, Bool.and_eq_true, Bool.not_eq_true'] at hspace
      rw [isGap, hspace.2, Bool.false_and]
    · rw [List.mem_singleton.mp hc]
      decide
  unfold dropExport
  split
  · next c rest heq =>
      have hequals : '=' ∉ "export".toList := by decide
      have hc : c ∈ name ++ ['='] := mem_of_append_eq hequals heq
      rw [hgap c hc]
      exact (if_neg (by simp)).trans heq.symm
  · rfl

/-- A name is read up to the equals sign. -/
theorem readName?_name {name : List Char} (hne : name ≠ []) (hname : ∀ c ∈ name, inName c = true)
    (hquote : name.head? ≠ some '\x27') (cs : List Char) :
    readName? (name ++ '=' :: cs) = some (name, '=' :: cs) := by
  have hequals : inName '=' = false := by decide
  have htake : (name ++ '=' :: cs).takeWhile inName = name := by
    rw [List.takeWhile_append_of_pos hname, List.takeWhile_cons, hequals]
    exact List.append_nil name
  have hdrop : (name ++ '=' :: cs).dropWhile inName = '=' :: cs := by
    rw [List.dropWhile_append_of_pos hname, List.dropWhile_cons, hequals]
    rfl
  obtain ⟨c, name, rfl⟩ := List.exists_cons_of_ne_nil hne
  unfold readName?
  split
  · next heq =>
      cases heq
      exact absurd rfl hquote
  · rw [htake, hdrop]

/-- A binding is read off its line, and the line ends after it. -/
theorem readBinding_binding {name : List Char} {w : Written}
    (h : (Content.binding name w).WellFormed) {tail : List Char} (htail : LineEnd tail) :
    readBinding ((Content.binding name w).text ++ tail) =
      ((Content.binding name w).binding?, tail.drop 1) := by
  obtain ⟨hne, hname, hquote, hw⟩ := h
  rw [List.all_eq_true] at hname
  obtain ⟨after, hvalue, hend⟩ := readValue?_text hw htail
  have htext : (Content.binding name w).text ++ tail = name ++ '=' :: (w.text ++ tail) := by
    simp [Content.text]
  have hgap : ('=' :: (w.text ++ tail)).dropWhile isGap = '=' :: (w.text ++ tail) := rfl
  have hread := readName?_name hne hname hquote (w.text ++ tail)
  rw [htext]
  simp only [readBinding, dropExport_name hname, hread, hgap, hvalue, bindAt, hend]
  rfl

/-- A comment is passed over. -/
theorem readBinding_comment {words : List Char} (h : '\n' ∉ words) {tail : List Char}
    (htail : LineEnd tail) :
    readBinding ((Content.comment words).text ++ tail) = (none, tail.drop 1) := by
  have hexport : dropExport ('#' :: (words ++ tail)) = '#' :: (words ++ tail) := rfl
  have hname : readName? ('#' :: (words ++ tail)) = none := rfl
  have hwords : '\n' ∉ '#' :: words := by simp [h]
  have hnext := nextLine_append hwords htail
  simp only [Content.text, List.cons_append, readBinding, hexport, hname] at hnext ⊢
  rw [hnext]

/-! ## Whole files -/

/-- Bindings are read one after the other, from what is left after the spaces in
front. -/
theorem readBindings_eq (cs : List Char) :
    readBindings cs =
      match cs.dropWhile Blank.isSpace with
      | [] => []
      | c :: start =>
        (readBinding (c :: start)).1.toList ++ readBindings (readBinding (c :: start)).2 := by
  rw [readBindings]
  split
  · next h => rw [h]
  · next h => simp only [h]

theorem readBindings_congr {cs ds : List Char}
    (h : cs.dropWhile Blank.isSpace = ds.dropWhile Blank.isSpace) :
    readBindings cs = readBindings ds := by
  rw [readBindings_eq, readBindings_eq, h]

theorem readBindings_cons {c : Char} (hc : Blank.isSpace c = false) (cs : List Char) :
    readBindings (c :: cs) =
      (readBinding (c :: cs)).1.toList ++ readBindings (readBinding (c :: cs)).2 := by
  rw [readBindings_eq, List.dropWhile_cons, hc]
  rfl

theorem dropWhile_indent {indent : List Char} (h : ∀ c ∈ indent, isGap c = true)
    (cs : List Char) :
    (indent ++ cs).dropWhile Blank.isSpace = cs.dropWhile Blank.isSpace :=
  List.dropWhile_append_of_pos fun c hc => (Bool.and_eq_true_iff.mp (h c hc)).1

/-- A content is read at the start of a text, and the line ends after it. -/
theorem readBindings_content {content : Content} (h : content.WellFormed) {tail : List Char}
    (htail : LineEnd tail) :
    readBindings (content.text ++ tail) =
      content.binding?.toList ++ readBindings (tail.drop 1) := by
  cases content with
  | blank =>
      refine readBindings_congr ?_
      obtain rfl | ⟨more, rfl⟩ := lineEnd_cases htail
      · rfl
      · rfl
  | comment words =>
      have hspace : Blank.isSpace '#' = false := by decide
      have htext : (Content.comment words).text ++ tail = '#' :: (words ++ tail) := rfl
      rw [htext, readBindings_cons hspace, ← htext, readBinding_comment h htail]
      rfl
  | binding name w =>
      have hread := readBinding_binding h htail
      obtain ⟨hne, hname, -, -⟩ := h
      obtain ⟨c, name, rfl⟩ := List.exists_cons_of_ne_nil hne
      have hspace : Blank.isSpace c = false := by
        have hc := List.all_eq_true.mp hname c List.mem_cons_self
        simp only [Bool.and_eq_true, Bool.not_eq_true'] at hc
        exact hc.2
      have htext : (Content.binding (c :: name) w).text ++ tail =
          c :: (name ++ '=' :: w.text ++ tail) := rfl
      rw [htext, readBindings_cons hspace, ← htext, hread]

theorem render_cons (l : Line) (ls : List Line) :
    ∃ tail, render (l :: ls) = l.text ++ tail ∧ LineEnd tail ∧
      readBindings (tail.drop 1) = readBindings (render ls) := by
  cases ls with
  | nil => exact ⟨[], by simp [render], nofun, rfl⟩
  | cons l' ls =>
      refine ⟨'\n' :: render (l' :: ls), ?_, fun c hc => ?_, rfl⟩
      · simp [render, List.intercalate_cons_cons]
      · exact (Option.some.inj hc).symm

/-- **A file of such lines is read line by line.** -/
theorem readBindings_render {ls : List Line} (h : ∀ l ∈ ls, l.WellFormed) :
    readBindings (render ls) = ls.filterMap Line.binding? := by
  induction ls with
  | nil =>
      rw [readBindings_eq]
      rfl
  | cons l ls ih =>
      obtain ⟨hindent, hcontent⟩ := h l List.mem_cons_self
      rw [List.all_eq_true] at hindent
      have hrest := ih fun l hl => h l (List.mem_cons_of_mem _ hl)
      obtain ⟨tail, htext, htail, hmore⟩ := render_cons l ls
      rw [htext, Line.text, List.append_assoc, readBindings_congr (dropWhile_indent hindent _),
        readBindings_content hcontent htail, hmore, hrest, List.filterMap_cons, Line.binding?]
      cases l.content.binding? <;> rfl

end VariableFile

end Tabletop.Settings

/-! ## References -/

namespace Tabletop.Reference

/-- No reference begins anywhere in the text. -/
def Free (cs : List Char) : Prop := ¬['$', '\x7b'] <:+: cs

instance : DecidablePred Free := fun cs => inferInstanceAs (Decidable (¬['$', '\x7b'] <:+: cs))

theorem readReference?_of_free {cs : List Char} (h : Free cs) : readReference? cs = none := by
  unfold readReference?
  split
  · next rest => exact absurd ⟨[], rest, rfl⟩ h
  · rfl

/-- A text without references is left as it is. -/
theorem pieces_of_free {cs : List Char} (h : Free cs) : pieces cs = cs.map .plain := by
  induction cs with
  | nil => rw [pieces]; rfl
  | cons c cs ih =>
      have hcs : Free cs := fun hlater => h (hlater.trans (List.suffix_cons c cs).isInfix)
      rw [pieces]
      split
      · next hread => rw [readReference?_of_free h] at hread; contradiction
      · rw [ih hcs, List.map_cons]

theorem expand_of_free (value? : String → Option String) {text : String} (h : Free text.toList) :
    expand value? text = text := by
  rw [expand, pieces_of_free h, List.flatMap_map]
  simp

/-- Bindings are made one after the other, and those without references keep
their values. -/
theorem exists_settle_eq_ofList (environment : Variables) (bindings : List Binding) :
    ∃ settled : List Binding, settle environment bindings = Entries.ofList (· == ·) settled ∧
      ∀ p : String → Bool, (∀ b ∈ bindings, p b.1 = true → ∀ v ∈ b.2, Free v.toList) →
        settled.filter (fun b => p b.1) = bindings.filter (fun b => p b.1) := by
  unfold settle Entries.ofList Entries.putAll
  generalize ([] : List Binding) = made
  induction bindings generalizing made with
  | nil => exact ⟨[], rfl, fun _ _ => rfl⟩
  | cons b bindings ih =>
      let value := b.2.map (expand (valueOf? made environment))
      obtain ⟨settled, hsettle, hfilter⟩ := ih (Entries.put (· == ·) made b.1 value)
      refine ⟨(b.1, value) :: settled, hsettle, fun p hfree => ?_⟩
      have hrest := hfilter p fun b hb => hfree b (List.mem_cons_of_mem _ hb)
      rw [List.filter_cons, List.filter_cons, hrest]
      split
      · next hp =>
          have hvalue : value = b.2 := by
            refine (Option.map_congr fun v hv => ?_).trans (Option.map_id' (x := b.2))
            exact expand_of_free _ (hfree b List.mem_cons_self hp v hv)
          rw [hvalue]
      · rfl

end Tabletop.Reference
