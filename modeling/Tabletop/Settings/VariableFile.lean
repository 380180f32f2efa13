import Tabletop.Settings.Variables
import Tabletop.Text.Blank

/-!
# Tabletop.Settings.VariableFile

Files of variables, one `NAME=value` on a line.

1. Blank lines and lines that start with `#` say nothing.
2. Spaces around the name and around the value do not count, the word
   `export` may stand before the name, and the name may be enclosed in single
   quotes.
3. A value may be enclosed in single or double quotes, and may then run over
   several lines.  Between single quotes a backslash escapes the single
   quote and itself; between double quotes it also escapes the double quote
   and the letters of control characters.
4. In a value that is not quoted, a space and `#` start a comment; after a
   closing quote nothing but a comment may stand.
5. A name without an equals sign names a variable that has no value.
6. A line of any other shape is passed over.
7. Of several values for one name the last counts, in the place of the first.
8. References in a value are replaced, whatever the quotes around it.
9. A byte order mark at the start of the file does not count.
-/

namespace Tabletop.Settings.VariableFile

open Text

/-! ## Lines -/

/-- The text without a byte order mark in front. -/
def dropMark : List Char → List Char
  | '\ufeff' :: rest => rest
  | cs => cs

/-- The text with a line feed wherever a line ends, be it by a line feed, by
a carriage return or by both. -/
def unifyLineEnds : List Char → List Char
  | [] => []
  | '\r' :: '\n' :: rest => '\n' :: unifyLineEnds rest
  | c :: rest => (if c = '\r' then '\n' else c) :: unifyLineEnds rest

/-- Whether a character is a space within a line. -/
def isGap (c : Char) : Bool := Blank.isSpace c && c != '\n'

/-- The text after the current line. -/
def nextLine (cs : List Char) : List Char := (cs.dropWhile (· != '\n')).drop 1

theorem length_nextLine_le (cs : List Char) : (nextLine cs).length ≤ cs.length - 1 := by
  have := (List.dropWhile_suffix (· != '\n') (l := cs)).length_le
  rw [nextLine, List.length_drop]
  omega

/-- The text after the current line, unless more than a comment is left on it. -/
def endLine? (cs : List Char) : Option (List Char) :=
  match cs.dropWhile isGap with
  | [] => some []
  | '\n' :: rest => some rest
  | '#' :: rest => some (nextLine rest)
  | _ => none

theorem length_endLine?_le {cs rest : List Char} (h : endLine? cs = some rest) :
    rest.length ≤ cs.length := by
  have hgap := (List.dropWhile_suffix isGap (l := cs)).length_le
  unfold endLine? at h
  split at h
  · cases h
    exact Nat.zero_le _
  · rename_i hrest
    rw [hrest, List.length_cons] at hgap
    cases h
    omega
  · rename_i hrest
    rw [hrest, List.length_cons] at hgap
    cases h
    exact Nat.le_trans (length_nextLine_le _) (by omega)
  · contradiction

/-! ## Values -/

/-- What a backslash and a character stand for between single quotes. -/
def singleEscape? (c : Char) : Option Char :=
  if c = '\\' ∨ c = '\x27' then some c else none

/-- What a backslash and a character stand for between double quotes. -/
def doubleEscape? : Char → Option Char
  | 'a' => some '\x07'
  | 'b' => some '\x08'
  | 'f' => some '\x0c'
  | 'n' => some '\n'
  | 'r' => some '\r'
  | 't' => some '\t'
  | 'v' => some '\x0b'
  | c => if c = '\\' ∨ c = '\x27' ∨ c = '\x22' then some c else none

/-- Reads up to the closing quote `mark`, and gives the text after it. -/
def readQuoted? (mark : Char) (escape? : Char → Option Char) :
    List Char → Option (List Char × List Char)
  | [] => none
  | '\\' :: c :: rest =>
    (readQuoted? mark escape? rest).map fun (cs, after) =>
      (match escape? c with
        | some d => d :: cs
        | none => '\\' :: c :: cs, after)
  | c :: rest =>
    if c = mark then some ([], rest)
    else (readQuoted? mark escape? rest).map fun (cs, after) => (c :: cs, after)

theorem length_readQuoted?_le {mark : Char} {escape? : Char → Option Char}
    {cs value after : List Char} (h : readQuoted? mark escape? cs = some (value, after)) :
    after.length ≤ cs.length := by
  fun_induction readQuoted? mark escape? cs generalizing value with
  | case1 => contradiction
  | case2 c rest ih =>
    obtain ⟨p, hp, heq⟩ := Option.map_eq_some_iff.mp h
    cases heq
    exact Nat.le_trans (ih hp) (by simp only [List.length_cons]; omega)
  | case3 =>
    cases h
    exact Nat.le_succ _
  | case4 c rest _ _ ih =>
    obtain ⟨p, hp, heq⟩ := Option.map_eq_some_iff.mp h
    cases heq
    exact Nat.le_succ_of_le (ih hp)

/-- The part of a line before a comment that is set off by a space. -/
def dropComment : List Char → List Char
  | [] => []
  | c :: rest =>
    if Blank.isSpace c && (rest.dropWhile Blank.isSpace).head? == some '#' then []
    else c :: dropComment rest

/-- Reads the value that follows an equals sign, and gives the text after it. -/
def readValue? (cs : List Char) : Option (List Char × List Char) :=
  match cs.dropWhile isGap with
  | '\x27' :: rest => readQuoted? '\x27' singleEscape? rest
  | '\x22' :: rest => readQuoted? '\x22' doubleEscape? rest
  | _ => some (Blank.strip Blank.isSpace (dropComment (cs.takeWhile (· != '\n'))),
      cs.dropWhile (· != '\n'))

theorem length_readValue?_le {cs value after : List Char}
    (h : readValue? cs = some (value, after)) : after.length ≤ cs.length := by
  have hgap := (List.dropWhile_suffix isGap (l := cs)).length_le
  unfold readValue? at h
  split at h
  · rename_i hrest
    rw [hrest, List.length_cons] at hgap
    have := length_readQuoted?_le h
    omega
  · rename_i hrest
    rw [hrest, List.length_cons] at hgap
    have := length_readQuoted?_le h
    omega
  · cases h
    exact (List.dropWhile_suffix _).length_le

/-! ## Bindings -/

/-- A line without the word `export` and the spaces after it. -/
def dropExport : List Char → List Char
  | 'e' :: 'x' :: 'p' :: 'o' :: 'r' :: 't' :: c :: rest =>
    if isGap c then rest.dropWhile isGap
    else 'e' :: 'x' :: 'p' :: 'o' :: 'r' :: 't' :: c :: rest
  | cs => cs

theorem length_dropExport_le (cs : List Char) : (dropExport cs).length ≤ cs.length := by
  unfold dropExport
  split
  · rename_i rest
    have := (List.dropWhile_suffix isGap (l := rest)).length_le
    split
    · simp only [List.length_cons]
      omega
    · exact Nat.le_refl _
  · exact Nat.le_refl _

/-- Whether a character may stand in a name. -/
def inName (c : Char) : Bool := c != '=' && c != '#' && !Blank.isSpace c

/-- Reads a name, and gives the text after it. -/
def readName? (cs : List Char) : Option (List Char × List Char) :=
  match cs with
  | '\x27' :: quoted =>
    match quoted.takeWhile (· != '\x27'), quoted.dropWhile (· != '\x27') with
    | c :: name, _ :: after => some (c :: name, after)
    | _, _ => none
  | _ =>
    match cs.takeWhile inName with
    | [] => none
    | c :: name => some (c :: name, cs.dropWhile inName)

theorem length_lt_of_readName? {cs name after : List Char}
    (h : readName? cs = some (name, after)) : after.length < cs.length := by
  unfold readName? at h
  split at h
  · rename_i quoted
    have hname := (List.dropWhile_suffix (· != '\x27') (l := quoted)).length_le
    split at h
    · rename_i hafter
      rw [hafter, List.length_cons] at hname
      cases h
      simp only [List.length_cons]
      omega
    · contradiction
  · split at h
    · contradiction
    · rename_i hname
      have hlen := congrArg List.length (List.takeWhile_append_dropWhile (p := inName) (l := cs))
      rw [hname, List.length_append, List.length_cons] at hlen
      cases h
      omega

/-- A binding with the text after its line, unless more is left on the line. -/
def bindAt (name : List Char) (value : Option (List Char)) (after : List Char) :
    Option Binding × List Char :=
  match endLine? after with
  | some next => (some (String.ofList name, value.map String.ofList), next)
  | none => (none, nextLine after)

theorem length_bindAt_le (name : List Char) (value : Option (List Char)) (after : List Char) :
    (bindAt name value after).2.length ≤ after.length := by
  unfold bindAt
  split
  · rename_i hnext
    exact length_endLine?_le hnext
  · exact Nat.le_trans (length_nextLine_le after) (Nat.sub_le _ _)

/-- Reads the binding that a text starts with, and gives the text after its
line. -/
def readBinding (cs : List Char) : Option Binding × List Char :=
  match readName? (dropExport cs) with
  | none => (none, nextLine (dropExport cs))
  | some (name, rest) =>
    match rest.dropWhile isGap with
    | '=' :: start =>
      match readValue? start with
      | some (value, after) => bindAt name (some value) after
      | none => (none, nextLine start)
    | after => bindAt name none after

/-- What follows a line is shorter than what it starts. -/
theorem length_readBinding_lt {cs : List Char} (h : cs ≠ []) :
    (readBinding cs).2.length < cs.length := by
  have hpos := List.length_pos_iff.mpr h
  have hline := length_dropExport_le cs
  unfold readBinding
  split
  · have := length_nextLine_le (dropExport cs)
    simp only
    omega
  · rename_i name rest hname
    have hrest := length_lt_of_readName? hname
    have hgap := (List.dropWhile_suffix isGap (l := rest)).length_le
    split
    · rename_i start hstart
      rw [hstart, List.length_cons] at hgap
      split
      · rename_i value after hvalue
        have hvalue := length_readValue?_le hvalue
        have := length_bindAt_le name (some value) after
        omega
      · have := length_nextLine_le start
        simp only
        omega
    · have := length_bindAt_le name none (rest.dropWhile isGap)
      omega

/-- Reads binding after binding. -/
def readBindings (cs : List Char) : List Binding :=
  match h : cs.dropWhile Blank.isSpace with
  | [] => []
  | c :: start =>
    have : (readBinding (c :: start)).2.length < cs.length :=
      Nat.lt_of_lt_of_le (length_readBinding_lt (List.cons_ne_nil c start))
        (h ▸ (List.dropWhile_suffix Blank.isSpace).length_le)
    (readBinding (c :: start)).1.toList ++ readBindings (readBinding (c :: start)).2
termination_by cs.length

/-- The variables of a file, in an environment that it may refer to. -/
def read (environment : Variables) (text : String) : List Binding :=
  Reference.settle environment (readBindings (unifyLineEnds (dropMark text.toList)))

end Tabletop.Settings.VariableFile
