import Tabletop.Entries

/-!
# Tabletop.Settings.Variables

Variables and the references to them that a text may hold.

1. `${NAME}` stands for the value of the variable, and for nothing if there
   is no such variable.
2. `${NAME:-TEXT}` stands for the value of the variable, and for `TEXT` if
   there is no such variable.  `TEXT` is taken as it stands.
3. A name ends at a colon or a closing brace, `TEXT` at a closing brace.
   What is not complete is no reference.
-/

namespace Tabletop

/-- Environment variables and their values. -/
abbrev Variables := List (String × String)

/-- Gives variables values, one after the other. -/
def Variables.putAll (vs new : Variables) : Variables := Entries.putAll (· == ·) vs new

/-- A variable and its value, if it has one. -/
abbrev Binding := String × Option String

namespace Reference

/-- A piece of a text: a character, or a reference to a variable with the
text that takes its place where there is none. -/
inductive Piece where
  | plain (c : Char)
  | variable (name : List Char) (fallback : List Char)
  deriving DecidableEq

/-- Whether a character may stand in the name of a reference. -/
def inName (c : Char) : Bool := c != ':' && c != '\x7d'

/-- Reads the reference that a text starts with, and gives the text after it. -/
def readReference? : List Char → Option (Piece × List Char)
  | '$' :: '\x7b' :: cs =>
    match cs.dropWhile inName with
    | '\x7d' :: rest => some (.variable (cs.takeWhile inName) [], rest)
    | ':' :: '-' :: more =>
      match more.dropWhile (· != '\x7d') with
      | _ :: rest =>
        some (.variable (cs.takeWhile inName) (more.takeWhile (· != '\x7d')), rest)
      | [] => none
    | _ => none
  | _ => none

/-- What follows a reference is shorter than what it starts. -/
theorem length_lt_of_readReference? {cs rest : List Char} {piece : Piece}
    (h : readReference? cs = some (piece, rest)) : rest.length < cs.length := by
  unfold readReference? at h
  split at h
  · rename_i cs
    have hname := (List.dropWhile_suffix inName (l := cs)).length_le
    split at h
    · rename_i hrest
      rw [hrest] at hname
      cases h
      simp only [List.length_cons] at hname ⊢
      omega
    · rename_i more hrest
      rw [hrest] at hname
      have hmore := (List.dropWhile_suffix (· != '\x7d') (l := more)).length_le
      split at h
      · rename_i hafter
        rw [hafter] at hmore
        cases h
        simp only [List.length_cons] at hname hmore ⊢
        omega
      · contradiction
    · contradiction
  · contradiction

/-- The pieces of a text. -/
def pieces (cs : List Char) : List Piece :=
  match cs with
  | [] => []
  | c :: rest =>
    match h : readReference? (c :: rest) with
    | some (piece, after) =>
      have : after.length < rest.length + 1 := length_lt_of_readReference? h
      piece :: pieces after
    | none => .plain c :: pieces rest
termination_by cs.length

/-- A text with the references in it replaced. -/
def expand (value? : String → Option String) (text : String) : String :=
  String.ofList <| (pieces text.toList).flatMap fun
    | .plain c => [c]
    | .variable name fallback => ((value? (String.ofList name)).map String.toList).getD fallback

/-- The value of a variable where references are replaced: that of the
bindings made so far or, failing that, that of the environment.  A variable
that is bound to no value is empty. -/
def valueOf? (bindings : List Binding) (environment : Variables) (name : String) : Option String :=
  match bindings.lookup name with
  | some value => some (value.getD "")
  | none => environment.lookup name

/-- The variables that bindings make one after the other, where the value of
each may refer to the environment and to the bindings before it. -/
def settle (environment : Variables) (bindings : List Binding) : List Binding :=
  bindings.foldl
    (fun made b => Entries.put (· == ·) made b.1 (b.2.map (expand (valueOf? made environment)))) []

end Reference

end Tabletop
