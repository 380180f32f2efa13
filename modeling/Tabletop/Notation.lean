import Tabletop.Throw
import Tabletop.Text.Quoted

/-!
# Tabletop.Notation

Dice notation: `XdY`, `XdY+Z` and `XdY-Z`, where a missing `X` means one die
and a bare `Y` means one die of `Y` sides.

1. A notation is well formed when the whole of it splits into a `Form`: a
   lead (digits, possibly none, and the letter `d` of either case), the
   digits of the sides, and a tail (a sign and digits).  Lead and tail may
   be missing; nothing else may stand anywhere, blanks included.
2. The numbers of a well-formed notation are checked against the bounds of
   `Part` in the order count, sides, modifier.  A run of digits longer than
   `Decimal.limit` is out of bounds whatever it stands for.
3. A notation that fails is turned down with a `Rejection`, which says what
   is wrong; `Rejection.message` words it.
-/

namespace Tabletop

open Text

namespace Notation

/-! ## Well-formed notations -/

/-- The digits before the letter that separates count and sides, and whether
that letter is a capital. -/
structure Lead where
  count : List Char
  capital : Bool
  deriving DecidableEq

/-- The pieces of a well-formed notation, as they are written. -/
structure Form where
  lead : Option Lead
  sides : List Char
  tail : Option (Sign × List Char)
  deriving DecidableEq

/-- The letter between count and sides. -/
def separator (capital : Bool) : Char := if capital then 'D' else 'd'

namespace Form

/-- The notation made of the pieces. -/
def spell (f : Form) : List Char :=
  f.lead.elim [] (fun l => l.count ++ [separator l.capital]) ++ f.sides ++
    f.tail.elim [] fun (g, ds) => g.symbol :: ds

/-- The pieces hold digits where digits belong, and at least one digit for
the sides and for a modifier. -/
structure WellFormed (f : Form) : Prop where
  count_run : ∀ l ∈ f.lead, Decimal.IsRun l.count
  sides_run : Decimal.IsRun f.sides
  sides_ne_nil : f.sides ≠ []
  tail_run : ∀ t ∈ f.tail, Decimal.IsRun t.2
  tail_ne_nil : ∀ t ∈ f.tail, t.2 ≠ []

/-- Splits off the lead of a notation, if it has one. -/
def splitLead (cs : List Char) : Option Lead × List Char :=
  let count := cs.takeWhile Char.isDigit
  match cs.dropWhile Char.isDigit with
  | 'd' :: rest => (some ⟨count, false⟩, rest)
  | 'D' :: rest => (some ⟨count, true⟩, rest)
  | _ => (none, cs)

/-- Reads what follows the sides; `none` when it is neither empty nor a sign
and digits. -/
def readTail? : List Char → Option (Option (Sign × List Char))
  | [] => some none
  | c :: ds =>
    if ds ≠ [] ∧ Decimal.IsRun ds then (Sign.ofSymbol? c).map fun g => some (g, ds) else none

/-- The pieces of a notation, if it is well formed. -/
def split? (cs : List Char) : Option Form :=
  let (lead, rest) := splitLead cs
  let sides := rest.takeWhile Char.isDigit
  if sides = [] then none
  else (readTail? (rest.dropWhile Char.isDigit)).map fun tail => ⟨lead, sides, tail⟩

/-- The digits of the count; `1` when they are missing or empty. -/
def countDigits (f : Form) : List Char :=
  match f.lead with
  | some ⟨c :: ds, _⟩ => c :: ds
  | _ => ['1']

end Form

/-! ## Rejections -/

/-- Why something offered as a notation was turned down. -/
inductive Rejection where
  /-- It is not a text but a value of the kind named. -/
  | notText (kindName : String)
  /-- It is not well formed. -/
  | malformed
  /-- The digits written for a part are out of its bounds. -/
  | outOfBounds (part : Part) (digits : List Char)
  deriving DecidableEq

/-- The first `most` characters of a text, followed by three dots if there
are more. -/
def abbreviate (most : Nat) (cs : List Char) : List Char :=
  if cs.length ≤ most then cs else cs.take most ++ ['.', '.', '.']

/-- Digits longer than this are abbreviated in messages. -/
def shownDigits : Nat := 12

/-- Notations longer than this are abbreviated when a number is out of bounds. -/
def shownNotation : Nat := 40

/-- The wording of a rejection of `spelling`. -/
def Rejection.message (spelling : List Char) : Rejection → List Char
  | notText kindName => "Dice notation must be a string, got ".toList ++ kindName.toList
  | malformed => "Invalid dice notation: ".toList ++ Quoted.ofText spelling
  | outOfBounds part digits =>
    part.label.toList ++ " must be between ".toList ++ Decimal.ofNat part.lowest ++
      " and ".toList ++ Decimal.ofNat part.highest ++ ", got ".toList ++
      abbreviate shownDigits digits ++ " in ".toList ++
      Quoted.ofText (abbreviate shownNotation spelling)

/-! ## Reading -/

/-- The number that digits stand for, if the part admits it. -/
def readPart (part : Part) (digits : List Char) :
    Except Rejection { n : Nat // part.Admits n } :=
  match Decimal.value? digits with
  | some n => if h : part.Admits n then .ok ⟨n, h⟩ else .error (.outOfBounds part digits)
  | none => .error (.outOfBounds part digits)

/-- The throw that the pieces of a notation ask for. -/
def Form.toThrow (f : Form) : Except Rejection Throw := do
  let count ← readPart .count f.countDigits
  let sides ← readPart .sides f.sides
  match f.tail with
  | none => return ⟨count, sides, none, count.2, sides.2⟩
  | some (sign, digits) =>
    let value ← readPart .modifier digits
    return ⟨count, sides, some ⟨sign, value, value.2⟩, count.2, sides.2⟩

/-- The throw that a notation asks for, or why it is turned down. -/
def read (cs : List Char) : Except Rejection Throw :=
  match Form.split? cs with
  | some f => f.toThrow
  | none => .error .malformed

end Notation

end Tabletop
