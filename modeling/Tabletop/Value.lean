import Tabletop.Entries
import Tabletop.Floating
import Tabletop.Text.Decimal
import Tabletop.Text.Quoted

/-!
# Tabletop.Value

The values a caller may pass where a notation, a field or a setting is
expected.  Nothing about them is checked beforehand, so every reader in this
library starts from a `Value` and says itself what it accepts.

* `kindName` names the kind of a value in messages.
* `literal?` is the value as it would be written down; it is refused when an
  integer anywhere in the value has more than `Decimal.limit` digits.  A value
  may be nested to any depth, and no depth is too great for writing it down: a
  writer that gives up at some depth is followed up to that depth only.
* `display?` is the same, except that a text stands for itself.
* `elements?` are the values met by going through a value one by one.
* `same` says which values count as one, as the keys of a dictionary do:
  numbers and truth values by what they amount to, others by what they hold.
-/

namespace Tabletop

open Text

inductive Value where
  | null
  | bool (b : Bool)
  | int (n : Int)
  | float (x : Floating)
  | text (s : String)
  | bytes (content : List UInt8)
  | list (items : List Value)
  | tuple (items : List Value)
  | dict (entries : List (Value × Value))

namespace Value

/-- The name of a value's kind. -/
def kindName : Value → String
  | null => "NoneType"
  | bool _ => "bool"
  | int _ => "int"
  | float _ => "float"
  | text _ => "str"
  | bytes _ => "bytes"
  | list _ => "list"
  | tuple _ => "tuple"
  | dict _ => "dict"

/-- Items separated by a comma and a space. -/
def commaSeparated (items : List (List Char)) : List Char := [',', ' '].intercalate items

/-- Items between brackets, with a comma after the item of a one-item tuple. -/
def tupleText : List (List Char) → List Char
  | [item] => '(' :: item ++ [',', ')']
  | items => '(' :: commaSeparated items ++ [')']

mutual

/-- The value as it would be written down, however deep it is nested. -/
def literal? : Value → Option (List Char)
  | null => some "None".toList
  | bool b => some (if b then "True" else "False").toList
  | int n => Decimal.ofInt? n
  | float x => some x.text
  | text s => some (Quoted.ofText s.toList)
  | bytes content => some (Quoted.ofBytes content)
  | list items => (literals? items).map fun ts => '[' :: commaSeparated ts ++ [']']
  | tuple items => (literals? items).map tupleText
  | dict entries => (entryLiterals? entries).map fun ts => '\x7b' :: commaSeparated ts ++ ['\x7d']

/-- The literals of several values. -/
def literals? : List Value → Option (List (List Char))
  | [] => some []
  | v :: rest => do return (← literal? v) :: (← literals? rest)

/-- The literals of the entries of a dictionary. -/
def entryLiterals? : List (Value × Value) → Option (List (List Char))
  | [] => some []
  | (k, v) :: rest => do
    return ((← literal? k) ++ [':', ' '] ++ (← literal? v)) :: (← entryLiterals? rest)

end

/-- The value as it is shown: a text as it stands, anything else as its literal. -/
def display? : Value → Option (List Char)
  | text s => some s.toList
  | v => literal? v

/-! ## Equality -/

/-- The integer that a number or a truth value amounts to, if it is whole. -/
def wholeNumber? : Value → Option Int
  | bool b => some (if b then 1 else 0)
  | int n => some n
  | float x => x.toInt?
  | _ => none

mutual

/-- Whether two values count as one key.  Not-a-number is no key's equal, and
lists and dictionaries are no keys. -/
def same : Value → Value → Bool
  | null, null => true
  | text s, text t => s == t
  | bytes content, bytes other => content == other
  | tuple items, tuple others => sameItems items others
  | float x, float y =>
    match x.toInt?, y.toInt? with
    | some m, some n => m == n
    | _, _ => x == y && x != .nan
  | v, w =>
    match v.wholeNumber?, w.wholeNumber? with
    | some m, some n => m == n
    | _, _ => false

/-- Whether two lists of values agree place by place. -/
def sameItems : List Value → List Value → Bool
  | [], [] => true
  | v :: rest, w :: others => same v w && sameItems rest others
  | _, _ => false

end

/-- The dictionary made by putting values under keys, one after the other. -/
def ofEntries (entries : List (Value × Value)) : Value := dict (Entries.ofList same entries)

/-! ## Contents -/

/-- The values met by going through a value: the items of a list or tuple,
the characters of a text, the numbers of a byte string, the keys of a
dictionary.  Other values cannot be gone through. -/
def elements? : Value → Option (List Value)
  | list items | tuple items => some items
  | text s => some (s.toList.map fun c => text (String.singleton c))
  | bytes content => some (content.map fun b => int b.toNat)
  | dict entries => some (entries.map Prod.fst)
  | _ => none

/-- The text that a value holds: a text itself, or a byte string that is
well-formed UTF-8.  `none` for other kinds, `some none` for other bytes. -/
def heldText? : Value → Option (Option String)
  | text s => some (some s)
  | bytes content => some (String.fromUTF8? ⟨content.toArray⟩)
  | _ => none

end Value

end Tabletop
