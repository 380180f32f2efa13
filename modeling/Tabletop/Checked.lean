import Tabletop.Timestamp

/-!
# Tabletop.Checked

Results of checking a record given by named fields.

A check does not stop at the first fault: `Checked` is either a valid
result or a nonempty list of complaints, and putting two checks together
keeps the complaints of both, in order.  Each complaint names the place it
is about and the issue there, and is worded on one line by
`Complaint.line`.
-/

namespace Tabletop

open Text

/-- What can be wrong with a field, or with a record as a whole. -/
inductive Issue where
  | missing
  | notInteger
  | unreadableInteger
  | oversizedInteger
  | fractionalInteger
  | notFinite
  | tooSmall (lowest : Nat)
  | tooLarge (highest : Nat)
  | notText
  | undecodableText
  | notSign
  | notTuple
  | notLiteral (wanted : Bool)
  | notTimestamp
  | unreadableTimestamp (flaw : Timestamp.Flaw)
  | yearZero
  | unpairedModifier
  | frozen
  deriving DecidableEq

/-- A number in a message. -/
def numeral (n : Nat) : String := String.ofList (Decimal.ofNat n)

/-- The wording of an issue, with its tag in brackets. -/
def Issue.message : Issue → String
  | missing => "Field required [missing]"
  | notInteger => "Input should be a valid integer [int_type]"
  | unreadableInteger =>
    "Input should be a valid integer, unable to parse string as an integer [int_parsing]"
  | oversizedInteger =>
    "Unable to parse input string as an integer, exceeded maximum size [int_parsing_size]"
  | fractionalInteger =>
    "Input should be a valid integer, got a number with a fractional part [int_from_float]"
  | notFinite => "Input should be a finite number [finite_number]"
  | tooSmall lowest =>
    "Input should be greater than or equal to " ++ numeral lowest ++ " [greater_than_equal]"
  | tooLarge highest =>
    "Input should be less than or equal to " ++ numeral highest ++ " [less_than_equal]"
  | notText => "Input should be a valid string [string_type]"
  | undecodableText =>
    "Input should be a valid string, unable to parse raw data as a unicode string [string_unicode]"
  | notSign => "Input should be '+' or '-' [enum]"
  | notTuple => "Input should be a valid tuple [tuple_type]"
  | notLiteral wanted =>
    "Input should be " ++ (if wanted then "True" else "False") ++ " [literal_error]"
  | notTimestamp => "Input should be a valid datetime [datetime_type]"
  | unreadableTimestamp flaw =>
    "Input should be a valid datetime or date, " ++ flaw.message ++ " [datetime_from_date_parsing]"
  | yearZero => "Input should be a valid datetime, year 0 is out of range [datetime_parsing]"
  | unpairedModifier =>
    "Value error, modifier_sign and modifier_value must be given together [value_error]"
  | frozen => "Instance is frozen [frozen_instance]"

/-- What a complaint is about. -/
inductive Place where
  /-- The record as a whole. -/
  | record
  /-- The field of this name. -/
  | field (name : String)
  /-- An element of the sequence in the field of this name. -/
  | element (name : String) (index : Nat)
  deriving DecidableEq

/-- A place as it stands in front of a complaint. -/
def Place.label : Place → String
  | record => ""
  | field name => name
  | element name index => name ++ "." ++ numeral index

/-- An issue at a place. -/
structure Complaint where
  place : Place
  issue : Issue
  deriving DecidableEq

/-- A complaint on one line. -/
def Complaint.line (c : Complaint) : String := c.place.label ++ ": " ++ c.issue.message

/-- Complaints one below the other. -/
def Complaint.report (cs : List Complaint) : String := "\n".intercalate (cs.map line)

/-- A valid result, or what is wrong. -/
inductive Checked (α : Type) where
  | valid (result : α)
  | invalid (first : Complaint) (rest : List Complaint)

namespace Checked

variable {α β : Type}

/-- A single complaint. -/
def complain (place : Place) (issue : Issue) : Checked α := invalid ⟨place, issue⟩ []

/-- What is wrong; nothing for a valid result. -/
def complaints : Checked α → List Complaint
  | valid _ => []
  | invalid first rest => first :: rest

/-- The result, if it is valid. -/
def result? : Checked α → Option α
  | valid a => some a
  | invalid .. => none

/-- Applies a function to a valid result. -/
def map (f : α → β) : Checked α → Checked β
  | valid a => valid (f a)
  | invalid first rest => invalid first rest

/-- Applies a checked function to a checked argument, with the complaints of
both. -/
def apply : Checked (α → β) → Checked α → Checked β
  | valid f, x => x.map f
  | invalid first rest, x => invalid first (rest ++ x.complaints)

/-- A check whose result is a further check: the latter is made only if
the former finds nothing wrong. -/
def flatten : Checked (Checked α) → Checked α
  | valid x => x
  | invalid first rest => invalid first rest

instance : Functor Checked where
  map := map

instance : Applicative Checked where
  pure := valid
  seq f x := apply f (x ())

/-- The complaints of two checks put together are those of both. -/
theorem complaints_seq (f : Checked (α → β)) (x : Checked α) :
    (f <*> x).complaints = f.complaints ++ x.complaints := by
  cases f <;> cases x <;> rfl

theorem complaints_map (f : α → β) (x : Checked α) : (f <$> x).complaints = x.complaints := by
  cases x <;> rfl

/-- Complaints are those of a check that is not valid. -/
theorem eq_invalid_of_complaints {x : Checked α} {first : Complaint} {rest : List Complaint}
    (h : x.complaints = first :: rest) : x = invalid first rest := by
  cases x with
  | valid a => contradiction
  | invalid first' rest' =>
      cases h
      rfl

end Checked

end Tabletop
