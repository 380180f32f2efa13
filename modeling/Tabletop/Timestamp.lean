import Tabletop.Text.Decimal

/-!
# Tabletop.Timestamp

A moment as clocks and calendars show it: date, time of day to the
microsecond and, if known, the offset from UTC in minutes.

1. The text is `YYYY-MM-DDTHH:MM:SS`, then six decimals unless the
   microseconds are zero, then nothing without an offset, `Z` for the offset
   zero, and `+HH:MM` or `-HH:MM` for any other.
2. Reading is laxer.  Instead of `T` there may be `t`, a space or an
   underscore; the seconds may be missing; any number of decimals after a
   point or a comma is cut down to six; `z` may stand for `Z`, and the colon
   of an offset may be missing.  A date alone is read as its midnight.
3. A text that is no timestamp has a `Flaw`: the first one of the date at its
   front or, if that is sound, something after it.  The year zero is a case
   of its own: it is found only where nothing else is wrong.
4. Two timestamps with offsets show the same moment when they agree after
   the offsets are taken off, two without when they agree as they stand; one
   with and one without never do.
-/

namespace Tabletop

open Text

/-- Whether a year has a 29th of February. -/
def isLeapYear (year : Nat) : Bool := year % 4 == 0 && (year % 100 != 0 || year % 400 == 0)

/-- The number of days in a month; zero if there is no such month. -/
def daysInMonth (year month : Nat) : Nat :=
  match month with
  | 2 => if isLeapYear year then 29 else 28
  | 4 | 6 | 9 | 11 => 30
  | 1 | 3 | 5 | 7 | 8 | 10 | 12 => 31
  | _ => 0

/-- The days from the first day of the year 1 to a date. -/
def daysBefore (year month day : Nat) : Nat :=
  let years := year - 1
  years * 365 + years / 4 - years / 100 + years / 400
    + (List.range month).foldl (fun days m => days + daysInMonth year m) 0 + day - 1

/-- The date, time of day and offset of a moment. -/
structure Timestamp where
  year : Nat
  month : Nat
  day : Nat
  hour : Nat
  minute : Nat
  second : Nat
  microsecond : Nat
  /-- Minutes ahead of UTC. -/
  offset : Option Int
  year_range : 1 ≤ year ∧ year ≤ 9999
  day_range : 1 ≤ day ∧ day ≤ daysInMonth year month
  time_range : hour < 24 ∧ minute < 60 ∧ second < 60 ∧ microsecond < 1000000
  offset_range : ∀ m ∈ offset, m.natAbs < 1440
  deriving DecidableEq

namespace Timestamp

/-! ## Moments -/

/-- Microseconds from the start of the year 1 in UTC to the moment, an
absent offset counting as zero. -/
def microseconds (t : Timestamp) : Int :=
  let minutes : Int :=
    (daysBefore t.year t.month t.day * 24 + t.hour : Nat) * 60 + t.minute - t.offset.getD 0
  (minutes * 60 + t.second) * 1000000 + t.microsecond

/-- Whether two timestamps show the same moment. -/
def sameMoment (t u : Timestamp) : Bool :=
  t.offset.isSome == u.offset.isSome && t.microseconds == u.microseconds

/-! ## Writing -/

/-- A number with zeros in front up to `width` digits. -/
def padded (width n : Nat) : List Char :=
  let digits := Decimal.ofNat n
  List.replicate (width - digits.length) '0' ++ digits

/-- The text of an offset. -/
def offsetText : Option Int → List Char
  | none => []
  | some m =>
    if m = 0 then ['Z']
    else (if m < 0 then '-' else '+') ::
      padded 2 (m.natAbs / 60) ++ ':' :: padded 2 (m.natAbs % 60)

/-- The decimals of the seconds. -/
def fractionText (microsecond : Nat) : List Char :=
  if microsecond = 0 then [] else '.' :: padded 6 microsecond

/-- The text of a timestamp. -/
def text (t : Timestamp) : List Char :=
  padded 4 t.year ++ '-' :: padded 2 t.month ++ '-' :: padded 2 t.day ++
    'T' :: padded 2 t.hour ++ ':' :: padded 2 t.minute ++ ':' :: padded 2 t.second ++
    fractionText t.microsecond ++ offsetText t.offset

/-! ## Reading -/

/-- Reads a number of exactly `width` digits and gives the rest of the text. -/
def readNumber? (width : Nat) (cs : List Char) : Option (Nat × List Char) :=
  let digits := cs.take width
  if digits.length = width ∧ Decimal.IsRun digits then
    some (Decimal.value digits, cs.drop width)
  else none

/-- Reads a number of `width` digits that stands after the character `mark`. -/
def readMarked? (mark : Char) (width : Nat) : List Char → Option (Nat × List Char)
  | c :: rest => if c = mark then readNumber? width rest else none
  | [] => none

/-- The numbers that a text shows, whether or not there is such a moment. -/
structure Numbers where
  year : Nat
  month : Nat
  day : Nat
  hour : Nat
  minute : Nat
  second : Nat
  microsecond : Nat
  offset : Option Int
  deriving DecidableEq

/-- The moment that numbers show, if there is one. -/
def ofNumbers? (n : Numbers) : Option Timestamp :=
  if h : (1 ≤ n.year ∧ n.year ≤ 9999) ∧ (1 ≤ n.day ∧ n.day ≤ daysInMonth n.year n.month) ∧
      (n.hour < 24 ∧ n.minute < 60 ∧ n.second < 60 ∧ n.microsecond < 1000000) ∧
      ∀ m ∈ n.offset, m.natAbs < 1440 then
    some ⟨n.year, n.month, n.day, n.hour, n.minute, n.second, n.microsecond, n.offset,
      h.1, h.2.1, h.2.2.1, h.2.2.2⟩
  else none

/-- Reads the decimals of the seconds, if there are any. -/
def readFraction? : List Char → Option (Nat × List Char)
  | [] => some (0, [])
  | c :: rest =>
    if c = '.' ∨ c = ',' then
      let digits := rest.takeWhile Char.isDigit
      if digits = [] then none
      else some (Decimal.value (digits.take 6) * Nat.pow 10 (6 - digits.length),
        rest.dropWhile Char.isDigit)
    else some (0, c :: rest)

/-- Reads the seconds and their decimals, if there are any. -/
def readSeconds? : List Char → Option ((Nat × Nat) × List Char)
  | ':' :: rest => do
    let (second, rest) ← readNumber? 2 rest
    let (microsecond, rest) ← readFraction? rest
    return ((second, microsecond), rest)
  | cs => some ((0, 0), cs)

/-- Reads the hours and minutes of an offset, up to the end of the text. -/
def readHoursMinutes? (cs : List Char) : Option Nat := do
  let (hours, rest) ← readNumber? 2 cs
  let rest := match rest with
    | ':' :: digits => digits
    | digits => digits
  let (minutes, rest) ← readNumber? 2 rest
  if rest = [] ∧ minutes < 60 then some (hours * 60 + minutes) else none

/-- Reads an offset, up to the end of the text. -/
def readOffset? : List Char → Option (Option Int)
  | [] => some none
  | ['Z'] | ['z'] => some (some 0)
  | '+' :: rest => (readHoursMinutes? rest).map fun m => some (m : Int)
  | '-' :: rest | '−' :: rest => (readHoursMinutes? rest).map fun m => some (-(m : Int))
  | _ => none

/-- Reads the numbers of a timestamp. -/
def readNumbers? (cs : List Char) : Option Numbers := do
  let (year, cs) ← readNumber? 4 cs
  let (month, cs) ← readMarked? '-' 2 cs
  let (day, cs) ← readMarked? '-' 2 cs
  match cs with
  | [] => return ⟨year, month, day, 0, 0, 0, 0, none⟩
  | separator :: cs =>
    if separator ∉ ['T', 't', ' ', '_'] then none
    else
      let (hour, cs) ← readNumber? 2 cs
      let (minute, cs) ← readMarked? ':' 2 cs
      let ((second, microsecond), cs) ← readSeconds? cs
      let offset ← readOffset? cs
      return ⟨year, month, day, hour, minute, second, microsecond, offset⟩

/-- Reads the text of a timestamp. -/
def read? (cs : List Char) : Option Timestamp := (readNumbers? cs).bind ofNumbers?

/-! ## Flaws -/

/-- What is wrong with a text that is no timestamp. -/
inductive Flaw where
  /-- It is shorter than a date. -/
  | tooShort
  /-- The year is not four digits. -/
  | year
  /-- Something else than a hyphen stands between year, month and day. -/
  | separator
  /-- The month is not two digits. -/
  | month
  /-- The day is not two digits. -/
  | day
  /-- There is no such month. -/
  | monthRange
  /-- The month has no such day. -/
  | dayRange
  /-- What follows the date is wrong. -/
  | rest
  deriving DecidableEq

/-- The wording of a flaw. -/
def Flaw.message : Flaw → String
  | tooShort => "input is too short"
  | year => "invalid character in year"
  | separator => "invalid date separator, expected `-`"
  | month => "invalid character in month"
  | day => "invalid character in day"
  | monthRange => "month value is outside expected range of 1-12"
  | dayRange => "day value is outside expected range"
  | rest => "unexpected extra characters at the end of the input"

/-- Whether a text would be a timestamp if there were a year zero, which
would have the calendar of the year 400. -/
def showsYearZero (cs : List Char) : Bool :=
  match readNumbers? cs with
  | some n => n.year == 0 && (ofNumbers? { n with year := 400 }).isSome
  | none => false

/-- The flaw of a text that is no timestamp and has `size` bytes. -/
def flaw (size : Nat) (cs : List Char) : Flaw :=
  let yearDigits := cs.take 4
  let monthDigits := (cs.drop 5).take 2
  let dayDigits := (cs.drop 8).take 2
  if size < 10 then .tooShort
  else if ¬ Decimal.IsRun yearDigits then .year
  else if cs[4]? ≠ some '-' then .separator
  else if ¬ Decimal.IsRun monthDigits then .month
  else if cs[7]? ≠ some '-' then .separator
  else if ¬ Decimal.IsRun dayDigits then .day
  else
    let lastDay := daysInMonth (Decimal.value yearDigits) (Decimal.value monthDigits)
    let day := Decimal.value dayDigits
    if lastDay = 0 then .monthRange
    else if day = 0 ∨ lastDay < day then .dayRange
    else .rest

end Timestamp

end Tabletop
