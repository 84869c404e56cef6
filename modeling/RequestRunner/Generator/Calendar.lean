/-!
# Calendar time

The clock counts milliseconds since the epoch. `Calendar.seconds` rounds them down to seconds, and
`Calendar.text` writes the moment as date and time of day in universal time. Years of four digits
are written as they are, all others with a sign and six digits.
-/

set_option autoImplicit false

namespace RequestRunner.Calendar

/-- A number with leading zeros up to a width. -/
def padded (width n : Nat) : String :=
  let ds := Nat.toDigits 10 n
  String.ofList (List.replicate (width - ds.length) '0' ++ ds)

/-- Whole seconds since the epoch. -/
def seconds (milliseconds : Int) : Int := milliseconds.fdiv 1000

/-- A date of the proleptic calendar. -/
structure Date where
  /-- The year; zero is the year before the first. -/
  year : Int
  /-- The month, from one. -/
  month : Nat
  /-- The day of the month, from one. -/
  day : Nat
  deriving DecidableEq, Repr

/-- The date of a day counted from the epoch. Years are counted from March on, so that a leap day is
the last day of its year, and days in eras of four hundred years. -/
def ofDays (days : Int) : Date :=
  let shifted := days + 719468
  let era := shifted.fdiv 146097
  let dayOfEra := (shifted - era * 146097).toNat
  let yearOfEra :=
    (dayOfEra - dayOfEra / 1460 + dayOfEra / 36524 - dayOfEra / 146096) / 365
  let dayOfYear := dayOfEra - (365 * yearOfEra + yearOfEra / 4 - yearOfEra / 100)
  let shiftedMonth := (5 * dayOfYear + 2) / 153
  let day := dayOfYear - (153 * shiftedMonth + 2) / 5 + 1
  let month := if shiftedMonth < 10 then shiftedMonth + 3 else shiftedMonth - 9
  let year := (yearOfEra : Int) + era * 400
  ⟨if month ≤ 2 then year + 1 else year, month, day⟩

/-- The text of a year. -/
def yearText (year : Int) : String :=
  if 0 ≤ year ∧ year ≤ 9999 then padded 4 year.toNat
  else (if year < 0 then "-" else "+") ++ padded 6 year.natAbs

/-- The moment as date and time of day. -/
def text (milliseconds : Int) : String :=
  let days := milliseconds.fdiv 86400000
  let rest := (milliseconds - days * 86400000).toNat
  let date := ofDays days
  yearText date.year ++ "-" ++ padded 2 date.month ++ "-" ++ padded 2 date.day ++ "T" ++
    padded 2 (rest / 3600000) ++ ":" ++ padded 2 (rest / 60000 % 60) ++ ":" ++
    padded 2 (rest / 1000 % 60) ++ "." ++ padded 3 (rest % 1000) ++ "Z"

end RequestRunner.Calendar
