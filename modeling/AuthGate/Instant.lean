import AuthGate.Text.Digits

set_option autoImplicit false

/-! # Instants

A moment in time as seconds and nanoseconds since the beginning of 1970, written as date and time
of day in UTC. A leap second is the second before it with a thousand million nanoseconds or more,
and is written as second 60. -/

namespace AuthGate

/-- A moment: seconds since the beginning of 1970 and nanoseconds after them. -/
structure Instant where
  seconds : Int
  nanos : Nat
  deriving DecidableEq, Repr

namespace Instant

/-- A day of the calendar. -/
structure Date where
  year : Int
  month : Nat
  day : Nat
  deriving DecidableEq, Repr

/-- The date a number of days after the beginning of 1970, reckoned in eras of 400 years that begin
    with March. -/
def dateOfDays (days : Int) : Date :=
  let z := days + 719468
  let era := z / 146097
  let dayOfEra := (z % 146097).toNat
  let yearOfEra := (dayOfEra - dayOfEra / 1460 + dayOfEra / 36524 - dayOfEra / 146096) / 365
  let dayOfYear := dayOfEra - (365 * yearOfEra + yearOfEra / 4 - yearOfEra / 100)
  let m := (5 * dayOfYear + 2) / 153
  let month := if m < 10 then m + 3 else m - 9
  { year := yearOfEra + era * 400 + (if month ≤ 2 then 1 else 0), month,
    day := dayOfYear - (153 * m + 2) / 5 + 1 }

/-- The moment of seconds and nanoseconds, if its year is in range and nanoseconds beyond a second
    stand at the end of a minute. -/
def ofTimestamp? (seconds : Int) (nanos : Nat) : Option Instant :=
  let year := (dateOfDays (seconds / 86400)).year
  if -262143 ≤ year ∧ year ≤ 262142 ∧ nanos < 2000000000 ∧
      (nanos < 1000000000 ∨ seconds % 60 = 59) then some ⟨seconds, nanos⟩
  else none

/-- A number with leading zeros up to a width. -/
def padded (width n : Nat) : List Char := Text.padLeft width (Nat.toDigits 10 n)

/-- A year: four digits from 0 to 9999, else a sign and at least four digits. -/
def yearChars (year : Int) : List Char :=
  if 0 ≤ year ∧ year ≤ 9999 then padded 4 year.toNat
  else (if year < 0 then '-' else '+') :: padded 4 year.natAbs

/-- The fraction of a second in no, three, six or nine digits, as few as hold it. -/
def fractionChars (nanos : Nat) : List Char :=
  if nanos = 0 then []
  else if nanos % 1000000 = 0 then '.' :: padded 3 (nanos / 1000000)
  else if nanos % 1000 = 0 then '.' :: padded 6 (nanos / 1000)
  else '.' :: padded 9 nanos

/-- Date and time of day in UTC. -/
def render (t : Instant) : String :=
  let date := dateOfDays (t.seconds / 86400)
  let ofDay := (t.seconds % 86400).toNat
  let leap := 1000000000 ≤ t.nanos
  let second := ofDay % 60 + (if leap then 1 else 0)
  let nanos := if leap then t.nanos - 1000000000 else t.nanos
  String.ofList (yearChars date.year ++ '-' :: padded 2 date.month ++ '-' :: padded 2 date.day ++
    'T' :: padded 2 (ofDay / 3600) ++ ':' :: padded 2 (ofDay / 60 % 60) ++ ':' :: padded 2 second ++
    fractionChars nanos ++ ['Z'])

end Instant

end AuthGate
