import ChatRelay.Number.Numeral

/-!
# Instants and the calendar

An instant counts seconds from the start of 1970 in universal time, with nanoseconds beyond; a
nanosecond part of a whole second or more marks a leap second. Dates follow the proleptic Gregorian
calendar. `Instant.rfc3339` writes an instant at an offset from universal time.
-/

namespace ChatRelay

structure Instant where
  seconds : Int
  nanos : Nat
deriving DecidableEq, Repr, Inhabited

/-- A day of the calendar. -/
structure Date where
  year : Int
  month : Nat
  day : Nat
deriving DecidableEq, Repr

namespace Date

/-- The date `days` days after the first of January 1970. Years are counted from March, so that the
leap day is the last of its year; a cycle of four hundred years has 146097 days. -/
def ofDays (days : Int) : Date :=
  let shifted := days + 719468
  let cycle := shifted.fdiv 146097
  let dayOfCycle := (shifted.fmod 146097).toNat
  let yearOfCycle :=
    (dayOfCycle - dayOfCycle / 1460 + dayOfCycle / 36524 - dayOfCycle / 146096) / 365
  let dayOfYear := dayOfCycle - (365 * yearOfCycle + yearOfCycle / 4 - yearOfCycle / 100)
  let monthFromMarch := (5 * dayOfYear + 2) / 153
  let day := dayOfYear - (153 * monthFromMarch + 2) / 5 + 1
  let month := if monthFromMarch < 10 then monthFromMarch + 3 else monthFromMarch - 9
  let year := cycle * 400 + yearOfCycle + (if month ≤ 2 then 1 else 0)
  ⟨year, month, day⟩

/-- Four digits, or a sign and at least four when the year has not exactly those. -/
def yearText (year : Int) : String :=
  if 0 ≤ year ∧ year ≤ 9999 then .ofList (Numeral.padded 4 year.natAbs)
  else (if year < 0 then "-" else "+") ++ .ofList (Numeral.padded 4 year.natAbs)

def twoDigits (n : Nat) : String := .ofList (Numeral.padded 2 n)

def text (d : Date) : String :=
  yearText d.year ++ "-" ++ twoDigits d.month ++ "-" ++ twoDigits d.day

end Date

namespace Instant
open Date (twoDigits)

/-- Days since the first of January 1970 and seconds of the day. -/
def split (seconds : Int) : Int × Nat :=
  (seconds.fdiv 86400, (seconds.fmod 86400).toNat)

/-- No fraction, or as many groups of three digits as it needs. -/
def fractionText (nanos : Nat) : String :=
  if nanos = 0 then ""
  else if nanos % 1000000 = 0 then "." ++ .ofList (Numeral.padded 3 (nanos / 1000000))
  else if nanos % 1000 = 0 then "." ++ .ofList (Numeral.padded 6 (nanos / 1000))
  else "." ++ .ofList (Numeral.padded 9 nanos)

/-- Hours and minutes with a sign, from an offset in seconds. -/
def offsetText (offset : Int) : String :=
  let minutes := offset.natAbs / 60
  (if offset < 0 then "-" else "+") ++ twoDigits (minutes / 60) ++ ":" ++ twoDigits (minutes % 60)

/-- Date, time and offset; a leap second is the sixtieth of its minute. -/
def rfc3339 (t : Instant) (offset : Int) : String :=
  let (days, second) := split (t.seconds + offset)
  let leap := t.nanos / 1000000000
  (Date.ofDays days).text ++ "T" ++ twoDigits (second / 3600) ++ ":" ++
    twoDigits (second / 60 % 60) ++ ":" ++ twoDigits (second % 60 + leap) ++
    fractionText (t.nanos % 1000000000) ++ offsetText offset

end Instant
end ChatRelay
