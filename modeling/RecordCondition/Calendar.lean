/-!
# The Gregorian calendar

Days are counted from 1 January 1970, before and after it, and the rules of the
calendar are extended to all years.  A year is taken to begin in March, so that
the leap day is the last day of its year and four hundred years are a period of
146097 days.
-/

namespace RecordCondition

structure Date where
  year : Int
  month : Nat
  day : Nat
  deriving DecidableEq, Repr

def isLeapYear (year : Int) : Bool :=
  year % 4 = 0 && (year % 100 ≠ 0 || year % 400 = 0)

def daysInMonth (year : Int) (month : Nat) : Nat :=
  if month = 2 then (if isLeapYear year then 29 else 28)
  else if month = 4 || month = 6 || month = 9 || month = 11 then 30
  else 31

def Date.isValid (date : Date) : Bool :=
  1 ≤ date.month && date.month ≤ 12 && 1 ≤ date.day &&
    date.day ≤ daysInMonth date.year date.month

/-- The days of a year before a month, months counted from March. -/
def daysBeforeMonth (month : Int) : Int :=
  (153 * month + 2) / 5

def Date.toDays (date : Date) : Int :=
  let year := if date.month ≤ 2 then date.year - 1 else date.year
  let month : Int := ((date.month + 9) % 12 : Nat)
  let era := year / 400
  let yearOfEra := year % 400
  let dayOfYear := daysBeforeMonth month + date.day - 1
  era * 146097 + yearOfEra * 365 + yearOfEra / 4 - yearOfEra / 100 + dayOfYear - 719468

def Date.ofDays (days : Int) : Date :=
  let shifted := days + 719468
  let era := shifted / 146097
  let dayOfEra := shifted % 146097
  let yearOfEra :=
    (dayOfEra - dayOfEra / 1460 + dayOfEra / 36524 - dayOfEra / 146096) / 365
  let dayOfYear := dayOfEra - (365 * yearOfEra + yearOfEra / 4 - yearOfEra / 100)
  let month := (5 * dayOfYear + 2) / 153
  let day := dayOfYear - daysBeforeMonth month + 1
  let civilMonth := if month < 10 then month + 3 else month - 9
  let year := yearOfEra + era * 400
  { year := if civilMonth ≤ 2 then year + 1 else year
    month := civilMonth.toNat
    day := day.toNat }

end RecordCondition
