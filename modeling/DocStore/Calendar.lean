/-!
# Dates

A moment is a number of milliseconds since the start of the year 1970 in universal time.  `civil`
gives its date in the Gregorian calendar, `isoText` its text in the ISO 8601 format and `longText`
the text with the names of the day and the month.  Years before 0 have a minus sign; in the ISO
format they and those after 9999 are written with a sign and six digits, else a year has four.
-/

set_option autoImplicit false

namespace DocStore.Calendar

/-- A day of the Gregorian calendar. -/
structure Date where
  /-- The year, counted through zero. -/
  year : Int
  /-- The month, from 1. -/
  month : Nat
  /-- The day of the month, from 1. -/
  day : Nat
deriving DecidableEq

/-- The date of a day, counted from the first day of 1970.  Days are grouped into eras of 400 years
that begin in March, so that the leap day ends a year. -/
def civil (days : Int) : Date :=
  let shifted := days + 719468
  let era := shifted / 146097
  let dayOfEra := (shifted % 146097).toNat
  let yearOfEra := (dayOfEra - dayOfEra / 1460 + dayOfEra / 36524 - dayOfEra / 146096) / 365
  let dayOfYear := dayOfEra - (365 * yearOfEra + yearOfEra / 4 - yearOfEra / 100)
  let shiftedMonth := (5 * dayOfYear + 2) / 153
  let month := if shiftedMonth < 10 then shiftedMonth + 3 else shiftedMonth - 9
  let year : Int := yearOfEra + era * 400
  ⟨if month ≤ 2 then year + 1 else year, month, dayOfYear - (153 * shiftedMonth + 2) / 5 + 1⟩

/-- The farthest moment from 1970 that has a date. -/
def farthest : Nat := 8640000000000000

/-- A whole number with zeros before it up to a width. -/
def padded (width value : Nat) : String :=
  let digits := Nat.toDigits 10 value
  String.ofList (List.replicate (width - digits.length) '0' ++ digits)

/-- The year of an ISO text. -/
def isoYear (year : Int) : String :=
  if year < 0 then "-" ++ padded 6 year.natAbs
  else if 9999 < year then "+" ++ padded 6 year.natAbs
  else padded 4 year.natAbs

/-- Hours, minutes and seconds of a moment of a day given in milliseconds. -/
def clockText (milliseconds : Nat) : String :=
  let seconds := milliseconds / 1000
  padded 2 (seconds / 3600) ++ ":" ++ padded 2 (seconds / 60 % 60) ++ ":" ++ padded 2 (seconds % 60)

/-- The ISO text of a moment. -/
def isoText (moment : Int) : String :=
  let date := civil (moment / 86400000)
  let time := (moment % 86400000).toNat
  isoYear date.year ++ "-" ++ padded 2 date.month ++ "-" ++ padded 2 date.day
    ++ "T" ++ clockText time ++ "." ++ padded 3 (time % 1000) ++ "Z"

/-- The names of the days, from the day of the week of the first day of 1970. -/
def dayNames : List String := ["Thu", "Fri", "Sat", "Sun", "Mon", "Tue", "Wed"]

/-- The names of the months. -/
def monthNames : List String :=
  ["Jan", "Feb", "Mar", "Apr", "May", "Jun", "Jul", "Aug", "Sep", "Oct", "Nov", "Dec"]

/-- The long text of a moment. -/
def longText (moment : Int) : String :=
  let days := moment / 86400000
  let date := civil days
  let sign := if date.year < 0 then "-" else ""
  (dayNames[(days % 7).toNat]?).getD "" ++ " " ++ (monthNames[date.month - 1]?).getD "" ++ " "
    ++ padded 2 date.day ++ " " ++ sign ++ padded 4 date.year.natAbs
    ++ " " ++ clockText (moment % 86400000).toNat
    ++ " GMT+0000 (Coordinated Universal Time)"

end DocStore.Calendar
