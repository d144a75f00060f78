/-! Dates of the Gregorian calendar, extended to all years, for seconds counted from 1970. -/
namespace TagIndex.Calendar

structure Date where
  year : Int
  month : Nat
  day : Nat
  deriving DecidableEq, Repr

/-- The number of a day, counted from the first of January 1970; years begin in March here, so that
the leap day is the last of its year. -/
def dayNumber (d : Date) : Int :=
  let y := if d.month ≤ 2 then d.year - 1 else d.year
  let era := y.fdiv 400
  let yearOfEra := y - era * 400
  let dayOfYear : Int := (153 * ((d.month + 9) % 12) + 2) / 5 + d.day - 1
  let dayOfEra := yearOfEra * 365 + yearOfEra.fdiv 4 - yearOfEra.fdiv 100 + dayOfYear
  era * 146097 + dayOfEra - 719468

/-- The date of a day number; an era is the 146097 days of 400 years. -/
def dateOf (n : Int) : Date :=
  let z := n + 719468
  let era := z.fdiv 146097
  let dayOfEra := (z - era * 146097).toNat
  let yearOfEra := (dayOfEra - dayOfEra / 1460 + dayOfEra / 36524 - dayOfEra / 146096) / 365
  let dayOfYear := dayOfEra - (365 * yearOfEra + yearOfEra / 4 - yearOfEra / 100)
  let mp := (5 * dayOfYear + 2) / 153
  let month := if mp < 10 then mp + 3 else mp - 9
  let year := (yearOfEra : Int) + era * 400
  { year := if month ≤ 2 then year + 1 else year
    month
    day := dayOfYear - (153 * mp + 2) / 5 + 1 }

/-- The first and the last second that have a date. -/
def firstSecond : Int := dayNumber ⟨-262143, 1, 1⟩ * 86400
def lastSecond : Int := dayNumber ⟨262142, 12, 31⟩ * 86400 + 86399

def padded (width n : Nat) : String :=
  let s := toString n
  String.ofList (List.replicate (width - s.length) '0') ++ s

/-- Years from 0 to 9999 have four digits; all others carry a sign and at least four digits. -/
def yearText (y : Int) : String :=
  if y < 0 then "-" ++ padded 4 y.natAbs
  else if 9999 < y then "+" ++ toString y.natAbs
  else padded 4 y.natAbs

/-- The moment as `YYYY-MM-DD HH:MM:SS`; outside the range of dates it is that of second 0. -/
def momentText (seconds : Int) : String :=
  let t := if firstSecond ≤ seconds && seconds ≤ lastSecond then seconds else 0
  let d := dateOf (t.fdiv 86400)
  let s := (t.fmod 86400).toNat
  yearText d.year ++ "-" ++ padded 2 d.month ++ "-" ++ padded 2 d.day ++ " " ++
    padded 2 (s / 3600) ++ ":" ++ padded 2 (s / 60 % 60) ++ ":" ++ padded 2 (s % 60)

end TagIndex.Calendar
