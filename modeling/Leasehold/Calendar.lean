/-! # The calendar

Dates of the Gregorian calendar, and the date and time of day of a point in time. -/

namespace Leasehold

namespace Calendar

def isLeap (year : Nat) : Bool := year % 4 = 0 && (year % 100 ≠ 0 || year % 400 = 0)

def daysInMonth (year month : Nat) : Nat :=
  if month = 2 then if isLeap year then 29 else 28
  else if month = 4 || month = 6 || month = 9 || month = 11 then 30
  else 31

/-- The days from 0001-01-01 to the first of January of `year`. -/
def daysBeforeYear (year : Nat) : Nat := let y := year - 1; y * 365 + y / 4 - y / 100 + y / 400

def daysBeforeMonth (year month : Nat) : Nat :=
  (List.range (month - 1)).foldl (fun n m => n + daysInMonth year (m + 1)) 0

/-- The day 1970-01-01, counted from 0001-01-01. -/
def epochDay : Nat := 719162

/-- The year of the `n`-th day after 0001-01-01. Four hundred years have 146097 days, a century that
ends without a leap year 36524, and four years 1461. -/
def yearOfDay (n : Nat) : Nat :=
  let inCycle := n % 146097
  let centuries := min (inCycle / 36524) 3
  let inCentury := inCycle - 36524 * centuries
  let years := min (inCentury % 1461 / 365) 3
  400 * (n / 146097) + 100 * centuries + 4 * (inCentury / 1461) + years + 1

/-- The month of the `n`-th day after the first of January of `year`. -/
def monthOfDay (year n : Nat) : Nat :=
  ((List.range 12).filter fun m => daysBeforeMonth year (m + 1) ≤ n).length

end Calendar

/-- The date and the time of day of a point in time, in UTC. -/
structure DateTime where
  year : Nat
  month : Nat
  day : Nat
  hour : Nat
  minute : Nat
  second : Nat
deriving DecidableEq, Repr

namespace DateTime

open Calendar

/-- Seconds since the epoch as date and time, from the first year on. -/
def ofEpoch (t : Int) : DateTime :=
  let days := (t / 86400 + epochDay).toNat
  let rest := (t % 86400).toNat
  let year := yearOfDay days
  let inYear := days - daysBeforeYear year
  let month := monthOfDay year inYear
  { year, month, day := inYear - daysBeforeMonth year month + 1, hour := rest / 3600,
    minute := rest / 60 % 60,
    second := rest % 60 }

/-- A number with zeros in front up to `width` digits. -/
def padded (width n : Nat) : String :=
  let digits := toString n
  String.ofList (List.replicate (width - digits.length) '0') ++ digits

def text (d : DateTime) : String :=
  padded 4 d.year ++ "-" ++ padded 2 d.month ++ "-" ++ padded 2 d.day ++ " " ++ padded 2 d.hour ++ ":"
    ++ padded 2 d.minute ++ ":" ++ padded 2 d.second ++ "+00:00"

/-- The parts of date and time as they are put together. No seconds are not written. -/
def written (d : DateTime) : String :=
  let parts := [d.year, d.month, d.day, d.hour, d.minute] ++ (if d.second = 0 then [] else [d.second])
  "datetime.datetime(" ++ ", ".intercalate (parts.map toString) ++ ", tzinfo=datetime.timezone.utc)"

end DateTime

end Leasehold
