import Leasehold.Calendar
import Leasehold.Fault

/-! # Moments

Dates with times of day and zone offsets as texts give them, and the points in time they name. -/

namespace Leasehold

/-- A date, perhaps with a time of day, and that perhaps with a zone and its distance from UTC in
minutes. -/
structure Moment where
  year : Nat
  month : Nat
  day : Nat
  time : Option (Nat × Nat × Nat) := none
  /-- The millionth parts of a second. -/
  micros : Nat := 0
  zoned : Bool := false
  offset : Int := 0
deriving DecidableEq, Repr

namespace Moment

open Calendar

/-- The first thing wrong with a moment, the zone offset first and then from the year to the
second. -/
def error? (m : Moment) : Option CalendarError :=
  let (hour, minute, second) := m.time.getD (0, 0, 0)
  if m.offset ≤ -1440 || 1440 ≤ m.offset then some (.offset m.offset)
  else if m.year < 1 || 9999 < m.year then some (.year m.year)
  else if m.month < 1 || 12 < m.month then some .month
  else if m.day < 1 || daysInMonth m.year m.month < m.day then some .day
  else if 24 ≤ hour then some .hour
  else if 60 ≤ minute then some .minute
  else if 60 ≤ second then some .second
  else none

def epochSeconds (m : Moment) : Int :=
  let (hour, minute, second) := m.time.getD (0, 0, 0)
  let days : Int :=
    daysBeforeYear m.year + daysBeforeMonth m.year m.month + (m.day - 1 : Nat) - (epochDay : Int)
  days * 86400 + hour * 3600 + minute * 60 + second - m.offset * 60

end Moment

end Leasehold
