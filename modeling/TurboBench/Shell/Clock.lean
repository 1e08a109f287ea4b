import TurboBench.Text.Field

/-!
Moments as dates and times of day.

A moment is a number of seconds since the start of 1970, without leap seconds. Years are counted
from March, so that the leap day is the last of its year and the months before it have fixed
lengths; four hundred years have a fixed number of days.
-/

namespace TurboBench.Shell

open TurboBench.Text (zeroFill)

/-- A date. -/
structure Date where
  year : Int
  month : Nat
  day : Nat
  deriving DecidableEq, Repr

/-- The days of four hundred years. -/
def daysOfEra : Int := 146097

/-- The date that lies a number of days after the first of March of the year zero. -/
def Date.ofDays (days : Int) : Date :=
  let era := days / daysOfEra
  let day := (days % daysOfEra).toNat
  -- Leap days are taken off, so that every year has 365 days.
  let year := (day - day / 1460 + day / 36524 - day / 146096) / 365
  let dayOfYear := day - (365 * year + year / 4 - year / 100)
  -- From March on, every five months have 153 days.
  let month := (5 * dayOfYear + 2) / 153
  let dayOfMonth := dayOfYear - (153 * month + 2) / 5 + 1
  let calendarMonth := if month < 10 then month + 3 else month - 9
  ⟨era * 400 + year + (if calendarMonth ≤ 2 then 1 else 0), calendarMonth, dayOfMonth⟩

/-- The days from the first of March of the year zero to the start of 1970. -/
def daysBeforeEpoch : Int := 719468

/-- A moment as a date and a time of day, to the minute. -/
def stamp (moment : Int) : String :=
  let date := Date.ofDays (moment / 86400 + daysBeforeEpoch)
  let minute := (moment % 86400 / 60).toNat
  let two (n : Nat) : String := zeroFill 2 (toString n)
  let month := two date.month
  let day := two date.day
  let hours := two (minute / 60)
  let minutes := two (minute % 60)
  s!"{date.year}-{month}-{day} {hours}:{minutes}"

-- The start of the count is the start of 1970.
example : Date.ofDays daysBeforeEpoch = ⟨1970, 1, 1⟩ := by decide

end TurboBench.Shell
