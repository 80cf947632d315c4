import Mathlib.Tactic.Positivity

/-!
# The calendar

Days of the proleptic Gregorian calendar with a time of day, by the UTC fields of a JavaScript
`Date`. Months are counted from January of the year 0.
-/

namespace Trellis.Core

def isLeap (year : Int) : Bool :=
  year % 4 = 0 ∧ (year % 100 ≠ 0 ∨ year % 400 = 0)

def daysInMonth (month : Int) : Nat :=
  match (month % 12).toNat with
  | 1 => if isLeap (month / 12) then 29 else 28
  | 3 | 5 | 8 | 10 => 30
  | _ => 31

theorem daysInMonth_pos (month : Int) : 0 < daysInMonth month := by
  unfold daysInMonth
  split
  · split <;> decide
  all_goals decide

theorem midnight_lt : 0 < 86400000 := by decide

structure CivilTime where
  month : Int
  day : Nat
  msOfDay : Nat
  day_pos : 0 < day
  day_le : day ≤ daysInMonth month
  msOfDay_lt : msOfDay < 86400000
  deriving DecidableEq

/-- The days from 1970-01-01 to the first of January of a year. -/
def daysBeforeYear (year : Int) : Int :=
  365 * (year - 1970) + (year - 1969) / 4 - (year - 1901) / 100 + (year - 1601) / 400

/-- `getTime`: the milliseconds since 1970-01-01. -/
def CivilTime.time (c : CivilTime) : Int :=
  let year := c.month / 12
  let monthsBefore := (List.range (c.month % 12).toNat).map fun m =>
    (daysInMonth (12 * year + m) : Int)
  (daysBeforeYear year + monthsBefore.sum + (c.day - 1)) * 86400000 + c.msOfDay

/-- A point in time that a `Date` can hold. -/
structure Instant extends CivilTime where
  time_le : |toCivilTime.time| ≤ 8640000000000000
  deriving DecidableEq

/-- A `Date`; an invalid one is `none`. -/
abbrev Date : Type :=
  Option Instant

/-- The `Date` of a point in time; one that is out of range is invalid. -/
def CivilTime.toDate (c : CivilTime) : Date :=
  if h : |c.time| ≤ 8640000000000000 then some ⟨c, h⟩ else none

theorem CivilTime.of_toDate {c : CivilTime} {d : Instant} (h : c.toDate = some d) :
    d.toCivilTime = c := by
  unfold CivilTime.toDate at h
  split at h
  · cases h
    rfl
  · cases h

end Trellis.Core
