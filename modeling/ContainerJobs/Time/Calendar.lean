/-!
# The civil calendar

Dates of the proleptic Gregorian calendar and their day numbers, counted from
1970-01-01. Years may be zero or negative. `Date.ofDayNumber` goes back: the
year is estimated from the mean length of a year and is off by at most one.
-/

namespace ContainerJobs

/-- A date: year, month from 1 to 12, day from 1. -/
structure Date where
  /-- The year; zero is the year before year one. -/
  year : Int
  /-- The month, 1 for January. -/
  month : Nat
  /-- The day of the month. -/
  day : Nat
deriving DecidableEq, Repr

namespace Date

/-- The year has 366 days. -/
def isLeap (year : Int) : Bool :=
  year % 4 == 0 && (year % 100 != 0 || year % 400 == 0)

/-- The lengths of the months. -/
def monthLengths (leap : Bool) : List Nat :=
  [31, if leap then 29 else 28, 31, 30, 31, 30, 31, 31, 30, 31, 30, 31]

/-- The date exists. -/
def Exists (d : Date) : Prop :=
  1 ≤ d.month ∧ d.month ≤ 12 ∧ 1 ≤ d.day ∧
    d.day ≤ (monthLengths (isLeap d.year)).getD (d.month - 1) 0

instance (d : Date) : Decidable d.Exists :=
  inferInstanceAs (Decidable (_ ∧ _))

/-- The number of days from the start of year zero to the start of a year. -/
def daysBeforeYear (year : Int) : Int :=
  365 * year + (year + 3) / 4 - (year + 99) / 100 + (year + 399) / 400

/-- The number of days from the start of year zero to 1970-01-01. -/
def epochDays : Int := 719528

/-- The number of days since 1970-01-01. -/
def dayNumber (d : Date) : Int :=
  let before : Nat := ((monthLengths (isLeap d.year)).take (d.month - 1)).foldr (· + ·) 0
  daysBeforeYear d.year + before + ((d.day : Int) - 1) - epochDays

/-- Month and day of the day `n`, counted from zero at the start of `month`,
    where `lengths` are the lengths of that month and the ones after it. -/
def monthAndDay (month n : Nat) : (lengths : List Nat) → Nat × Nat
  | [] => (month, n + 1)
  | l :: r => if n < l then (month, n + 1) else monthAndDay (month + 1) (n - l) r

/-- The year that contains the day `n`, counted from the start of year zero. -/
def yearOf (n : Int) : Int :=
  let year := n * 400 / 146097
  if n < daysBeforeYear year then year - 1
  else if daysBeforeYear (year + 1) ≤ n then year + 1
  else year

/-- The date with a given day number. -/
def ofDayNumber (n : Int) : Date :=
  let n := n + epochDays
  let year := yearOf n
  let (month, day) := monthAndDay 1 (n - daysBeforeYear year).toNat (monthLengths (isLeap year))
  { year, month, day }

example : ({ year := 1970, month := 1, day := 1 } : Date).dayNumber = 0 := by decide

example : ofDayNumber 11016 = { year := 2000, month := 2, day := 29 } := by decide

/-- The estimate of `yearOf` is off by at most one. -/
theorem yearOf_cases (n : Int) :
    daysBeforeYear (yearOf n) ≤ n ∧ n < daysBeforeYear (yearOf n + 1) := by
  have low : daysBeforeYear (n * 400 / 146097 - 1) ≤ n := by
    simp only [daysBeforeYear]; omega
  have high : n < daysBeforeYear (n * 400 / 146097 + 1 + 1) := by
    simp only [daysBeforeYear]; omega
  by_cases h₁ : n < daysBeforeYear (n * 400 / 146097)
  · have h : yearOf n = n * 400 / 146097 - 1 := by simp [yearOf, h₁]
    rw [h]
    exact ⟨low, by rwa [Int.sub_add_cancel]⟩
  · by_cases h₂ : daysBeforeYear (n * 400 / 146097 + 1) ≤ n
    · have h : yearOf n = n * 400 / 146097 + 1 := by simp [yearOf, h₁, h₂]
      rw [h]
      exact ⟨h₂, high⟩
    · have h : yearOf n = n * 400 / 146097 := by simp [yearOf, h₁, h₂]
      rw [h]
      exact ⟨Int.not_lt.1 h₁, Int.not_le.1 h₂⟩

end Date

end ContainerJobs
