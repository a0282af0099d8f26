import ContainerJobs.Time.Calendar
import Mathlib.Algebra.Ring.Nat

/-!
# Dates and day numbers

Each day number is that of exactly one date that exists: `Date.dayNumber_ofDayNumber`,
`Date.exists_ofDayNumber` and `Date.Exists.ofDayNumber_dayNumber`. They are in order: the
day after a date has the next number (`Date.Exists.dayNumber_next`). The day numbers of a
year lie between the first day of the year and that of the next one
(`Date.Exists.dayNumber_mem`).
-/

namespace ContainerJobs.Date

/-! ## Years -/

theorem daysBeforeYear_succ (year : Int) :
    daysBeforeYear (year + 1) = daysBeforeYear year + if isLeap year then 366 else 365 := by
  simp only [daysBeforeYear, isLeap, Bool.and_eq_true, Bool.or_eq_true, beq_iff_eq, bne_iff_ne]
  split <;> omega

theorem daysBeforeYear_mono {a b : Int} (h : a ≤ b) : daysBeforeYear a ≤ daysBeforeYear b := by
  simp only [daysBeforeYear]
  omega

theorem sum_monthLengths (leap : Bool) :
    (monthLengths leap).sum = if leap then 366 else 365 := by
  cases leap <;> rfl

/-- A day lies in one year. -/
theorem yearOf_eq {n year : Int} (low : daysBeforeYear year ≤ n)
    (high : n < daysBeforeYear (year + 1)) : yearOf n = year := by
  obtain ⟨below, above⟩ := yearOf_cases n
  obtain before | same | after := Int.lt_trichotomy (yearOf n) year
  · have := daysBeforeYear_mono (show yearOf n + 1 ≤ year from before)
    omega
  · exact same
  · have := daysBeforeYear_mono (show year + 1 ≤ yearOf n from after)
    omega

/-! ## Months -/

theorem getD_monthLengths_le (leap : Bool) (i : Nat) : (monthLengths leap).getD i 0 ≤ 31 := by
  have each : ∀ l ∈ monthLengths leap, l ≤ 31 := by cases leap <;> decide
  rw [List.getD_eq_getElem?_getD]
  cases h : (monthLengths leap)[i]? with
  | none => simp
  | some l => exact each l (List.mem_of_getElem? h)

/-- Day `n` of some months falls into one of them. -/
theorem monthAndDay_eq {lengths : List Nat} {n : Nat} (h : n < lengths.sum) (month : Nat) :
    ∃ i, i < lengths.length ∧ ∃ d, d < lengths.getD i 0 ∧
      monthAndDay month n lengths = (month + i, d + 1) ∧ (lengths.take i).sum + d = n := by
  induction lengths generalizing n month with
  | nil => simp at h
  | cons l lengths ih =>
    rw [List.sum_cons] at h
    rw [monthAndDay]
    by_cases first : n < l
    · exact ⟨0, by simp, n, by simpa using first, by simp [first], by simp⟩
    · obtain ⟨i, hi, d, hd, eq, sum⟩ := ih (show n - l < lengths.sum by omega) (month + 1)
      refine ⟨i + 1, by simpa using hi, d, by simpa using hd, ?_, ?_⟩
      · rw [if_neg first, eq]
        simp only [Prod.mk.injEq, and_true]
        omega
      · rw [List.take_succ_cons, List.sum_cons]
        omega

/-- The day `d` of a month, counted from the start of the year. -/
theorem monthAndDay_sum_take {lengths : List Nat} {i d : Nat} (h : d < lengths.getD i 0)
    (month : Nat) :
    monthAndDay month ((lengths.take i).sum + d) lengths = (month + i, d + 1) := by
  induction lengths generalizing i month with
  | nil => simp at h
  | cons l lengths ih =>
    cases i with
    | zero =>
      have first : d < l := by simpa using h
      simp [monthAndDay, first]
    | succ i =>
      have rest := ih (show d < lengths.getD i 0 by simpa using h) (month + 1)
      have later : ¬((l :: lengths).take (i + 1)).sum + d < l := by
        rw [List.take_succ_cons, List.sum_cons]
        omega
      have left : ((l :: lengths).take (i + 1)).sum + d - l = (lengths.take i).sum + d := by
        rw [List.take_succ_cons, List.sum_cons]
        omega
      rw [monthAndDay, if_neg later, left, rest, Nat.add_right_comm, Nat.add_assoc]

/-- A month ends where the next one begins. -/
theorem sum_take_succ (lengths : List Nat) (i : Nat) :
    (lengths.take (i + 1)).sum = (lengths.take i).sum + lengths.getD i 0 := by
  rw [List.take_add_one, List.sum_append, List.getD_eq_getElem?_getD]
  cases lengths[i]? <;> simp

/-- A month ends within its year. -/
theorem sum_take_add_getD_le (lengths : List Nat) (i : Nat) :
    (lengths.take i).sum + lengths.getD i 0 ≤ lengths.sum := by
  induction lengths generalizing i with
  | nil => simp
  | cons l lengths ih =>
    cases i with
    | zero => simp
    | succ i =>
      have rest := ih i
      simp only [List.take_succ_cons, List.sum_cons, List.getD_cons_succ]
      omega

/-! ## Days -/

theorem dayNumber_eq (d : Date) : d.dayNumber = daysBeforeYear d.year +
    ((monthLengths (isLeap d.year)).take (d.month - 1)).sum + ((d.day : Int) - 1) - epochDays := rfl

/-- The date of a day, from the year and the place within the year. -/
theorem ofDayNumber_eq (n : Int) : ∃ i < 12, ∃ d,
    d < (monthLengths (isLeap (yearOf (n + epochDays)))).getD i 0 ∧
      ofDayNumber n = ⟨yearOf (n + epochDays), i + 1, d + 1⟩ ∧
      daysBeforeYear (yearOf (n + epochDays)) +
        (((monthLengths (isLeap (yearOf (n + epochDays)))).take i).sum + d : Nat) =
          n + epochDays := by
  obtain ⟨low, high⟩ := yearOf_cases (n + epochDays)
  rw [daysBeforeYear_succ] at high
  have inside : (n + epochDays - daysBeforeYear (yearOf (n + epochDays))).toNat <
      (monthLengths (isLeap (yearOf (n + epochDays)))).sum := by
    rw [sum_monthLengths]
    cases leap : isLeap (yearOf (n + epochDays)) <;>
      simp only [leap, if_true, Bool.false_eq_true, if_false] at high ⊢ <;> omega
  obtain ⟨i, hi, d, hd, eq, sum⟩ := monthAndDay_eq inside 1
  refine ⟨i, hi, d, hd, ?_, by omega⟩
  rw [ofDayNumber]
  simp only [eq, Nat.add_comm 1]

theorem dayNumber_ofDayNumber (n : Int) : (ofDayNumber n).dayNumber = n := by
  obtain ⟨i, -, d, -, eq, sum⟩ := ofDayNumber_eq n
  rw [eq, dayNumber_eq]
  simp only [Nat.add_sub_cancel]
  omega

theorem exists_ofDayNumber (n : Int) : (ofDayNumber n).Exists := by
  obtain ⟨i, hi, d, hd, eq, -⟩ := ofDayNumber_eq n
  rw [eq]
  exact ⟨by simp, Nat.succ_le_of_lt hi, by simp, hd⟩

/-- A date lies within its year. -/
theorem Exists.dayNumber_mem {d : Date} (h : d.Exists) :
    daysBeforeYear d.year - epochDays ≤ d.dayNumber ∧
      d.dayNumber < daysBeforeYear (d.year + 1) - epochDays := by
  obtain ⟨-, -, first, last⟩ := h
  have inside := sum_take_add_getD_le (monthLengths (isLeap d.year)) (d.month - 1)
  rw [sum_monthLengths] at inside
  rw [dayNumber_eq, daysBeforeYear_succ]
  -- The day is one of its month, which ends within the year.
  generalize ((monthLengths (isLeap d.year)).take (d.month - 1)).sum = before at inside ⊢
  generalize (monthLengths (isLeap d.year)).getD (d.month - 1) 0 = length at inside last
  cases leap : isLeap d.year <;>
    simp only [leap, if_true, Bool.false_eq_true, if_false] at inside ⊢ <;> omega

/-- The date of the number of a date is that date. -/
theorem Exists.ofDayNumber_dayNumber {d : Date} (h : d.Exists) : ofDayNumber d.dayNumber = d := by
  obtain ⟨low, high⟩ := h.dayNumber_mem
  obtain ⟨month, -, first, last⟩ := h
  have year : yearOf (d.dayNumber + epochDays) = d.year := yearOf_eq (by omega) (by omega)
  have inside : (d.dayNumber + epochDays - daysBeforeYear d.year).toNat =
      ((monthLengths (isLeap d.year)).take (d.month - 1)).sum + (d.day - 1) := by
    rw [dayNumber_eq]
    omega
  have parts := monthAndDay_sum_take
    (show d.day - 1 < (monthLengths (isLeap d.year)).getD (d.month - 1) 0 by omega) 1
  rw [Nat.add_sub_cancel' month, Nat.sub_add_cancel first] at parts
  rw [ofDayNumber]
  simp only [year, inside, parts]

/-- The day after a date. -/
def next (d : Date) : Date :=
  if d.day < (monthLengths (isLeap d.year)).getD (d.month - 1) 0 then { d with day := d.day + 1 }
  else if d.month < 12 then { d with month := d.month + 1, day := 1 }
  else { year := d.year + 1, month := 1, day := 1 }

/-- Day numbers count the days. -/
theorem Exists.dayNumber_next {d : Date} (h : d.Exists) : d.next.dayNumber = d.dayNumber + 1 := by
  obtain ⟨month, months, first, last⟩ := h
  have ends := sum_take_succ (monthLengths (isLeap d.year)) (d.month - 1)
  rw [Nat.sub_add_cancel month] at ends
  rw [next]
  split
  · simp only [dayNumber_eq]
    omega
  · next lastDay =>
    split
    · simp only [dayNumber_eq, Nat.add_sub_cancel, ends]
      omega
    · next lastMonth =>
      -- The twelve months are the whole year.
      have whole : ((monthLengths (isLeap d.year)).take d.month).sum =
          if isLeap d.year then 366 else 365 := by
        rw [← sum_monthLengths, List.take_of_length_le]
        rw [monthLengths]
        simpa using lastMonth
      simp only [dayNumber_eq, daysBeforeYear_succ, Nat.sub_self, List.take_zero, List.sum_nil]
      cases leap : isLeap d.year <;>
        simp only [leap, if_true, Bool.false_eq_true, if_false] at ends whole last lastDay ⊢ <;>
        omega

end ContainerJobs.Date
