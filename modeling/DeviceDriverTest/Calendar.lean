import Mathlib.Order.Basic

/-! The calendar with its leap years: the number of a day and of a second, and that
they put the dates and times in their order. Months are counted from zero. -/

namespace Calendar

abbrev Leap (y : Int) : Prop := y % 4 = 0 ∧ (y % 100 ≠ 0 ∨ y % 400 = 0)

def monthDays (y : Int) (m : Nat) : Int :=
  if m = 1 then (if Leap y then 29 else 28) else if m = 3 ∨ m = 5 ∨ m = 8 ∨ m = 10 then 30 else 31

def yearDays (y : Int) : Int := if Leap y then 366 else 365

/-- The days of the first `m` months. -/
def daysBeforeMonth (y : Int) : Nat → Int
  | 0 => 0
  | m + 1 => daysBeforeMonth y m + monthDays y m

/-- The days from year zero to the year. -/
def daysBeforeYear (y : Int) : Int := 365 * y + (y + 3) / 4 - (y + 99) / 100 + (y + 399) / 400

structure DateTime where
  year : Int
  month : Nat
  day : Int
  hour : Int
  minute : Int
  second : Int
  deriving DecidableEq

structure DateTime.Valid (t : DateTime) : Prop where
  month : t.month < 12
  day : 1 ≤ t.day ∧ t.day ≤ monthDays t.year t.month
  hour : 0 ≤ t.hour ∧ t.hour < 24
  minute : 0 ≤ t.minute ∧ t.minute < 60
  second : 0 ≤ t.second ∧ t.second < 60

def DateTime.dayNumber (t : DateTime) : Int := daysBeforeYear t.year + daysBeforeMonth t.year t.month + (t.day - 1)

def DateTime.timeOfDay (t : DateTime) : Int := t.hour * 3600 + t.minute * 60 + t.second

/-- The seconds from the beginning of year zero. -/
def DateTime.instant (t : DateTime) : Int := t.dayNumber * 86400 + t.timeOfDay

/-- Field by field, the year first. -/
def DateTime.Before (t u : DateTime) : Prop :=
  t.year < u.year ∨ t.year = u.year ∧ (t.month < u.month ∨ t.month = u.month ∧ (t.day < u.day ∨ t.day = u.day ∧
    (t.hour < u.hour ∨ t.hour = u.hour ∧ (t.minute < u.minute ∨ t.minute = u.minute ∧ t.second < u.second))))

theorem monthDays_pos (y : Int) (m : Nat) : 28 ≤ monthDays y m := by
  rw [monthDays]
  split_ifs <;> decide

theorem monthDays_le (y : Int) (m : Nat) : monthDays y m ≤ 31 := by
  rw [monthDays]
  split_ifs <;> decide

theorem daysBeforeMonth_mono (y : Int) {m n : Nat} (h : m ≤ n) : daysBeforeMonth y m ≤ daysBeforeMonth y n := by
  induction h with
  | refl => exact Int.le_refl _
  | step h ih =>
    rename_i n
    have hpos := monthDays_pos y n
    rw [daysBeforeMonth]
    omega

theorem daysBeforeMonth_year (y : Int) : daysBeforeMonth y 12 = yearDays y := by
  have hsum : daysBeforeMonth y 12 = 31 + monthDays y 1 + 306 := by
    show 0 + 31 + monthDays y 1 + 31 + 30 + 31 + 30 + 31 + 31 + 30 + 31 + 30 + 31 = _
    omega
  rw [hsum, monthDays, yearDays, if_pos rfl]
  split_ifs <;> rfl

theorem daysBeforeYear_succ (y : Int) : daysBeforeYear (y + 1) = daysBeforeYear y + yearDays y := by
  rw [daysBeforeYear, daysBeforeYear, yearDays]
  split_ifs <;> omega

theorem daysBeforeYear_lt {y z : Int} (h : y < z) : daysBeforeYear y + yearDays y ≤ daysBeforeYear z := by
  rw [← daysBeforeYear_succ, daysBeforeYear, daysBeforeYear]
  omega

variable {t u : DateTime}

/-- A day lies in its year. -/
theorem DateTime.Valid.day_in_year (h : t.Valid) :
    daysBeforeYear t.year ≤ t.dayNumber ∧ t.dayNumber < daysBeforeYear t.year + yearDays t.year := by
  have hstart : 0 ≤ daysBeforeMonth t.year t.month := daysBeforeMonth_mono t.year (Nat.zero_le t.month)
  have hend : daysBeforeMonth t.year t.month + monthDays t.year t.month ≤ daysBeforeMonth t.year 12 :=
    daysBeforeMonth_mono t.year (Nat.succ_le_of_lt h.month)
  rw [daysBeforeMonth_year] at hend
  have hday := h.day
  rw [dayNumber]
  omega

theorem DateTime.Valid.time_in_day (h : t.Valid) : 0 ≤ t.timeOfDay ∧ t.timeOfDay < 86400 := by
  have hhour := h.hour
  have hminute := h.minute
  have hsecond := h.second
  rw [timeOfDay]
  omega

/-- A date before another has the smaller number. -/
theorem dayNumber_lt (ht : t.Valid) (hu : u.Valid)
    (h : t.year < u.year ∨ t.year = u.year ∧ (t.month < u.month ∨ t.month = u.month ∧ t.day < u.day)) :
    t.dayNumber < u.dayNumber := by
  obtain hyear | ⟨hyear, hmonth | ⟨hmonth, hday⟩⟩ := h
  · have hgap := daysBeforeYear_lt hyear
    have htday := ht.day_in_year.2
    have huday := hu.day_in_year.1
    omega
  · have hgap : daysBeforeMonth t.year t.month + monthDays t.year t.month ≤ daysBeforeMonth t.year u.month :=
      daysBeforeMonth_mono t.year (Nat.succ_le_of_lt hmonth)
    have htday := ht.day
    have huday := hu.day
    rw [DateTime.dayNumber, DateTime.dayNumber, ← hyear]
    omega
  · rw [DateTime.dayNumber, DateTime.dayNumber, ← hyear, ← hmonth]
    omega

theorem Before.instant_lt (ht : t.Valid) (hu : u.Valid) (h : t.Before u) : t.instant < u.instant := by
  have htime := ht.time_in_day
  have hutime := hu.time_in_day
  have hlater : t.dayNumber < u.dayNumber → t.instant < u.instant := by
    intro hday
    rw [DateTime.instant, DateTime.instant]
    omega
  obtain hyear | ⟨hyear, hmonth | ⟨hmonth, hday | ⟨hday, hclock⟩⟩⟩ := h
  · exact hlater (dayNumber_lt ht hu (Or.inl hyear))
  · exact hlater (dayNumber_lt ht hu (Or.inr ⟨hyear, Or.inl hmonth⟩))
  · exact hlater (dayNumber_lt ht hu (Or.inr ⟨hyear, Or.inr ⟨hmonth, hday⟩⟩))
  · have hsame : t.dayNumber = u.dayNumber := by
      rw [DateTime.dayNumber, DateTime.dayNumber, hyear, hmonth, hday]
    have hthour := ht.hour
    have htminute := ht.minute
    have htsecond := ht.second
    have huhour := hu.hour
    have huminute := hu.minute
    have husecond := hu.second
    rw [DateTime.instant, DateTime.instant, hsame, DateTime.timeOfDay, DateTime.timeOfDay]
    omega

theorem before_total (t u : DateTime) : t.Before u ∨ u.Before t ∨ t = u := by
  by_cases hsame : t.year = u.year ∧ t.month = u.month ∧ t.day = u.day ∧ t.hour = u.hour ∧ t.minute = u.minute ∧
      t.second = u.second
  · cases t
    cases u
    obtain ⟨rfl, rfl, rfl, rfl, rfl, rfl⟩ := hsame
    exact Or.inr (Or.inr rfl)
  · have hdiff : t.Before u ∨ u.Before t := by
      rw [DateTime.Before, DateTime.Before]
      omega
    exact hdiff.imp_right Or.inl

/-- Field by field, dates and times are in the order of their instants. -/
theorem before_iff (ht : t.Valid) (hu : u.Valid) : t.Before u ↔ t.instant < u.instant := by
  refine ⟨Before.instant_lt ht hu, fun h => ?_⟩
  obtain hbefore | hafter | rfl := before_total t u
  · exact hbefore
  · have hlt := Before.instant_lt hu ht hafter
    omega
  · exact absurd h (Int.lt_irrefl _)

end Calendar
