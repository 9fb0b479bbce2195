import Mathlib.Tactic.IntervalCases
/-!
# The Gregorian calendar

Days before and after 1970-01-01 as dates, and back. `makeDay` counts the days
of a date from the year's first, as the ECMAScript standard does; `civil` finds
the date of a day in eras of 400 years that start in March, so that the leap
day is a year's last. `makeDay_civil` says that the two agree.
-/

namespace FlashSale.Lib.Calendar

/-- A date; months and days count from one. -/
structure Civil where
  year : Int
  month : Nat
  day : Nat
deriving DecidableEq

def IsLeap (year : Int) : Prop := year % 4 = 0 ∧ (year % 100 ≠ 0 ∨ year % 400 = 0)

instance (year : Int) : Decidable (IsLeap year) := inferInstanceAs (Decidable (_ ∧ _))

/-! ## From a date to its day -/

/-- The day of the year's first of January. -/
def dayFromYear (year : Int) : Int :=
  365 * (year - 1970) + (year - 1969) / 4 - (year - 1901) / 100 + (year - 1601) / 400

/-- The days of a common year before the month. -/
def daysBefore : Nat → Nat
  | 1 => 0 | 2 => 31 | 3 => 59 | 4 => 90 | 5 => 120 | 6 => 151
  | 7 => 181 | 8 => 212 | 9 => 243 | 10 => 273 | 11 => 304 | _ => 334

def daysIn (year : Int) : Nat → Nat
  | 2 => if IsLeap year then 29 else 28
  | 4 | 6 | 9 | 11 => 30
  | _ => 31

def makeDay (date : Civil) : Int :=
  dayFromYear date.year + daysBefore date.month + (if 2 < date.month ∧ IsLeap date.year then 1 else 0) + date.day - 1

structure Civil.Valid (date : Civil) : Prop where
  month_pos : 1 ≤ date.month
  month_le : date.month ≤ 12
  day_pos : 1 ≤ date.day
  day_le : date.day ≤ daysIn date.year date.month

instance (date : Civil) : Decidable date.Valid :=
  decidable_of_iff (1 ≤ date.month ∧ date.month ≤ 12 ∧ 1 ≤ date.day ∧ date.day ≤ daysIn date.year date.month)
    ⟨fun ⟨a, b, c, d⟩ => ⟨a, b, c, d⟩, fun ⟨a, b, c, d⟩ => ⟨a, b, c, d⟩⟩

/-! ## From a day to its date -/

/-- The month that comes `march` months after March. -/
def monthOf (march : Nat) : Nat := if march < 10 then march + 3 else march - 9

/-- The date of a day of a year that starts in March of `year`. -/
def ofMarch (year : Int) (dayOfYear : Nat) : Civil :=
  let march := (5 * dayOfYear + 2) / 153
  ⟨year + if monthOf march ≤ 2 then 1 else 0, monthOf march, dayOfYear - (153 * march + 2) / 5 + 1⟩

/-- The date of a day. -/
def civil (days : Int) : Civil :=
  let day := days + 719468
  let dayOfEra := (day % 146097).toNat
  let yearOfEra := (dayOfEra - dayOfEra / 1460 + dayOfEra / 36524 - dayOfEra / 146096) / 365
  ofMarch (day / 146097 * 400 + yearOfEra) (dayOfEra - (365 * yearOfEra + yearOfEra / 4 - yearOfEra / 100))

/-! ## An era -/

/-- A day of an era by its century, its cycle of four years, the year of that
and the day of the year. Only a leap year has a last day 365. -/
theorem era_split {dayOfEra : Nat} (h : dayOfEra < 146097) : ∃ c q y doy : Nat, c < 4 ∧ q < 25 ∧ y < 4 ∧ doy ≤ 365 ∧
    (doy = 365 → y = 3 ∧ (q = 24 → c = 3)) ∧ dayOfEra = 36524 * c + 1461 * q + 365 * y + doy := by
  let c := min 3 (dayOfEra / 36524)
  let r := dayOfEra - 36524 * c
  let y := min 3 (r % 1461 / 365)
  refine ⟨c, r / 1461, y, r % 1461 - 365 * y, ?_, ?_, ?_, ?_, ?_, ?_⟩ <;> omega

section
variable {c q y doy dayOfEra : Nat}

theorem yearOfEra_eq (hc : c < 4) (hq : q < 25) (hy : y < 4) (hd : doy ≤ 365)
    (hlast : doy = 365 → y = 3 ∧ (q = 24 → c = 3)) (h : dayOfEra = 36524 * c + 1461 * q + 365 * y + doy) :
    (dayOfEra - dayOfEra / 1460 + dayOfEra / 36524 - dayOfEra / 146096) / 365 = 100 * c + 4 * q + y := by
  by_cases hend : dayOfEra = 146096
  · subst hend
    omega
  · have hcentury : dayOfEra / 36524 = c := Nat.div_eq_of_lt_le (by omega) (by omega)
    have hera : dayOfEra / 146096 = 0 := Nat.div_eq_of_lt (by omega)
    rw [hcentury, hera]
    -- A leap cycle in which 1460 days have passed counts for one more.
    by_cases hcycle : 1460 ≤ 24 * c + q + 365 * y + doy
    · have hcycles : dayOfEra / 1460 = 25 * c + q + 1 := Nat.div_eq_of_lt_le (by omega) (by omega)
      rw [hcycles]
      exact Nat.div_eq_of_lt_le (by omega) (by omega)
    · have hcycles : dayOfEra / 1460 = 25 * c + q := Nat.div_eq_of_lt_le (by omega) (by omega)
      rw [hcycles]
      exact Nat.div_eq_of_lt_le (by omega) (by omega)

theorem dayOfYear_eq (hq : q < 25) (hy : y < 4)
    (h : dayOfEra = 36524 * c + 1461 * q + 365 * y + doy) :
    dayOfEra - (365 * (100 * c + 4 * q + y) + (100 * c + 4 * q + y) / 4 - (100 * c + 4 * q + y) / 100) = doy := by
  have hfour : (100 * c + 4 * q + y) / 4 = 25 * c + q := by omega
  have hcentury : (100 * c + 4 * q + y) / 100 = c := by omega
  omega

end

/-! ## Days and dates -/

/-- Every day is one of a year that starts in March. -/
theorem civil_split (days : Int) : ∃ (era : Int) (c q y doy : Nat), c < 4 ∧ q < 25 ∧ y < 4 ∧ doy ≤ 365 ∧
    (doy = 365 → y = 3 ∧ (q = 24 → c = 3)) ∧
    days + 719468 = era * 146097 + (36524 * c + 1461 * q + 365 * y + doy : Nat) ∧
    civil days = ofMarch (era * 400 + (100 * c + 4 * q + y : Nat)) doy := by
  have hlt : ((days + 719468) % 146097).toNat < 146097 := by omega
  have hera : days + 719468 = (days + 719468) / 146097 * 146097 + ((days + 719468) % 146097).toNat := by omega
  obtain ⟨c, q, y, doy, hc, hq, hy, hd, hlast, hsplit⟩ := era_split hlt
  have hyear := yearOfEra_eq hc hq hy hd hlast hsplit
  have hday := dayOfYear_eq hq hy hsplit
  refine ⟨(days + 719468) / 146097, c, q, y, doy, hc, hq, hy, hd, hlast, by rw [← hsplit]; exact hera, ?_⟩
  simp only [civil]
  rw [hyear, hday]

theorem dayFromYear_succ (year : Int) :
    dayFromYear (year + 1) = dayFromYear year + 365 + if IsLeap year then 1 else 0 := by
  by_cases h : IsLeap year
  · rw [if_pos h]
    unfold IsLeap at h
    unfold dayFromYear
    omega
  · rw [if_neg h]
    unfold IsLeap at h
    unfold dayFromYear
    omega

/-- The first of March of a year, 306 days before the next year. -/
theorem dayFromYear_march (era : Int) {c q y : Nat} (hc : c < 4) (hq : q < 25) (hy : y < 4) :
    dayFromYear (era * 400 + (100 * c + 4 * q + y : Nat) + 1) =
      era * 146097 + (36524 * c + 1461 * q + 365 * y : Nat) - 719468 + 306 := by
  unfold dayFromYear
  have hfour : (era * 400 + (100 * c + 4 * q + y : Nat) + 1 - 1969) / 4 = era * 100 + 25 * c + q - 492 := by omega
  have hcentury : (era * 400 + (100 * c + 4 * q + y : Nat) + 1 - 1901) / 100 = era * 4 + c - 19 := by omega
  have hera : (era * 400 + (100 * c + 4 * q + y : Nat) + 1 - 1601) / 400 = era - 4 := by omega
  rw [hfour, hcentury, hera]
  omega

/-- Where a month starts in a year that starts in March. -/
theorem daysBefore_march {march : Nat} (h : march ≤ 11) :
    (daysBefore (monthOf march) : Int) = ((153 * march + 2) / 5 : Nat) + if march < 10 then 59 else -306 := by
  interval_cases march <;> decide

/-- How long a month is in a year that starts in March: all but the last. -/
theorem daysIn_march (year : Int) {march : Nat} (h : march < 11) :
    daysIn year (monthOf march) = (153 * (march + 1) + 2) / 5 - (153 * march + 2) / 5 := by
  interval_cases march <;> rfl

/-- A day of a year that starts in March, counted from the next year's first. -/
theorem makeDay_march (year : Int) {march doy : Nat} (h : march ≤ 11) (hfirst : (153 * march + 2) / 5 ≤ doy) :
    makeDay ⟨year + if monthOf march ≤ 2 then 1 else 0, monthOf march, doy - (153 * march + 2) / 5 + 1⟩ =
      dayFromYear (year + 1) - 306 + doy := by
  have hsucc := dayFromYear_succ year
  simp only [makeDay]
  rw [daysBefore_march h]
  by_cases hspring : march < 10
  · have hmonth : monthOf march = march + 3 := if_pos hspring
    rw [hmonth, if_neg (by omega : ¬ march + 3 ≤ 2), if_pos hspring, Int.add_zero]
    by_cases hleap : IsLeap year
    · rw [if_pos hleap] at hsucc
      rw [if_pos ⟨by omega, hleap⟩]
      omega
    · rw [if_neg hleap] at hsucc
      rw [if_neg fun hboth => hleap hboth.2]
      omega
  · have hmonth : monthOf march = march - 9 := if_neg hspring
    rw [hmonth, if_pos (by omega : march - 9 ≤ 2), if_neg hspring, if_neg fun hboth => absurd hboth.1 (by omega)]
    omega

/-- The day of the date of a day is that day. -/
theorem makeDay_civil (days : Int) : makeDay (civil days) = days := by
  obtain ⟨era, c, q, y, doy, hc, hq, hy, hd, -, hdays, hcivil⟩ := civil_split days
  have hnext := dayFromYear_march era hc hq hy
  rw [hcivil, ofMarch, makeDay_march _ (by omega) (by omega), hnext]
  omega

/-- A month of a year that starts in March has the days before the next month;
the last month has a last day in a leap year. -/
theorem day_le_march (year : Int) {march doy : Nat} (h : march ≤ 11) (hfirst : (153 * march + 2) / 5 ≤ doy)
    (hnext : doy < (153 * (march + 1) + 2) / 5) (hd : doy ≤ 365) (hlast : doy = 365 → IsLeap (year + 1)) :
    doy - (153 * march + 2) / 5 + 1 ≤ daysIn (year + if monthOf march ≤ 2 then 1 else 0) (monthOf march) := by
  by_cases hfebruary : march = 11
  · subst hfebruary
    show doy - 337 + 1 ≤ if IsLeap (year + 1) then 29 else 28
    by_cases hleap : IsLeap (year + 1)
    · rw [if_pos hleap]
      omega
    · have : doy ≠ 365 := fun he => hleap (hlast he)
      rw [if_neg hleap]
      omega
  · rw [daysIn_march _ (by omega)]
    omega

/-- The date of a day is a date of the calendar. -/
theorem civil_valid (days : Int) : (civil days).Valid := by
  obtain ⟨era, c, q, y, doy, hc, hq, hy, hd, hlast, -, hcivil⟩ := civil_split days
  have hleap : doy = 365 → IsLeap (era * 400 + (100 * c + 4 * q + y : Nat) + 1) := by
    intro hlong
    obtain ⟨rfl, hcentury⟩ := hlast hlong
    unfold IsLeap
    omega
  rw [hcivil]
  refine ⟨?_, ?_, Nat.le_add_left _ _, day_le_march _ (by omega) (by omega) (by omega) hd hleap⟩
  · show 1 ≤ monthOf _
    unfold monthOf
    split <;> omega
  · show monthOf _ ≤ 12
    unfold monthOf
    split <;> omega

end FlashSale.Lib.Calendar
