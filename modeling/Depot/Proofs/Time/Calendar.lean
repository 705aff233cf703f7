import Depot.Time.Calendar
import Mathlib.Tactic.IntervalCases

/-!
# Days and dates

Every day has a date, the date is one of the calendar, and it has the number of that day
(`toDays_ofDays`, `isValid_ofDays`). A day is taken apart into 400 years, a year of these that
begins in March, and a day of that year (`exists_march`); the 366th day is only there in years that
end with a leap day.
-/

set_option autoImplicit false

namespace Depot.Time

/-- The days of the first `year` years of 400, with the leap days at their ends. -/
def daysBefore (year : Nat) : Nat := year * 365 + (year / 4 - year / 100)

/-- The date of a day of a year that begins in March. -/
def Date.ofMarch (year : Int) (day : Nat) : Date where
  year := if monthOfDay day < 10 then year else year + 1
  month := if monthOfDay day < 10 then monthOfDay day + 3 else monthOfDay day - 9
  day := day - monthStart (monthOfDay day) + 1

/-- A year of 400 that ends with a leap day: its February is one of a leap year. -/
def IsLong (year : Nat) : Prop := year % 4 = 3 ∧ (year % 100 = 99 → year = 399)

/-- A day of 400 years is a day of one of these years. -/
theorem exists_year {day : Nat} (h : day < daysPerEra) :
    let century := min (day / daysPerCentury) 3
    let ofCentury := day - century * daysPerCentury
    let quad := ofCentury / daysPerQuad
    let ofQuad := ofCentury - quad * daysPerQuad
    let yearOfQuad := min (ofQuad / 365) 3
    let ofYear := ofQuad - yearOfQuad * 365
    let year := century * 100 + quad * 4 + yearOfQuad
    day = daysBefore year + ofYear ∧ year < 400 ∧ ofYear ≤ 365 ∧ (ofYear = 365 → IsLong year) := by
  intro century ofCentury quad ofQuad yearOfQuad ofYear year
  simp only [daysPerEra] at h
  have hday : day = century * 36524 + ofCentury := by
    simp only [ofCentury, century, daysPerCentury]
    omega
  have hcentury : century ≤ 3 ∧ ofCentury ≤ 36524 ∧ (ofCentury = 36524 → century = 3) := by
    simp only [ofCentury, century, daysPerCentury]
    omega
  have hquad : ofCentury = quad * 1461 + ofQuad ∧ ofQuad < 1461 := by
    simp only [ofQuad, quad, daysPerQuad]
    omega
  have hyear : ofQuad = yearOfQuad * 365 + ofYear ∧ yearOfQuad ≤ 3 ∧ ofYear ≤ 365 ∧
      (ofYear = 365 → yearOfQuad = 3) := by
    simp only [ofYear, yearOfQuad]
    omega
  have hquads : quad ≤ 24 := by omega
  -- the leap days of the years before are those of the whole quads and centuries
  have hleaps : year / 4 = century * 25 + quad ∧ year / 100 = century := by
    simp only [year]
    omega
  have hrest : year % 4 = yearOfQuad ∧ year % 100 = quad * 4 + yearOfQuad := by
    simp only [year]
    omega
  have hvalue : year = century * 100 + quad * 4 + yearOfQuad := rfl
  clear_value century ofCentury quad ofQuad yearOfQuad ofYear year
  simp only [daysBefore, IsLong]
  omega

/-- A day is one of a year that begins in March. -/
theorem exists_march (days : Int) :
    ∃ (era : Int) (year day : Nat),
      days + epochDays = era * daysPerEra + (daysBefore year + day : Nat) ∧ year < 400 ∧ day ≤ 365 ∧
      (day = 365 → IsLong year) ∧ Date.ofDays days = Date.ofMarch (era * 400 + year) day := by
  have hlt : ((days + epochDays) % daysPerEra).toNat < daysPerEra := by
    simp only [daysPerEra, epochDays]
    omega
  obtain ⟨hday, hyear, hle, hlong⟩ := exists_year hlt
  refine ⟨(days + epochDays) / daysPerEra, _, _, ?_, hyear, hle, hlong, rfl⟩
  rw [← hday]
  simp only [daysPerEra, epochDays]
  omega

/-! ## Months -/

theorem monthOfDay_le {day : Nat} (h : day ≤ 365) : monthOfDay day ≤ 11 := by
  simp only [monthOfDay]
  omega

/-- The month of a day has begun, and the next one has not. -/
theorem monthStart_le (day : Nat) :
    monthStart (monthOfDay day) ≤ day ∧ day < monthStart (monthOfDay day + 1) := by
  simp only [monthStart, monthOfDay]
  omega

/-- The date of a day of a year that begins in March has the number of that day. -/
theorem toDays_ofMarch {era : Int} {year day : Nat} (hyear : year < 400) (hday : day ≤ 365) :
    (Date.ofMarch (era * 400 + year) day).toDays =
      era * daysPerEra + (daysBefore year + day : Nat) - epochDays := by
  have hmonth := monthOfDay_le hday
  obtain ⟨hstart, -⟩ := monthStart_le day
  have hera : (era * 400 + (year : Int)) / 400 = era := by omega
  have hofEra : ((era * 400 + (year : Int)) % 400).toNat = year := by omega
  by_cases hm : monthOfDay day < 10
  · have hnot : ¬ monthOfDay day + 3 ≤ 2 := by omega
    have hback : monthOfDay day + 3 - 3 = monthOfDay day := by omega
    simp only [Date.ofMarch, Date.toDays, if_pos hm, if_neg hnot, hera, hofEra, hback, daysBefore]
    omega
  · have hle : monthOfDay day - 9 ≤ 2 := by omega
    have hback : monthOfDay day - 9 + 9 = monthOfDay day := by omega
    have hless : era * 400 + (year : Int) + 1 - 1 = era * 400 + year := by omega
    simp only [Date.ofMarch, Date.toDays, if_neg hm, if_pos hle, hless, hera, hofEra, hback,
      daysBefore]
    omega

theorem isLeapYear_of_isLong {era : Int} {year : Nat} (h : IsLong year) :
    isLeapYear (era * 400 + year + 1) = true := by
  obtain ⟨hfour, hcentury⟩ := h
  have h4 : (era * 400 + (year : Int) + 1) % 4 = 0 := by omega
  have h100 : (era * 400 + (year : Int) + 1) % 100 = 0 → year = 399 := by omega
  have h400 : year = 399 → (era * 400 + (year : Int) + 1) % 400 = 0 := by omega
  simp only [isLeapYear, h4, decide_true, Bool.true_and, Bool.or_eq_true, decide_eq_true_eq]
  by_cases hc : (era * 400 + (year : Int) + 1) % 100 = 0
  · exact Or.inr (h400 (h100 hc))
  · exact Or.inl hc

/-- The day is in its month, which has as many days as it takes. -/
theorem isValid_ofMarch {era : Int} {year day : Nat} (hday : day ≤ 365)
    (hlong : day = 365 → IsLong year) : (Date.ofMarch (era * 400 + year) day).isValid = true := by
  have hmonth := monthOfDay_le hday
  obtain ⟨hstart, hend⟩ := monthStart_le day
  simp only [Date.isValid, Bool.and_eq_true, decide_eq_true_eq]
  simp only [Date.ofMarch]
  have hfit : day - monthStart (monthOfDay day) + 1 ≤
      daysInMonth (if monthOfDay day < 10 then era * 400 + year else era * 400 + year + 1)
        (if monthOfDay day < 10 then monthOfDay day + 3 else monthOfDay day - 9) := by
    by_cases hlast : day = 365
    · -- the leap day
      have hleap : isLeapYear (era * 400 + year + 1) = true := isLeapYear_of_isLong (hlong hlast)
      subst hlast
      simp only [monthOfDay, monthStart, daysInMonth]
      simp [hleap]
    · have hlt : day < 365 := by omega
      generalize monthOfDay day = m at *
      have hdays : day - monthStart m + 1 ≤ monthStart (m + 1) - monthStart m := by omega
      clear hend
      interval_cases m <;> simp [daysInMonth, monthStart] at * <;> first | omega | (split <;> omega)
  refine ⟨⟨⟨?_, ?_⟩, ?_⟩, hfit⟩
  · split <;> omega
  · split <;> omega
  · omega

/-! ## Days -/

/-- The date of a day has the number of that day. -/
theorem toDays_ofDays (days : Int) : (Date.ofDays days).toDays = days := by
  obtain ⟨era, year, day, hdays, hyear, hday, -, heq⟩ := exists_march days
  rw [heq, toDays_ofMarch hyear hday]
  omega

/-- Every day has a date of the calendar. -/
theorem isValid_ofDays (days : Int) : (Date.ofDays days).isValid = true := by
  obtain ⟨era, year, day, -, -, hday, hlong, heq⟩ := exists_march days
  rw [heq]
  exact isValid_ofMarch hday hlong

/-- The years of the days between the second of January of the year −9999 and the last but one day
of the year 9999. -/
theorem year_ofDays_bounds {days : Int} (hmin : -4371587 ≤ days) (hmax : days ≤ 2932895) :
    -9999 ≤ (Date.ofDays days).year ∧ (Date.ofDays days).year ≤ 9999 := by
  obtain ⟨era, year, day, hdays, hyear, hday, hlong, heq⟩ := exists_march days
  rw [heq]
  simp only [daysBefore, daysPerEra, epochDays] at hdays
  have hmonth : monthOfDay day < 10 ↔ day < 306 := by
    simp only [monthOfDay]
    omega
  simp only [Date.ofMarch]
  by_cases hm : monthOfDay day < 10
  · rw [if_pos hm]
    rw [hmonth] at hm
    omega
  · -- January and February belong to the year that began in March before
    rw [if_neg hm]
    rw [hmonth] at hm
    omega

end Depot.Time
