import Mathlib.Tactic.IntervalCases
import SecureInbox.Instant

/-! # Days and dates

The date of a day is a date that the calendar has, and the day of that date is the day again
(`isDate_dateOfDays`).  The calendar repeats after an era of four hundred years.  In an era a
day is told by its century, its four years, its year and its day in the year (`Place`), all
counted from March, and the formulas of `dateOfDays` find these parts without a case
split (`Place.year_eq`, `Place.start_eq`). -/
set_option autoImplicit false

namespace SecureInbox.Instant

/-- What a day of an era is made up of.  The last day of four years is there unless they end
a century, and then only at the end of the era. -/
structure Place (dayOfEra century four year day : Int) : Prop where
  sum : dayOfEra = 36524 * century + 1461 * four + 365 * year + day
  century_nonneg : 0 ≤ century
  century_le : century ≤ 3
  four_nonneg : 0 ≤ four
  four_le : four ≤ 24
  year_nonneg : 0 ≤ year
  year_le : year ≤ 3
  day_nonneg : 0 ≤ day
  day_le : day ≤ 365
  leap : day = 365 → year = 3 ∧ (four = 24 → century = 3)

theorem exists_place {dayOfEra : Int} (low : 0 ≤ dayOfEra) (high : dayOfEra < 146097) :
    ∃ century four year day, Place dayOfEra century four year day := by
  obtain ⟨century, isCentury⟩ : ∃ c, c = min (dayOfEra / 36524) 3 := ⟨_, rfl⟩
  obtain ⟨four, isFour⟩ : ∃ q, q = (dayOfEra - 36524 * century) / 1461 := ⟨_, rfl⟩
  obtain ⟨year, isYear⟩ : ∃ y, y = min ((dayOfEra - 36524 * century - 1461 * four) / 365) 3 :=
    ⟨_, rfl⟩
  refine ⟨century, four, year, dayOfEra - 36524 * century - 1461 * four - 365 * year, ?_⟩
  constructor <;> omega

namespace Place

variable {dayOfEra century four year day : Int}

/-- The years of the era before a day. -/
theorem year_eq (p : Place dayOfEra century four year day) :
    (dayOfEra - dayOfEra / 1460 + dayOfEra / 36524 - dayOfEra / 146096) / 365 =
      100 * century + 4 * four + year := by
  obtain ⟨sum, _, _, _, _, _, _, _, _, leap⟩ := p
  have fours : dayOfEra / 1460 =
      25 * century + four + (24 * century + four + 365 * year + day) / 1460 := by omega
  have centuries : dayOfEra / 36524 - dayOfEra / 146096 = century := by
    by_cases last : dayOfEra = 146096 <;> omega
  have atMost : (24 * century + four + 365 * year + day) / 1460 ≤ 1 := by omega
  omega

/-- The days of the era before the year of a day. -/
theorem start_eq (p : Place dayOfEra century four year day) :
    365 * (100 * century + 4 * four + year) + (100 * century + 4 * four + year) / 4 -
      (100 * century + 4 * four + year) / 100 = dayOfEra - day := by
  obtain ⟨sum, _, _, _, _, _, _, _, _, _⟩ := p
  omega

end Place

def eraStart (era : Int) : Int := 146097 * era - 719468

/-- The months of a year before a day of it, counted from March. -/
def monthOf (day : Int) : Int := (5 * day + 2) / 153

def monthStart (month : Int) : Int := (153 * month + 2) / 5

def calendarMonth (month : Int) : Nat := (if month < 10 then month + 3 else month - 9).toNat

/-- The year of the calendar, in which the last two months after March come first. -/
def calendarYear (era century four year month : Int) : Int :=
  400 * era + 100 * century + 4 * four + year + (if month < 10 then 0 else 1)

/-- A day of a year is in one of its months. -/
theorem monthOf_bounds {day : Int} (low : 0 ≤ day) (high : day ≤ 365) :
    0 ≤ monthOf day ∧ monthOf day ≤ 11 ∧
      monthStart (monthOf day) ≤ day ∧ day < monthStart (monthOf day + 1) := by
  simp only [monthOf, monthStart]
  omega

structure IsDate (days year : Int) (month day : Nat) : Prop where
  month_pos : 1 ≤ month
  month_le : month ≤ 12
  day_pos : 1 ≤ day
  day_le : day ≤ daysInMonth year month
  days_eq : daysOfDate year month day = days

/-- Every month but February ends where the next one starts. -/
theorem daysInMonth_eq {month : Int} (low : 0 ≤ month) (high : month ≤ 10) (year : Int) :
    (daysInMonth year (calendarMonth month) : Int) = monthStart (month + 1) - monthStart month := by
  interval_cases month <;> rfl

/-- The February that ends the last of four years is that of a leap year, unless these years
end a century and not the era. -/
theorem isLeapYear_next {era century four : Int} (low : 0 ≤ four) (high : four ≤ 24)
    (last : four = 24 → century = 3) : isLeapYear (calendarYear era century four 3 11) = true := by
  have next : calendarYear era century four 3 11 = 400 * era + 100 * century + 4 * four + 4 := by
    rw [calendarYear, if_neg (by decide)]
    omega
  simp only [next, isLeapYear, Bool.and_eq_true, Bool.or_eq_true, beq_iff_eq, bne_iff_ne]
  omega

namespace Place

variable {era dayOfEra century four year day : Int}

theorem dateOfDays_eq (p : Place dayOfEra century four year day) :
    dateOfDays (eraStart era + dayOfEra) =
      (calendarYear era century four year (monthOf day), calendarMonth (monthOf day),
        (day - monthStart (monthOf day) + 1).toNat) := by
  have days : eraStart era + dayOfEra + 719468 = 146097 * era + dayOfEra := by
    rw [eraStart]
    omega
  obtain ⟨low, high⟩ : 0 ≤ dayOfEra ∧ dayOfEra < 146097 := by
    obtain ⟨_, _, _, _, _, _, _, _, _, _⟩ := p
    omega
  have isEra : (146097 * era + dayOfEra) / 146097 = era := by omega
  have isRest : (146097 * era + dayOfEra) % 146097 = dayOfEra := by omega
  have isDay : dayOfEra - (dayOfEra - day) = day := by omega
  have month := monthOf_bounds p.day_nonneg p.day_le
  simp only [dateOfDays, days, isEra, isRest, p.year_eq, p.start_eq, isDay]
  show (if (if monthOf day < 10 then monthOf day + 3 else monthOf day - 9) ≤ 2 then _ else _,
    _, _) = _
  refine Prod.ext ?_ rfl
  simp only [calendarYear]
  split <;> split <;> omega

theorem daysOfDate_eq (p : Place dayOfEra century four year day) :
    daysOfDate (calendarYear era century four year (monthOf day)) (calendarMonth (monthOf day))
      (day - monthStart (monthOf day) + 1).toNat = eraStart era + dayOfEra := by
  obtain ⟨low, high, first, _⟩ := monthOf_bounds p.day_nonneg p.day_le
  have start := p.start_eq
  obtain ⟨_, _, _, _, _, _, _, _, _, _⟩ := p
  obtain ⟨whole, isWhole⟩ : ∃ w, w = 100 * century + 4 * four + year := ⟨_, rfl⟩
  have isYear : (if calendarMonth (monthOf day) ≤ 2
      then calendarYear era century four year (monthOf day) - 1
      else calendarYear era century four year (monthOf day)) = 400 * era + whole := by
    simp only [calendarMonth, calendarYear]
    split <;> split <;> omega
  have isMonth : ((calendarMonth (monthOf day) : Int) + 9) % 12 = monthOf day := by
    simp only [calendarMonth]
    omega
  have isEra : (400 * era + whole) / 400 = era := by omega
  have isRest : (400 * era + whole) % 400 = whole := by omega
  rw [← isWhole] at start
  simp only [daysOfDate, isYear, isEra, isRest, isMonth, eraStart]
  simp only [monthStart] at first ⊢
  omega

/-- February has its last day in leap years only. -/
theorem day_le_february (p : Place dayOfEra century four year day) :
    (day - monthStart 11 + 1).toNat ≤ daysInMonth (calendarYear era century four year 11) 2 := by
  obtain ⟨_, _, _, fourLow, fourHigh, _, _, _, atMost, leap⟩ := p
  have start : monthStart 11 = 337 := rfl
  by_cases last : day = 365
  · obtain ⟨rfl, century⟩ := leap last
    have isLeap : isLeapYear (calendarYear era _ four 3 11) = true :=
      isLeapYear_next fourLow fourHigh century
    simp only [daysInMonth, isLeap, if_true]
    omega
  · simp only [daysInMonth, if_true]
    split <;> omega

theorem isDate (p : Place dayOfEra century four year day) :
    IsDate (eraStart era + dayOfEra) (calendarYear era century four year (monthOf day))
      (calendarMonth (monthOf day)) (day - monthStart (monthOf day) + 1).toNat := by
  obtain ⟨low, high, first, next⟩ := monthOf_bounds p.day_nonneg p.day_le
  refine ⟨?_, ?_, by omega, ?_, p.daysOfDate_eq⟩
  · simp only [calendarMonth]
    omega
  · simp only [calendarMonth]
    omega
  · by_cases february : monthOf day = 11
    · rw [february]
      exact p.day_le_february
    · have length := daysInMonth_eq low (by omega)
        (calendarYear era century four year (monthOf day))
      omega

end Place

theorem exists_era (days : Int) : ∃ era rest century four year day,
    days = eraStart era + rest ∧ Place rest century four year day := by
  obtain ⟨century, four, year, day, p⟩ := exists_place
    (show 0 ≤ (days + 719468) % 146097 by omega) (by omega)
  refine ⟨(days + 719468) / 146097, _, century, four, year, day, ?_, p⟩
  rw [eraStart]
  omega

/-- The date of a day is a date of the calendar, and is that day. -/
theorem isDate_dateOfDays (days : Int) :
    IsDate days (dateOfDays days).1 (dateOfDays days).2.1 (dateOfDays days).2.2 := by
  obtain ⟨era, rest, century, four, year, day, rfl, p⟩ := exists_era days
  rw [p.dateOfDays_eq]
  exact p.isDate

/-- The days that instants can be on are those of the years that instants can have. -/
theorem year_bounds {days : Int} (low : daysOfDate (-262143) 1 1 ≤ days)
    (high : days < daysOfDate 262143 1 1) :
    -262143 ≤ (dateOfDays days).1 ∧ (dateOfDays days).1 ≤ 262142 := by
  have first : daysOfDate (-262143) 1 1 = -96465292 := rfl
  have last : daysOfDate 262143 1 1 = 95026237 := rfl
  obtain ⟨era, rest, century, four, year, day, rfl, p⟩ := exists_era days
  obtain ⟨_, _, start, next⟩ := monthOf_bounds p.day_nonneg p.day_le
  rw [p.dateOfDays_eq]
  simp only [calendarYear, eraStart, monthStart] at *
  obtain ⟨_, _, _, _, _, _, _, _, _, _⟩ := p
  -- Years and days are compared era by era, and century by century in the outermost ones.
  constructor
  · by_cases outer : era = -656
    · by_cases century = 2 <;> omega
    · omega
  · by_cases outer : era = 655
    · by_cases century = 1 <;> omega
    · omega

end SecureInbox.Instant
