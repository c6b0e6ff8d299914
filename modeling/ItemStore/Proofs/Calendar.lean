/-
The calendar and the number of a day.

`ofDays` finds the year of a day by a division that is corrected for leap days.  That it finds the
right one is not seen from the formula, but the formula never decreases, and at the first and at the
last day of each of the four hundred years of a cycle it can be evaluated: in between there is no
room for any other year.

What the conversion finds is kept as a `Position`, a number of days split into whole cycles, whole
years, whole months and days, where nothing that is split off would have made a further whole one.
So the first of these that differs decides between two days (`Position.calendarDay_lt`), the same
sum counts back to the number of days (`toDays_ofDays`), and the length of its year leaves a
February its leap day or not (`isValid_ofDays`).
-/
import Mathlib.Order.Monotone.Basic
import Mathlib.Tactic.IntervalCases
import Mathlib.Tactic.SplitIfs
import ItemStore.Instant.Calendar

namespace ItemStore.CalendarDay

/-- Days in the order of the calendar: by year, then by month, then by day. -/
instance : LT CalendarDay where
  lt d e := d.year < e.year ∨
    d.year = e.year ∧ (d.month < e.month ∨ d.month = e.month ∧ d.day < e.day)

/-! ### The year of a day -/

/-- The year, counted from the start of the cycle, of a day counted likewise. -/
def yearOfCycle (k : Nat) : Nat :=
  (k - k / 1460 + k / 36524 - k / 146096) / 365

/-- The days less one in each four years, and the centuries less one in four: neither ever
decreases. -/
theorem yearOfCycle_eq (k : Nat) :
    yearOfCycle k = ((k - k / 1460) + (k / 36524 - k / 36524 / 4)) / 365 := by
  rw [yearOfCycle, Nat.div_div_eq_div_mul, ← Nat.add_sub_assoc]
  rw [← Nat.div_div_eq_div_mul]
  exact Nat.div_le_self _ _

/-- A later day lies in no earlier year. -/
theorem yearOfCycle_mono : Monotone yearOfCycle := by
  intro k l h
  have hyears : k - k / 1460 ≤ l - l / 1460 := by omega
  have hcenturies : k / 36524 - k / 36524 / 4 ≤ l / 36524 - l / 36524 / 4 := by
    have := Nat.div_le_div_right (c := 36524) h
    omega
  rw [yearOfCycle_eq, yearOfCycle_eq]
  exact Nat.div_le_div_right (Nat.add_le_add hyears hcenturies)

theorem daysOfYears_mono : Monotone daysOfYears := by
  refine monotone_nat_of_le_succ fun y => ?_
  unfold daysOfYears
  omega

/-- A year begins with its first day. -/
theorem yearOfCycle_daysOfYears : ∀ y < 400, yearOfCycle (daysOfYears y) = y := by
  decide +kernel

/-- A year ends with the day before the first of the next. -/
theorem yearOfCycle_daysOfYears_succ_sub_one :
    ∀ y < 400, yearOfCycle (daysOfYears (y + 1) - 1) = y := by
  decide +kernel

theorem yearOfCycle_lt {k : Nat} (h : k < cycle) : yearOfCycle k < 400 :=
  (yearOfCycle_mono (Nat.le_sub_one_of_lt h)).trans_lt (by decide)

/-- The year of a day has begun. -/
theorem daysOfYears_yearOfCycle_le {k : Nat} (h : k < cycle) :
    daysOfYears (yearOfCycle k) ≤ k := by
  by_contra hlt
  -- Otherwise the day is at the latest the last of the year before.
  obtain ⟨y, hy⟩ : ∃ y, yearOfCycle k = y + 1 := by
    refine ⟨yearOfCycle k - 1, ?_⟩
    have : yearOfCycle k ≠ 0 := fun h0 => by simp [h0, daysOfYears] at hlt
    omega
  have hlast := yearOfCycle_daysOfYears_succ_sub_one y (by have := yearOfCycle_lt h; omega)
  have := yearOfCycle_mono (a := k) (b := daysOfYears (y + 1) - 1) (by rw [hy] at hlt; omega)
  omega

/-- The year of a day has not ended, unless it is the last of its cycle. -/
theorem lt_daysOfYears_yearOfCycle_succ {k : Nat} (h : yearOfCycle k < 399) :
    k < daysOfYears (yearOfCycle k + 1) := by
  by_contra hle
  have hfirst := yearOfCycle_daysOfYears (yearOfCycle k + 1) (by omega)
  have := yearOfCycle_mono (Nat.not_lt.mp hle)
  omega

/-! ### The month of a day -/

/-- The month, counted from March, of a day counted likewise. -/
def monthOfYear (k : Nat) : Nat :=
  (5 * k + 2) / 153

/-- The month of a day has begun. -/
theorem daysBefore_monthOfYear_le (k : Nat) : daysBefore (monthOfYear k) ≤ k := by
  unfold daysBefore monthOfYear
  omega

/-- The month of a day has not ended. -/
theorem lt_daysBefore_monthOfYear_succ (k : Nat) : k < daysBefore (monthOfYear k + 1) := by
  unfold daysBefore monthOfYear
  omega

theorem monthLength_le (year : Int) (month : Nat) : monthLength year month ≤ 31 := by
  unfold monthLength
  split_ifs <;> decide

theorem daysBefore_succ {m : Nat} (year : Int) (h : m < 10) :
    daysBefore (m + 1) = daysBefore m + monthLength year (m + 3) := by
  interval_cases m <;> rfl

theorem daysBefore_eleven (year : Int) : daysBefore 11 = daysBefore 10 + monthLength year 1 :=
  rfl

/-- A year ends with its February. -/
theorem daysOfYears_succ {y : Nat} (h : y < 399) (c : Int) :
    daysOfYears (y + 1) = daysOfYears y + daysBefore 11 + monthLength (c * 400 + y + 1) 2 := by
  unfold daysOfYears daysBefore monthLength isLeap
  simp only [Bool.and_eq_true, Bool.or_eq_true, decide_eq_true_eq, ↓reduceIte]
  split <;> omega

/-- The last February of a cycle has a leap day. -/
theorem cycle_eq (c : Int) :
    cycle = daysOfYears 399 + daysBefore 11 + monthLength (c * 400 + (399 : Nat) + 1) 2 := by
  unfold monthLength isLeap
  rw [if_pos rfl, if_pos]
  · rfl
  · simp only [Bool.and_eq_true, Bool.or_eq_true, decide_eq_true_eq]
    omega

/-! ### What the conversion finds -/

/-- A number of days as the calendar splits it: into cycles, years, months and days, each counted
from zero and from the first of March of the year 0. -/
structure Position (n : Int) where
  cycles : Int
  year : Nat
  month : Nat
  day : Nat
  eq : n + epoch = cycles * cycle + (daysOfYears year + (daysBefore month + day) : Nat)
  year_lt : year < 400
  month_lt : month < 12
  /-- The cycle has not ended. -/
  lt_cycle : daysOfYears year + (daysBefore month + day) < cycle
  /-- The year has not ended. -/
  lt_year : year < 399 → daysOfYears year + (daysBefore month + day) < daysOfYears (year + 1)
  /-- The month has not ended. -/
  lt_month : daysBefore month + day < daysBefore (month + 1)

/-- Whole years from the first of March of the year 0. -/
def Position.years {n : Int} (p : Position n) : Int :=
  p.cycles * 400 + p.year

/-- The day of the calendar at a position: January and February belong to the next year. -/
def Position.calendarDay {n : Int} (p : Position n) : CalendarDay :=
  if p.month < 10 then ⟨p.years, p.month + 3, p.day + 1⟩
  else ⟨p.years + 1, p.month - 9, p.day + 1⟩

/-- **The conversion splits a number of days as the calendar does.** -/
theorem exists_position (n : Int) : ∃ p : Position n, p.calendarDay = ofDays n := by
  obtain ⟨k, hk⟩ : ∃ k : Nat, (n + epoch) % cycle = k :=
    Int.eq_ofNat_of_zero_le (Int.emod_nonneg _ (by decide))
  have hlt : k < cycle := by
    have := Int.emod_lt_of_pos (n + epoch) (b := cycle) (by decide)
    omega
  have hsplit : n + epoch = (n + epoch) / cycle * cycle + k := by
    rw [← hk, Int.mul_comm, Int.mul_ediv_add_emod]
  have hyear := yearOfCycle_lt hlt
  have hended := @lt_daysOfYears_yearOfCycle_succ k
  obtain ⟨d, hd⟩ := Nat.exists_eq_add_of_le (daysOfYears_yearOfCycle_le hlt)
  have hday : d < 366 := by
    unfold daysOfYears cycle at *
    omega
  have hmonth := Nat.add_sub_cancel' (daysBefore_monthOfYear_le d)
  refine ⟨{
    cycles := (n + epoch) / cycle
    year := yearOfCycle k
    month := monthOfYear d
    day := d - daysBefore (monthOfYear d)
    eq := by rw [hmonth, ← hd]; exact hsplit
    year_lt := hyear
    month_lt := by unfold monthOfYear; omega
    lt_cycle := by rwa [hmonth, ← hd]
    lt_year := fun h => by rw [hmonth, ← hd]; exact hended h
    lt_month := by rw [hmonth]; exact lt_daysBefore_monthOfYear_succ d
  }, ?_⟩
  have hdayOfYear : k - daysOfYears (yearOfCycle k) = d := by omega
  rw [ofDays, hk, Int.toNat_natCast, ← yearOfCycle, hdayOfYear]
  dsimp only [Position.calendarDay, Position.years, monthOfYear]
  split
  · rw [Int.add_zero]
  · rfl

namespace Position

variable {n n' : Int} (p : Position n) (p' : Position n')

/-- Of two days the position decides: the year, then the month, then the day. -/
theorem lt_of_lt (h : n < n') : p.years < p'.years ∨
    p.years = p'.years ∧ (p.month < p'.month ∨ p.month = p'.month ∧ p.day < p'.day) := by
  have heq := p.eq
  have heq' := p'.eq
  have hlt := p.lt_cycle
  have hlt' := p'.lt_cycle
  have hcycles : p.cycles ≤ p'.cycles := by
    unfold cycle at *
    omega
  unfold years
  rcases hcycles.lt_or_eq with hless | hsame
  · have := p.year_lt
    omega
  rw [hsame] at heq ⊢
  have hrest : daysOfYears p.year + (daysBefore p.month + p.day) <
      daysOfYears p'.year + (daysBefore p'.month + p'.day) := by omega
  rcases Nat.lt_trichotomy p.year p'.year with hless | hsame | hmore
  · omega
  · have hmonth : daysBefore p.month + p.day < daysBefore p'.month + p'.day := by
      rw [hsame] at hrest
      omega
    have hended := p'.lt_month
    unfold daysBefore at hmonth hended
    omega
  · -- The earlier year would have ended.
    have hended := p'.lt_year (by have := p.year_lt; omega)
    have : daysOfYears (p'.year + 1) ≤ daysOfYears p.year := daysOfYears_mono hmore
    omega

/-- Of two days the calendar decides in the same way, for all that its year begins in January. -/
theorem calendarDay_lt (h : n < n') : p.calendarDay < p'.calendarDay := by
  have hlt := p.lt_of_lt p' h
  have hmonth := p.month_lt
  unfold calendarDay
  change (_ < _ ∨ _ = _ ∧ (_ < _ ∨ _ = _ ∧ _ < _) : Prop)
  split <;> split <;> dsimp only <;> omega

/-- Counting back from a position. -/
theorem toDays_calendarDay : p.calendarDay.toDays = n := by
  have heq := p.eq
  have hyear := p.year_lt
  have hmonth := p.month_lt
  have hcycles : p.years / 400 = p.cycles := by
    unfold years
    omega
  have hyear' : (p.years % 400).toNat = p.year := by
    unfold years
    omega
  unfold calendarDay toDays
  split <;> dsimp only
  · rw [if_neg (by omega), if_neg (by omega), hcycles, hyear', Nat.add_sub_cancel]
    omega
  · rw [if_pos (by omega), if_pos (by omega), Int.add_sub_cancel, hcycles, hyear',
      Nat.sub_add_cancel (by omega)]
    omega

/-- The month of a position is long enough for its day. -/
theorem day_lt_monthLength :
    p.day < monthLength p.calendarDay.year p.calendarDay.month := by
  have hended := p.lt_month
  have hmonth := p.month_lt
  unfold calendarDay
  split <;> dsimp only
  · rename_i h
    rw [daysBefore_succ p.years h] at hended
    omega
  rcases (by omega : p.month = 10 ∨ p.month = 11) with hjanuary | hfebruary
  · rw [hjanuary, daysBefore_eleven (p.years + 1)] at hended
    rw [hjanuary]
    change p.day < monthLength _ 1
    omega
  · have hyear := p.lt_year
    have hcycle := p.lt_cycle
    rw [hfebruary] at hyear hcycle ⊢
    change p.day < monthLength (p.cycles * 400 + p.year + 1) 2
    rcases (by have := p.year_lt; omega : p.year < 399 ∨ p.year = 399) with hless | hlast
    · have := hyear hless
      rw [daysOfYears_succ hless p.cycles] at this
      omega
    · rw [hlast, cycle_eq p.cycles] at hcycle
      rw [hlast]
      omega

/-- The day of a position is one of the calendar. -/
theorem isValid_calendarDay : p.calendarDay.isValid = true := by
  have hday := p.day_lt_monthLength
  have hmonth := p.month_lt
  unfold isValid
  simp only [Bool.and_eq_true, decide_eq_true_eq]
  refine ⟨⟨⟨?_, ?_⟩, ?_⟩, ?_⟩
  all_goals
    revert hday
    unfold calendarDay
    split <;> dsimp only <;> omega

end Position

/-! ### The days of the calendar -/

variable {n n' : Int}

/-- **A later day comes later in the calendar.** -/
theorem ofDays_lt_ofDays (h : n < n') : ofDays n < ofDays n' := by
  obtain ⟨p, hp⟩ := exists_position n
  obtain ⟨p', hp'⟩ := exists_position n'
  rw [← hp, ← hp']
  exact p.calendarDay_lt p' h

/-- **The calendar counts back** to the number of days it was asked for. -/
theorem toDays_ofDays (n : Int) : (ofDays n).toDays = n := by
  obtain ⟨p, hp⟩ := exists_position n
  rw [← hp, p.toDays_calendarDay]

/-- **Every number of days is a day of the calendar.** -/
theorem isValid_ofDays (n : Int) : (ofDays n).isValid = true := by
  obtain ⟨p, hp⟩ := exists_position n
  rw [← hp, p.isValid_calendarDay]

/-- The last day of a cycle is the leap day of its last February. -/
example : ofDays 11016 = ⟨2000, 2, 29⟩ ∧ (11016 + epoch) % cycle = cycle - 1 := by
  decide

theorem month_ofDays_le (n : Int) : (ofDays n).month ≤ 12 := by
  have hvalid := isValid_ofDays n
  simp only [isValid, Bool.and_eq_true, decide_eq_true_eq] at hvalid
  exact hvalid.1.1.2

theorem day_ofDays_le (n : Int) : (ofDays n).day ≤ 31 := by
  have hvalid := isValid_ofDays n
  simp only [isValid, Bool.and_eq_true, decide_eq_true_eq] at hvalid
  exact hvalid.2.trans (monthLength_le _ _)

end ItemStore.CalendarDay
