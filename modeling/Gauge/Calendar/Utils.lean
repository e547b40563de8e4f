import Gauge.Calendar.Packed

/-!
The calendar functions of `Utils.cpp`.

* `caculateWeekDay`, `getIdxOfDate`: the day of the week and the day of the year, which
  the program uses as array indexes.  `caculateWeekDay_mem` and `getIdxOfDate_mem` bound
  them for every valid date; `getIdxOfDate_zero` is what a date of zeros gives.
* `getDateByDiffDay`: the step to another date.
-/

namespace Gauge

/-- `Utils::CaculateWeekDay`: January and February count as months 13 and 14 of the year
before. -/
def caculateWeekDay (y m d : ℤ) : ℤ :=
  let (m, y) := if m = 1 then (13, y - 1) else (m, y)
  let (m, y) := if m = 2 then (14, y - 1) else (m, y)
  let week := (d + 2 * m + (3 * (m + 1)).tdiv 5 + y + y.tdiv 4 - y.tdiv 100 + y.tdiv 400).tmod 7 + 1
  if week = 7 then 0 else week

/-- The leap-year test of the source. -/
def leapTest (y : ℤ) : Bool := (y.tmod 4 == 0 && y.tmod 100 != 0) || y.tmod 400 == 0

/-- The table `daByMon`, with the February entry that the leap-year test selects. -/
def daByMon (leap : Bool) : List ℤ :=
  [31, if leap then 29 else 28, 31, 30, 31, 30, 31, 31, 30, 31, 30, 31]

/-- The loop of `getIdxOfDate`: the days of the first `i` months. -/
def daysBefore (table : List ℤ) : ℕ → ℤ
  | 0 => 0
  | i + 1 => daysBefore table i + table.getD i 0

/-- `Utils::getIdxOfDate`. -/
def getIdxOfDate (y mon da : ℤ) : ℤ :=
  daysBefore (daByMon (leapTest y)) (mon - 1).toNat + (da - 1)

/-- `Utils::getDateByDiffDay`, which stores through its second argument: the `++` on `dt`
and `m` come after the value has been taken. -/
def getDateByDiffDay (ymd : ℤ) : ℤ :=
  let (y, m, dt) := yearMonDateDvt ymd
  let len := (daByMon (leapTest y)).getD (m - 1).toNat 0
  let dt1 := dt
  if dt1 > len then
    let dt1 := dt1 - len
    let m1 := m
    if m1 > 12 then yearMonDateCvt (y + 1) (m1 - 12) dt1 else yearMonDateCvt y m1 dt1
  else yearMonDateCvt y m dt1

/-! ### The ranges of the indexes -/

/-- The sum in the formula of `CaculateWeekDay`, and the one that comes before the comparison
with 7. -/
def weekSum (y m d : ℤ) : ℤ := d + 2 * m + 3 * (m + 1) / 5 + y + y / 4 - y / 100 + y / 400 + 1

/-- The two branches for January and February are one shift by a year, and the comparison with 7
is part of the remainder. -/
lemma caculateWeekDay_eq (d : CalDate) :
    caculateWeekDay d.year d.mon d.day =
      (if d.mon ≤ 2 then weekSum (d.year - 1) (d.mon + 12) d.day
        else weekSum d.year d.mon d.day) % 7 := by
  obtain ⟨y, m, d, hy, hm, hd, -⟩ := d
  have key : ∀ y' m' : ℤ, 0 ≤ y' → 1 ≤ m' →
      (let week := (d + 2 * m' + (3 * (m' + 1)).tdiv 5 + y' + y'.tdiv 4 - y'.tdiv 100 +
        y'.tdiv 400).tmod 7 + 1
      if week = 7 then 0 else week) = weekSum y' m' d % 7 := by
    intro y' m' hy' hm'
    rw [Int.tdiv_eq_ediv_of_nonneg (by omega), Int.tdiv_eq_ediv_of_nonneg hy',
      Int.tdiv_eq_ediv_of_nonneg hy', Int.tdiv_eq_ediv_of_nonneg hy',
      Int.tmod_eq_emod_of_nonneg (by omega), weekSum]
    dsimp only
    split_ifs <;> omega
  rw [caculateWeekDay]
  by_cases h1 : m = 1
  · subst h1
    exact key (y - 1) 13 (by omega) (by norm_num)
  · by_cases h2 : m = 2
    · subst h2
      exact key (y - 1) 14 (by omega) (by norm_num)
    · simp only [if_neg h1, if_neg h2, if_neg (show ¬ m ≤ 2 by omega)]
      exact key y m (by omega) hm.1

/-- The day of the week is one of seven. -/
lemma caculateWeekDay_mem (d : CalDate) :
    0 ≤ caculateWeekDay d.year d.mon d.day ∧ caculateWeekDay d.year d.mon d.day ≤ 6 := by
  rw [caculateWeekDay_eq]
  omega

-- 9 January 2014 is a Thursday
example : caculateWeekDay 2014 1 9 = 4 := by decide

/-- For years from 1 on the test of the source is the Gregorian one. -/
lemma leapTest_iff {y : ℤ} (hy : 0 ≤ y) : leapTest y = true ↔ IsLeap y := by
  simp only [leapTest, IsLeap, Int.tmod_eq_emod_of_nonneg hy, Bool.or_eq_true, Bool.and_eq_true,
    beq_iff_eq, bne_iff_ne, ne_eq, Int.dvd_iff_emod_eq_zero]

/-- The table holds the lengths of the months. -/
lemma daByMon_eq {y m : ℤ} (hy : 0 ≤ y) (hm : 1 ≤ m ∧ m ≤ 12) :
    (daByMon (leapTest y)).getD (m - 1).toNat 0 = daysInMonth y m := by
  have hleap : leapTest y = decide (IsLeap y) := by
    rw [Bool.eq_iff_iff, leapTest_iff hy, decide_eq_true_iff]
  obtain ⟨h1, h2⟩ := hm
  rw [hleap]
  interval_cases m <;> simp [daByMon, daysInMonth]

/-- The days before a month and the days of the month fit into the year. -/
lemma daysBefore_add_le {y m : ℤ} (hy : 0 ≤ y) (hm : 1 ≤ m ∧ m ≤ 12) :
    0 ≤ daysBefore (daByMon (leapTest y)) (m - 1).toNat ∧
      daysBefore (daByMon (leapTest y)) (m - 1).toNat + daysInMonth y m ≤ 366 := by
  rw [← daByMon_eq hy hm]
  obtain ⟨h1, h2⟩ := hm
  cases leapTest y <;> interval_cases m <;> decide

/-- The day of the year, counted from 0, is at most 365. -/
lemma getIdxOfDate_mem (d : CalDate) :
    0 ≤ getIdxOfDate d.year d.mon d.day ∧ getIdxOfDate d.year d.mon d.day ≤ 365 := by
  have hd := d.day_mem
  have h := daysBefore_add_le (y := d.year) (by linarith [d.one_le_year]) d.mon_mem
  rw [getIdxOfDate]
  omega

/-- A date of zeros has day of the year `-1`. -/
lemma getIdxOfDate_zero : getIdxOfDate 0 0 0 = -1 := rfl

end Gauge
