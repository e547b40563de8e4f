import Gauge.Calendar.Days

/-!
The Gregorian calendar as a count of days, and the two calendar functions against it.

The ordinal of a date is its number in the count of days that begins with 1 January of the
year 1, a Monday; `CalDate.ordinal_next` says that the following day has the following number.

* `caculateWeekDay_eq_weekDay`: the closed formula is the ordinal modulo seven.
* `getIdxOfDate_eq_ordinal`: the loop over the table counts the days from 1 January.
* `calendar_agree`: how the two functions go together, for every date.
* `getIdxOfDate_eq_iff_of_alike`, `getIdxOfDate_eq_iff_of_leap`: which dates of two years have the
  same index.
-/

namespace Gauge

/-! ### Years -/

/-- The leap days of the years up to `y`, by the rules for 4, 100 and 400. -/
def leapDays (y : ℤ) : ℤ := y / 4 - y / 100 + y / 400

/-- Each leap year adds a day. -/
lemma leapDays_eq_add (y : ℤ) : leapDays y = leapDays (y - 1) + if IsLeap y then 1 else 0 := by
  rw [leapDays, leapDays]
  split_ifs with h
  · rcases h with ⟨h4, h100⟩ | h400 <;> omega
  · rw [IsLeap] at h
    omega

/-- The number of days of a year. -/
def daysInYear (y : ℤ) : ℤ := if IsLeap y then 366 else 365

/-- The days of the first `n` years. -/
def daysBeforeYear : ℕ → ℤ
  | 0 => 0
  | n + 1 => daysBeforeYear n + daysInYear (n + 1)

lemma daysBeforeYear_eq (n : ℕ) : daysBeforeYear n = 365 * n + leapDays n := by
  induction n with
  | zero => rfl
  | succ n ih =>
      have hleap := leapDays_eq_add (n + 1)
      rw [add_sub_cancel_right] at hleap
      rw [daysBeforeYear, ih, daysInYear]
      push_cast
      rw [hleap]
      split_ifs <;> ring

/-! ### Months -/

/-- The days of the first `n` months of a year. -/
def daysBeforeMonth (y : ℤ) : ℕ → ℤ
  | 0 => 0
  | n + 1 => daysBeforeMonth y n + daysInMonth y (n + 1)

/-- The months of a year have the days of the year. -/
lemma daysBeforeMonth_twelve (y : ℤ) : daysBeforeMonth y 12 = daysInYear y := by
  simp only [daysBeforeMonth, daysInMonth, daysInYear]
  norm_num
  split_ifs <;> norm_num

/-- The loop of `getIdxOfDate` counts the days of the months before. -/
lemma daysBefore_eq {y : ℤ} (hy : 0 ≤ y) {n : ℕ} (hn : n ≤ 12) :
    daysBefore (daByMon (leapTest y)) n = daysBeforeMonth y n := by
  induction n with
  | zero => rfl
  | succ n ih =>
      have hlen := daByMon_eq (y := y) (m := n + 1) hy (by omega)
      rw [add_sub_cancel_right, Int.toNat_natCast] at hlen
      rw [daysBefore, daysBeforeMonth, ih (by omega), hlen]

/-- A later month comes after all days of an earlier one. -/
lemma daysBeforeMonth_add_le (y : ℤ) {m n : ℕ} (h : m < n) :
    daysBeforeMonth y m + daysInMonth y (m + 1) ≤ daysBeforeMonth y n := by
  induction n, h using Nat.le_induction with
  | base => exact le_rfl
  | succ n _ ih => exact ih.trans (le_add_of_nonneg_right
      (zero_le_one.trans (CalDate.one_le_daysInMonth y _)))

namespace CalDate

/-! ### Ordinals -/

/-- The number of the day, from 1 for 1 January of the year 1. -/
def ordinal (d : CalDate) : ℤ :=
  daysBeforeYear (d.year - 1).toNat + daysBeforeMonth d.year (d.mon - 1).toNat + d.day

/-- The day of the week, with Sunday as 0. -/
def weekDay (d : CalDate) : ℤ := d.ordinal % 7

/-- 1 January. -/
def newYear (y : ℤ) (hy : 1 ≤ y) : CalDate :=
  ⟨y, 1, 1, hy, january_mem, le_rfl, one_le_daysInMonth y 1⟩

lemma december_mem (y : ℤ) : 1 ≤ (31 : ℤ) ∧ (31 : ℤ) ≤ daysInMonth y 12 := by
  norm_num [daysInMonth]

lemma twelve_mem : 1 ≤ (12 : ℤ) ∧ (12 : ℤ) ≤ 12 := by norm_num

/-- 31 December. -/
def newYearsEve (y : ℤ) (hy : 1 ≤ y) : CalDate := ⟨y, 12, 31, hy, twelve_mem, december_mem y⟩

/-- The new year follows. -/
lemma next_newYearsEve (y : ℤ) (hy : 1 ≤ y) :
    (newYearsEve y hy).next = newYear (y + 1) (hy.trans (Int.le_add_one le_rfl)) := by
  have hlast : ¬ (31 : ℤ) < daysInMonth y 12 := by norm_num [daysInMonth]
  rw [next, newYearsEve, dif_neg hlast, dif_neg (lt_irrefl (12 : ℤ))]
  rfl

/-- **The following day has the following ordinal.** -/
theorem ordinal_next (d : CalDate) : d.next.ordinal = d.ordinal + 1 := by
  obtain ⟨y, m, da, hy, hm, hda⟩ := d
  rw [next]
  split_ifs with hday hmon
  · simp only [ordinal]
    ring
  · -- the first day of the next month comes after the last day of this one
    obtain rfl : da = daysInMonth y m := by
      dsimp only at hday
      omega
    obtain ⟨n, rfl⟩ : ∃ n : ℕ, m = n + 1 := ⟨(m - 1).toNat, by omega⟩
    simp only [ordinal, add_sub_cancel_right, Int.toNat_natCast]
    rw [show ((n : ℤ) + 1).toNat = n + 1 by omega, daysBeforeMonth]
    ring
  · -- 1 January comes after 31 December
    obtain rfl : m = 12 := by
      dsimp only at hmon
      omega
    obtain rfl : da = daysInMonth y 12 := by
      dsimp only at hday
      omega
    obtain ⟨n, rfl⟩ : ∃ n : ℕ, y = n + 1 := ⟨(y - 1).toNat, by omega⟩
    have hyear : daysBeforeMonth (n + 1) 11 + daysInMonth (n + 1) 12 = daysInYear (n + 1) :=
      daysBeforeMonth_twelve (n + 1)
    show daysBeforeYear ((n : ℤ) + 1 + 1 - 1).toNat + 0 + 1 =
      daysBeforeYear ((n : ℤ) + 1 - 1).toNat + daysBeforeMonth (n + 1) 11 +
        daysInMonth (n + 1) 12 + 1
    rw [add_sub_cancel_right, add_sub_cancel_right, Int.toNat_natCast,
      show ((n : ℤ) + 1).toNat = n + 1 by omega, daysBeforeYear, ← hyear]
    ring

end CalDate

/-! ### The two functions -/

/-- From March on the days before a month follow the term of the formula that has a fraction. -/
lemma daysBeforeMonth_eq (y : ℤ) {n : ℕ} (hn : 2 ≤ n ∧ n ≤ 11) :
    daysBeforeMonth y n = 30 * n + 3 * (n + 2) / 5 - 3 + if IsLeap y then 1 else 0 := by
  obtain ⟨h2, h11⟩ := hn
  interval_cases n <;> simp only [daysBeforeMonth, daysInMonth] <;> norm_num <;>
    split_ifs <;> norm_num

/-- The sum is the ordinal, up to whole weeks. -/
lemma weekSum_eq (d : CalDate) :
    ∃ weeks, (if d.mon ≤ 2 then weekSum (d.year - 1) (d.mon + 12) d.day
      else weekSum d.year d.mon d.day) = d.ordinal + weeks * 7 := by
  obtain ⟨y, m, d, hy, hm, -⟩ := d
  rw [CalDate.ordinal]
  dsimp only
  rw [daysBeforeYear_eq, Int.toNat_of_nonneg (by omega)]
  by_cases h2 : m ≤ 2
  · -- January and February count with the year before, whose leap day has passed
    rw [if_pos h2, weekSum, leapDays]
    obtain rfl | rfl : m = 1 ∨ m = 2 := by omega
    · refine ⟨5 - 52 * (y - 1), ?_⟩
      show _ = _ + 0 + d + _
      norm_num
      ring
    · refine ⟨1 - 52 * (y - 1), ?_⟩
      show _ = _ + 31 + d + _
      norm_num
      ring
  · have hleap := leapDays_eq_add y
    rw [leapDays] at hleap
    refine ⟨57 - 52 * y - 4 * m, ?_⟩
    rw [if_neg h2, daysBeforeMonth_eq y (by omega), Int.toNat_of_nonneg (by omega), weekSum,
      show m - 1 + 2 = m + 1 by ring]
    linarith

/-- **The closed formula is the day of the week.** -/
theorem caculateWeekDay_eq_weekDay (d : CalDate) :
    caculateWeekDay d.year d.mon d.day = d.weekDay := by
  obtain ⟨weeks, hweeks⟩ := weekSum_eq d
  rw [caculateWeekDay_eq, hweeks, Int.add_mul_emod_self_right, CalDate.weekDay]

/-- **The loop over the table counts the days** from 1 January. -/
theorem getIdxOfDate_eq_ordinal (d : CalDate) :
    getIdxOfDate d.year d.mon d.day =
      d.ordinal - (CalDate.newYear d.year d.one_le_year).ordinal := by
  have hm := d.mon_mem
  rw [getIdxOfDate, daysBefore_eq (by linarith [d.one_le_year]) (by omega), CalDate.ordinal,
    CalDate.ordinal]
  show _ = _ - (_ + 0 + 1)
  dsimp only [CalDate.newYear]
  ring

/-- Later dates of a year have larger ordinals. -/
lemma ordinal_lt_ordinal {d d' : CalDate} (hy : d.year = d'.year)
    (hlt : d.mon < d'.mon ∨ d.mon = d'.mon ∧ d.day < d'.day) : d.ordinal < d'.ordinal := by
  rw [CalDate.ordinal, CalDate.ordinal, hy]
  rcases hlt with hmon | ⟨hmon, hday⟩
  · have hm := d.mon_mem
    have hle := daysBeforeMonth_add_le d.year (m := (d.mon - 1).toNat) (n := (d'.mon - 1).toNat)
      (by omega)
    rw [Int.toNat_of_nonneg (by omega), sub_add_cancel, hy] at hle
    have hday := d.day_mem.2
    rw [hy] at hday
    linarith [d'.day_mem.1]
  · rw [hmon]
    linarith

/-- **The two calendar functions agree** with the Gregorian calendar and with each other. -/
theorem calendar_agree (d : CalDate) :
    caculateWeekDay d.year d.mon d.day = d.weekDay ∧
      (getIdxOfDate d.year d.mon d.day =
          d.ordinal - (CalDate.newYear d.year d.one_le_year).ordinal ∧
        (∀ d' : CalDate, d.year = d'.year →
          (d.mon < d'.mon ∨ d.mon = d'.mon ∧ d.day < d'.day) →
            getIdxOfDate d.year d.mon d.day < getIdxOfDate d'.year d'.mon d'.day) ∧
        getIdxOfDate d.year d.mon d.day ≤ 365) ∧
      caculateWeekDay d.year d.mon d.day =
        (caculateWeekDay d.year 1 1 + getIdxOfDate d.year d.mon d.day) % 7 ∧
      caculateWeekDay (d.year + 1) 1 1 = (caculateWeekDay d.year 12 31 + 1) % 7 := by
  have hfirst : caculateWeekDay d.year 1 1 = (CalDate.newYear d.year d.one_le_year).weekDay :=
    caculateWeekDay_eq_weekDay (CalDate.newYear d.year d.one_le_year)
  have heve : caculateWeekDay d.year 12 31 =
      (CalDate.newYearsEve d.year d.one_le_year).weekDay :=
    caculateWeekDay_eq_weekDay (CalDate.newYearsEve d.year d.one_le_year)
  have hnext : caculateWeekDay (d.year + 1) 1 1 =
      (CalDate.newYearsEve d.year d.one_le_year).next.weekDay := by
    rw [CalDate.next_newYearsEve]
    exact caculateWeekDay_eq_weekDay
      (CalDate.newYear (d.year + 1) (d.one_le_year.trans (Int.le_add_one le_rfl)))
  refine ⟨caculateWeekDay_eq_weekDay d, ⟨getIdxOfDate_eq_ordinal d, fun d' hy hlt => ?_,
    (getIdxOfDate_mem d).2⟩, ?_, ?_⟩
  · have hlt' := ordinal_lt_ordinal hy hlt
    rw [getIdxOfDate_eq_ordinal, getIdxOfDate_eq_ordinal]
    simp only [hy]
    linarith
  · rw [caculateWeekDay_eq_weekDay, getIdxOfDate_eq_ordinal, hfirst, CalDate.weekDay,
      CalDate.weekDay, Int.emod_add_emod, add_sub_cancel]
  · rw [hnext, heve, CalDate.weekDay, CalDate.weekDay, CalDate.ordinal_next, Int.emod_add_emod]

/-! ### Dates of two years -/

/-- Two dates of one year have the same index only if they are the same. -/
lemma getIdxOfDate_inj (d d' : CalDate) (hy : d.year = d'.year) :
    getIdxOfDate d.year d.mon d.day = getIdxOfDate d'.year d'.mon d'.day ↔
      d.mon = d'.mon ∧ d.day = d'.day := by
  have hfirst : (CalDate.newYear d.year d.one_le_year).ordinal =
      (CalDate.newYear d'.year d'.one_le_year).ordinal := by simp only [hy]
  rw [getIdxOfDate_eq_ordinal, getIdxOfDate_eq_ordinal, hfirst, sub_left_inj]
  constructor
  · intro h
    rcases lt_trichotomy d.mon d'.mon with hmon | hmon | hmon
    · exact absurd h (ordinal_lt_ordinal hy (Or.inl hmon)).ne
    · rcases lt_trichotomy d.day d'.day with hday | hday | hday
      · exact absurd h (ordinal_lt_ordinal hy (Or.inr ⟨hmon, hday⟩)).ne
      · exact ⟨hmon, hday⟩
      · exact absurd h (ordinal_lt_ordinal hy.symm (Or.inr ⟨hmon.symm, hday⟩)).ne'
    · exact absurd h (ordinal_lt_ordinal hy.symm (Or.inl hmon)).ne'
  · rintro ⟨hmon, hday⟩
    rw [CalDate.ordinal, CalDate.ordinal, hy, hmon, hday]

/-- The same day of another year that has it. -/
def CalDate.inYear (d : CalDate) (y : ℤ) (hy : 1 ≤ y) (h : d.day ≤ daysInMonth y d.mon) : CalDate :=
  { d with year := y, one_le_year := hy, day_mem := ⟨d.day_mem.1, h⟩ }

/-- 29 February or later. -/
def CalDate.Late (d : CalDate) : Prop := 2 < d.mon ∨ d.mon = 2 ∧ d.day = 29

/-- The index of a date in another year: the leap day counts from March on. -/
lemma getIdxOfDate_inYear (d : CalDate) {y : ℤ} (hy : 1 ≤ y) :
    getIdxOfDate y d.mon d.day =
      getIdxOfDate d.year d.mon d.day + if d.mon ≤ 2 then 0
        else (if IsLeap y then 1 else 0) - if IsLeap d.year then 1 else 0 := by
  have hm := d.mon_mem
  rw [getIdxOfDate, getIdxOfDate, daysBefore_eq (by omega) (by omega),
    daysBefore_eq (by linarith [d.one_le_year]) (by omega)]
  split_ifs with h2
  · obtain h | h : d.mon = 1 ∨ d.mon = 2 := by omega
    · rw [h]
      exact (add_zero _).symm
    · rw [h]
      exact (add_zero _).symm
  all_goals
    rw [daysBeforeMonth_eq _ (by omega), daysBeforeMonth_eq _ (by omega)]
    simp only [*, if_true, if_false]
    ring

lemma daysInMonth_le_of_leap {y y' : ℤ} (h : IsLeap y → IsLeap y') (m : ℤ) :
    daysInMonth y m ≤ daysInMonth y' m := by
  rw [daysInMonth, daysInMonth]
  split_ifs with _ h1 h2 <;> first | exact absurd (h h1) h2 | norm_num

/-- Two years of one kind, or of which a date before 29 February is given. -/
lemma getIdxOfDate_eq_iff_of_alike {d d' : CalDate}
    (h : (IsLeap d.year ↔ IsLeap d'.year) ∨ ¬ d.Late) :
    getIdxOfDate d.year d.mon d.day = getIdxOfDate d'.year d'.mon d'.day ↔
      d.mon = d'.mon ∧ d.day = d'.day := by
  have hday : d.day ≤ daysInMonth d'.year d.mon := by
    rcases h with h | h
    · exact d.day_mem.2.trans (daysInMonth_le_of_leap h.mp d.mon)
    · have hd := d.day_mem.2
      rw [CalDate.Late] at h
      rw [daysInMonth] at hd ⊢
      split_ifs at hd ⊢ <;> omega
  have hidx : getIdxOfDate d'.year d.mon d.day = getIdxOfDate d.year d.mon d.day := by
    rw [getIdxOfDate_inYear d d'.one_le_year, add_eq_left]
    rcases h with h | h
    · simp only [h, sub_self, ite_self]
    · rw [CalDate.Late, not_or, not_lt] at h
      rw [if_pos h.1]
  rw [← hidx]
  exact getIdxOfDate_inj (d.inYear d'.year d'.one_le_year hday) d' rfl

/-- Within a year the following day has the following index. -/
lemma getIdxOfDate_next {d : CalDate} (h : d.next.year = d.year) :
    getIdxOfDate d.next.year d.next.mon d.next.day = getIdxOfDate d.year d.mon d.day + 1 := by
  rw [getIdxOfDate_eq_ordinal, getIdxOfDate_eq_ordinal, CalDate.ordinal_next]
  simp only [h]
  ring

/-- Every index is smaller than the number of days of the year, and only 31 December has the
largest one. -/
lemma getIdxOfDate_lt (d : CalDate) :
    getIdxOfDate d.year d.mon d.day < daysInYear d.year ∧
      (d.next.year ≠ d.year → getIdxOfDate d.year d.mon d.day = daysInYear d.year - 1) := by
  obtain ⟨y, m, da, hy, hm, hda⟩ := d
  have hidx : getIdxOfDate y m da = daysBeforeMonth y (m - 1).toNat + (da - 1) := by
    rw [getIdxOfDate, daysBefore_eq (by omega) (by omega)]
  have hle := daysBeforeMonth_add_le y (m := (m - 1).toNat) (n := 12) (by omega)
  rw [daysBeforeMonth_twelve, Int.toNat_of_nonneg (by omega), sub_add_cancel] at hle
  dsimp only
  refine ⟨by linarith, fun hne => ?_⟩
  rw [CalDate.next] at hne
  dsimp only at hne
  split_ifs at hne with hday hmon
  · exact absurd rfl hne
  · exact absurd rfl hne
  · obtain rfl : m = 12 := by omega
    have hyear : daysBeforeMonth y 11 + daysInMonth y 12 = daysInYear y := daysBeforeMonth_twelve y
    rw [hidx, ← hyear]
    show daysBeforeMonth y 11 + (da - 1) = _
    linarith

/-- The dates from 29 February on are those with an index from 59 on. -/
lemma late_iff_le (d : CalDate) : d.Late ↔ 59 ≤ getIdxOfDate d.year d.mon d.day := by
  obtain ⟨y, m, da, hy, hm, hda⟩ := d
  rw [CalDate.Late, getIdxOfDate, daysBefore_eq (by dsimp only; omega) (by dsimp only; omega)]
  dsimp only
  have hshort : 28 ≤ daysInMonth y 2 ∧ daysInMonth y 2 ≤ 29 := by
    rw [daysInMonth, if_pos rfl]
    split_ifs <;> norm_num
  rcases lt_trichotomy m 2 with hlt | rfl | hgt
  · obtain rfl : m = 1 := by omega
    have hle := hda.2.trans (daysInMonth_le y 1)
    show _ ↔ 59 ≤ 0 + (da - 1)
    omega
  · show _ ↔ 59 ≤ 31 + (da - 1)
    omega
  · have hle : 31 + daysInMonth y 2 ≤ daysBeforeMonth y (m - 1).toNat :=
      daysBeforeMonth_add_le y (m := 1) (by omega)
    omega

/-- **From 29 February on** a date of a leap year has the index of the day after it in a common
year. -/
lemma getIdxOfDate_eq_iff_of_leap {d d' : CalDate} (hleap : IsLeap d.year)
    (hcommon : ¬ IsLeap d'.year) (hlate : d.Late) :
    getIdxOfDate d.year d.mon d.day = getIdxOfDate d'.year d'.mon d'.day ↔
      d.next.year = d.year ∧ d.next.mon = d'.mon ∧ d.next.day = d'.day := by
  have hday : d'.day ≤ daysInMonth d.year d'.mon :=
    d'.day_mem.2.trans (daysInMonth_le_of_leap (fun h => absurd h hcommon) d'.mon)
  have hidx := getIdxOfDate_inYear d' d.one_le_year
  rw [if_pos hleap, if_neg hcommon, sub_zero] at hidx
  have hinj : d.next.year = d.year →
      (getIdxOfDate d.next.year d.next.mon d.next.day = getIdxOfDate d.year d'.mon d'.day ↔
        d.next.mon = d'.mon ∧ d.next.day = d'.day) := fun hyear =>
    getIdxOfDate_inj d.next (d'.inYear d.year d.one_le_year hday) hyear
  -- no date of January or February of a common year has so large an index
  have hmarch : 59 ≤ getIdxOfDate d'.year d'.mon d'.day → ¬ d'.mon ≤ 2 := by
    rw [← late_iff_le, CalDate.Late]
    rintro (h | ⟨hmon, h29⟩) h2
    · exact absurd h2 (not_le.mpr h)
    · have hd := d'.day_mem.2
      rw [hmon, h29, daysInMonth, if_pos rfl, if_neg hcommon] at hd
      norm_num at hd
  rw [late_iff_le] at hlate
  constructor
  · intro h
    rw [if_neg (hmarch (h ▸ hlate))] at hidx
    have hyear : d.next.year = d.year := by
      by_contra hne
      have hlast := (getIdxOfDate_lt d).2 hne
      have hlt := (getIdxOfDate_lt d').1
      rw [daysInYear, if_pos hleap] at hlast
      rw [daysInYear, if_neg hcommon] at hlt
      omega
    exact ⟨hyear, (hinj hyear).mp (by rw [getIdxOfDate_next hyear, hidx, h])⟩
  · rintro ⟨hyear, hnext⟩
    have hlast := (hinj hyear).mpr hnext
    rw [getIdxOfDate_next hyear, hidx] at hlast
    split_ifs at hlast with h2
    · exact absurd h2 (hmarch (by omega))
    · omega

end Gauge
