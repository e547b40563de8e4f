import Gauge.Calendar.Utils

/-!
The day after a date and the seconds of a day.

* `getDateByDiffDay_packed`: the step to the next date stays at the date.
* `DayTime.secs_ofSecs`, `DayTime.ofSecs_secs`: times of day are numbers of seconds modulo
  `86400`.
-/

namespace Gauge

namespace CalDate

lemma one_le_daysInMonth (y m : ℤ) : 1 ≤ daysInMonth y m := by
  rw [daysInMonth]
  split_ifs <;> norm_num

lemma january_mem : 1 ≤ (1 : ℤ) ∧ (1 : ℤ) ≤ 12 := by norm_num

/-- The following calendar day. -/
def next (d : CalDate) : CalDate :=
  if hday : d.day < daysInMonth d.year d.mon then
    ⟨d.year, d.mon, d.day + 1, d.one_le_year, d.mon_mem, by linarith [d.day_mem.1], hday⟩
  else if hmon : d.mon < 12 then
    ⟨d.year, d.mon + 1, 1, d.one_le_year, ⟨by linarith [d.mon_mem.1], hmon⟩, le_rfl,
      one_le_daysInMonth _ _⟩
  else
    ⟨d.year + 1, 1, 1, by linarith [d.one_le_year], january_mem, le_rfl, one_le_daysInMonth _ _⟩

lemma next_ne (d : CalDate) :
    (d.next.year, d.next.mon, d.next.day) ≠ (d.year, d.mon, d.day) := by
  rw [next]
  split_ifs <;> simp

/-- The packed dates of two successive days differ. -/
lemma packed_next_ne (d : CalDate) : d.next.packed ≠ d.packed := by
  intro h
  have hdvt := congrArg yearMonDateDvt h
  rw [dvt_packed, dvt_packed] at hdvt
  exact d.next_ne hdvt

end CalDate

/-! ### The step to another date -/

/-- The step to the next date compares and stores the day from before its `++`. -/
lemma getDateByDiffDay_packed (d : CalDate) : getDateByDiffDay d.packed = d.packed := by
  have hlen : (daByMon (leapTest d.year)).getD (d.mon - 1).toNat 0 = daysInMonth d.year d.mon :=
    daByMon_eq (by linarith [d.one_le_year]) d.mon_mem
  rw [getDateByDiffDay, d.dvt_packed]
  dsimp only
  rw [hlen, if_neg (not_lt.mpr d.day_mem.2)]
  rfl

/-- **No date has its successor stored**: the value of `dt++` is the day itself. -/
theorem getDateByDiffDay_ne_next (d : CalDate) : getDateByDiffDay d.packed ≠ d.next.packed := by
  rw [getDateByDiffDay_packed]
  exact d.packed_next_ne.symm

/-- The day after 31 December 2013 is stored as 31 December 2013. -/
theorem not_forall_getDateByDiffDay :
    ¬ ∀ d : CalDate, getDateByDiffDay d.packed = d.next.packed := by
  intro h
  have hlast := h ⟨2013, 12, 31, by decide, by decide, by decide⟩
  revert hlast
  decide

/-! ### Seconds -/

namespace DayTime

/-- The seconds since midnight. -/
def secs (t : DayTime) : ℤ := t.hour * 3600 + t.min * 60 + t.sec

/-- The time of day after `n` seconds, whole days not counted. -/
def ofSecs (n : ℤ) : DayTime :=
  ⟨n % 86400 / 3600, n % 3600 / 60, n % 60, by omega, by omega, by omega⟩

lemma secs_mem (t : DayTime) : 0 ≤ t.secs ∧ t.secs < 86400 := by
  have hh := t.hour_mem
  have hm := t.min_mem
  have hs := t.sec_mem
  rw [secs]
  omega

lemma secs_ofSecs (n : ℤ) : (ofSecs n).secs = n % 86400 := by
  show n % 86400 / 3600 * 3600 + n % 3600 / 60 * 60 + n % 60 = n % 86400
  omega

lemma ofSecs_secs (t : DayTime) : ofSecs t.secs = t := by
  obtain ⟨h, m, s, hh, hm, hs⟩ := t
  simp only [secs, ofSecs, mk.injEq]
  omega

end DayTime

/-- The seconds that a packed time of day stands for, also if it is none. -/
def packedSecs (hms : ℤ) : ℤ :=
  let (h, m, s) := timeDvt hms
  h * 3600 + m * 60 + s

@[simp] lemma packedSecs_packed (t : DayTime) : packedSecs t.packed = t.secs := by
  rw [packedSecs, t.dvt_packed]
  rfl

end Gauge
