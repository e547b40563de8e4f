import Mathlib.Tactic

/-!
Packed dates and times of day, the macros of `Utils.hpp`.

The program keeps a date as the decimal number `YYYYMMDD` and a time of day as `HHMMSS`.
`CalDate`, `DayTime` and `Clock` are the calendar dates, times of day and clock readings
themselves, valid by construction; `CalDate.packed` and `DayTime.packed` are their encodings
and `CalDate.dvt_packed`, `DayTime.dvt_packed` say that the decoding macros undo them.
-/

namespace Gauge

/-! ### The macros -/

/-- The common body of `YEAR_MON_DATE_CVT` and `TIME_CVT`. -/
def packCvt (a b c : ℤ) : ℤ := a * 10000 + b * 100 + c

/-- The common body of `YEAR_MON_DATE_DVT` and `TIME_DVT`, with C's truncating division. -/
def packDvt (n : ℤ) : ℤ × ℤ × ℤ := (n.tdiv 10000, (n.tmod 10000).tdiv 100, n.tmod 100)

/-- `YEAR_MON_DATE_CVT`. -/
def yearMonDateCvt (y m d : ℤ) : ℤ := packCvt y m d

/-- `YEAR_MON_DATE_DVT`. -/
def yearMonDateDvt (ymd : ℤ) : ℤ × ℤ × ℤ := packDvt ymd

/-- `TIME_CVT`. -/
def timeCvt (h m s : ℤ) : ℤ := packCvt h m s

/-- `TIME_DVT`. -/
def timeDvt (hms : ℤ) : ℤ × ℤ × ℤ := packDvt hms

/-- Decoding undoes encoding as long as the two lower parts have two digits. -/
lemma packDvt_packCvt {a b c : ℤ} (ha : 0 ≤ a) (hb : 0 ≤ b ∧ b < 100) (hc : 0 ≤ c ∧ c < 100) :
    packDvt (packCvt a b c) = (a, b, c) := by
  have hn : 0 ≤ a * 10000 + b * 100 + c := by omega
  have hmod : (a * 10000 + b * 100 + c) % 10000 = b * 100 + c := by omega
  rw [packDvt, packCvt, Int.tdiv_eq_ediv_of_nonneg hn, Int.tmod_eq_emod_of_nonneg hn, hmod,
    Int.tdiv_eq_ediv_of_nonneg (by omega), Int.tmod_eq_emod_of_nonneg hn]
  refine Prod.ext ?_ (Prod.ext ?_ ?_)
  · show (a * 10000 + b * 100 + c) / 10000 = a
    omega
  · show (b * 100 + c) / 100 = b
    omega
  · show (a * 10000 + b * 100 + c) % 100 = c
    omega

/-- The parts of a packed number. -/
lemma packCvt_inj {a b c a' b' c' : ℤ} (hb : 0 ≤ b ∧ b < 100) (hc : 0 ≤ c ∧ c < 100)
    (hb' : 0 ≤ b' ∧ b' < 100) (hc' : 0 ≤ c' ∧ c' < 100) :
    packCvt a b c = packCvt a' b' c' ↔ a = a' ∧ b = b' ∧ c = c' := by
  rw [packCvt, packCvt]
  omega

example : yearMonDateDvt 20140109 = (2014, 1, 9) := by decide

/-! ### Dates and times of day -/

/-- The Gregorian leap years. -/
def IsLeap (y : ℤ) : Prop := (4 ∣ y ∧ ¬ 100 ∣ y) ∨ 400 ∣ y

instance : DecidablePred IsLeap := fun y =>
  inferInstanceAs (Decidable ((4 ∣ y ∧ ¬ 100 ∣ y) ∨ 400 ∣ y))

/-- The number of days of a month. -/
def daysInMonth (y m : ℤ) : ℤ :=
  if m = 2 then if IsLeap y then 29 else 28
  else if m = 4 ∨ m = 6 ∨ m = 9 ∨ m = 11 then 30
  else 31

lemma daysInMonth_le (y m : ℤ) : daysInMonth y m ≤ 31 := by
  rw [daysInMonth]
  split_ifs <;> omega

/-- A calendar date of a year from 1 on. -/
structure CalDate where
  year : ℤ
  mon : ℤ
  day : ℤ
  one_le_year : 1 ≤ year
  mon_mem : 1 ≤ mon ∧ mon ≤ 12
  day_mem : 1 ≤ day ∧ day ≤ daysInMonth year mon

/-- A time of day. -/
structure DayTime where
  hour : ℤ
  min : ℤ
  sec : ℤ
  hour_mem : 0 ≤ hour ∧ hour ≤ 23
  min_mem : 0 ≤ min ∧ min ≤ 59
  sec_mem : 0 ≤ sec ∧ sec ≤ 59

/-- A reading of the local clock. -/
structure Clock where
  date : CalDate
  time : DayTime

namespace CalDate

lemma day_le (d : CalDate) : d.day ≤ 31 := d.day_mem.2.trans (daysInMonth_le _ _)

/-- The date as the program stores it. -/
def packed (d : CalDate) : ℤ := yearMonDateCvt d.year d.mon d.day

lemma dvt_packed (d : CalDate) : yearMonDateDvt d.packed = (d.year, d.mon, d.day) :=
  have hm := d.mon_mem
  have hd := d.day_mem.1
  have hd' := d.day_le
  packDvt_packCvt (by linarith [d.one_le_year]) (by omega) (by omega)

end CalDate

namespace DayTime

/-- The time of day as the program stores it. -/
def packed (t : DayTime) : ℤ := timeCvt t.hour t.min t.sec

lemma dvt_packed (t : DayTime) : timeDvt t.packed = (t.hour, t.min, t.sec) :=
  have hm := t.min_mem
  have hs := t.sec_mem
  packDvt_packCvt t.hour_mem.1 (by omega) (by omega)

end DayTime

end Gauge
