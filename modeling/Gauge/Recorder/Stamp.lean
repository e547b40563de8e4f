import Gauge.Recorder.Handlers

/-!
The time stamp of a sample.  A signal stores it twice: as digits, in the character fields of
`mGpsInfo`, and packed, in `mCurGPS`.

* `value_stamp`: three numbers that are printed one after the other read as their packed form.
* `stampsAgree_iff`: when the two stamps of a signal are the same.
-/

namespace Gauge

lemma length_zeroPad {w : ℕ} {n : ℤ} (hw : 0 < w) (hn : n < 10 ^ w) :
    (zeroPad w n).length = w := by
  have hn' : n.toNat < 10 ^ w := by
    have hpos : (0 : ℤ) < 10 ^ w := by positivity
    zify
    omega
  rw [zeroPad, Digits.length_padded hw hn']

lemma length_stamp {w : ℕ} {a b c : ℤ} (hw : 0 < w) (ha : a < 10 ^ w) (hb : b < 100)
    (hc : c < 100) : (zeroPad w a ++ zeroPad 2 b ++ zeroPad 2 c).length = w + 2 + 2 := by
  rw [List.length_append, List.length_append, length_zeroPad hw ha, length_zeroPad two_pos hb,
    length_zeroPad two_pos hc]

/-- A printed stamp reads as the packed one. -/
lemma value_stamp (w : ℕ) {a b c : ℤ} (ha : 0 ≤ a) (hb : 0 ≤ b ∧ b < 100)
    (hc : 0 ≤ c ∧ c < 100) :
    (Digits.value (zeroPad w a ++ zeroPad 2 b ++ zeroPad 2 c) : ℤ) = packCvt a b c := by
  rw [Digits.value_append, Digits.value_append, length_zeroPad two_pos hb.2,
    length_zeroPad two_pos hc.2, zeroPad, zeroPad, zeroPad, Digits.value_padded,
    Digits.value_padded, Digits.value_padded, packCvt]
  push_cast
  rw [Int.toNat_of_nonneg ha, Int.toNat_of_nonneg hb.1, Int.toNat_of_nonneg hc.1]
  ring

/-- The two stamps that an instance holds are the same, they fit into their fields, and they
stand for the reading of the clock. -/
structure StampsAgree (clock : Clock) (s : GaugeArrival) : Prop where
  digits : ∀ c ∈ s.mGpsInfo.date ++ s.mGpsInfo.time, c.isDigit = true
  date : (Digits.value s.mGpsInfo.date : ℤ) = s.mCurGPS.dateD
  time : (Digits.value s.mGpsInfo.time : ℤ) = s.mCurGPS.timeD
  -- with the zero at the end
  date_fits : s.mGpsInfo.date.length + 1 ≤ 9
  time_fits : s.mGpsInfo.time.length + 1 ≤ 7
  dvt_dateD : yearMonDateDvt s.mCurGPS.dateD = (clock.date.year, clock.date.mon, clock.date.day)
  dvt_timeD : timeDvt s.mCurGPS.timeD = (clock.time.hour, clock.time.min, clock.time.sec)

/-- Every signal packs the reading of the clock. -/
lemma signal_stamp (fix : Fix) (w : World) :
    (onGPSDataNDRServiceIPCSignal fix w).mCurGPS.dateD = fix.clock.date.packed ∧
      (onGPSDataNDRServiceIPCSignal fix w).mCurGPS.timeD = fix.clock.time.packed := by
  rcases eq_or_ne w.mGetFirstGPSSig 0 with h | h
  · rw [signal_first fix h]
    exact ⟨rfl, rfl⟩
  · rw [signal_next fix h]
    exact ⟨rfl, rfl⟩

/-- **The two stamps of a signal agree** exactly in the minutes that have the number of the
month: the month is printed in their place. -/
theorem stampsAgree_iff (fix : Fix) (w : World)
    (hyear : 1000 ≤ fix.clock.date.year ∧ fix.clock.date.year ≤ 9999) :
    StampsAgree fix.clock (onGPSDataNDRServiceIPCSignal fix w).toGaugeArrival ↔
      fix.clock.time.min = fix.clock.date.mon := by
  have hmon := fix.clock.date.mon_mem
  have hday := fix.clock.date.day_mem.1
  have hday' := fix.clock.date.day_le
  have hhour := fix.clock.time.hour_mem
  have hmin := fix.clock.time.min_mem
  have hsec := fix.clock.time.sec_mem
  obtain ⟨hdateD, htimeD⟩ := signal_stamp fix w
  have hprinted : (Digits.value fix.gpsInfo.time : ℤ) =
      packCvt fix.clock.time.hour fix.clock.date.mon fix.clock.time.sec :=
    value_stamp 2 hhour.1 (by omega) (by omega)
  constructor
  · intro h
    have htime := h.time
    rw [signal_mGpsInfo, hprinted, htimeD, DayTime.packed, timeCvt,
      packCvt_inj (by omega) (by omega) (by omega) (by omega)] at htime
    exact htime.2.1.symm
  · intro hsame
    refine ⟨fun c hc => ?_, ?_, ?_, ?_, ?_, ?_, ?_⟩
    · rw [signal_mGpsInfo] at hc
      simp only [Fix.gpsInfo, List.mem_append, zeroPad] at hc
      rcases hc with ((hc | hc) | hc) | ((hc | hc) | hc) <;> exact Digits.isDigit_of_mem_padded hc
    · rw [signal_mGpsInfo, hdateD]
      exact value_stamp 4 (by omega) (by omega) (by omega)
    · rw [signal_mGpsInfo, hprinted, htimeD, DayTime.packed, timeCvt, hsame]
    · rw [signal_mGpsInfo, Fix.gpsInfo, length_stamp (by norm_num) (by omega) (by omega) (by omega)]
    · rw [signal_mGpsInfo, Fix.gpsInfo, length_stamp two_pos (by omega) (by omega) (by omega)]
    · rw [hdateD]
      exact fix.clock.date.dvt_packed
    · rw [htimeD]
      exact fix.clock.time.dvt_packed

/-- Five minutes past noon on a day in May. -/
def Clock.may : Clock :=
  ⟨⟨2014, 5, 9, Clock.morning.date.one_le_year, by decide, by decide⟩,
    ⟨12, 5, 0, by decide, by decide, Clock.morning.time.sec_mem⟩⟩

theorem stampsAgree_iff_may :
    StampsAgree .may (onGPSDataNDRServiceIPCSignal ⟨.may, ⟨1, 1⟩⟩
      (firstWorld blankInstance false none)).toGaugeArrival :=
  (stampsAgree_iff ⟨.may, ⟨1, 1⟩⟩ (firstWorld blankInstance false none) (by decide)).mpr rfl

/-- At half past eight in January the minutes are printed as `01`. -/
theorem not_forall_stampsAgree :
    ¬ ∀ (fix : Fix) (w : World),
      1000 ≤ fix.clock.date.year ∧ fix.clock.date.year ≤ 9999 →
        StampsAgree fix.clock (onGPSDataNDRServiceIPCSignal fix w).toGaugeArrival := by
  intro h
  have htime := (h ⟨.morning, ⟨1, 1⟩⟩ (firstWorld blankInstance false none) (by decide)).time
  revert htime
  decide

end Gauge
