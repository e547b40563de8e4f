import Gauge.Calendar.Days
import Gauge.Predict.Candidates

/-!
The expected arrival of a candidate.

`getArriveTime` takes the difference of two times of day and adds it to a third one, column by
column; `columnSub` and `columnAdd` are the columns.

* `getArriveTime_stored`: what it stores.  The minutes and the seconds are those of the
  difference, and the hours are the sum of two clock readings.
* `stored_eq_iff`: when this is the third time plus the difference.
* `arriveTime_never`: what it returns is never sure to be the carry into the next day.
* `predictedArrival_iff`: when a candidate arrives after the travel time of its entry.
-/

namespace Gauge

/-! ### Columns -/

/-- A column of a subtraction borrows from the next one. -/
lemma columnSub {a b : ℤ} (ha : -1 ≤ a ∧ a ≤ 59) (hb : 0 ≤ b ∧ b ≤ 59) (c : ℤ) :
    (if a ≥ b then (a - b, c) else (a + 60 - b, c - 1)) = ((a - b) % 60, c + (a - b) / 60) := by
  split_ifs <;> refine Prod.ext ?_ ?_ <;> dsimp only <;> omega

/-- A column of an addition carries to the next one. -/
lemma columnAdd {a : ℤ} (ha : 0 ≤ a ∧ a < 120) (c : ℤ) :
    (if a ≥ 60 then (a - 60, c + 1) else (a, c)) = (a % 60, c + a / 60) := by
  split_ifs <;> refine Prod.ext ?_ ?_ <;> dsimp only <;> omega

/-- The travel time from one time of day to another, in seconds. -/
def elapsed (start dest : DayTime) : ℤ := (dest.secs - start.secs) % 86400

/-- The hours that `getArriveTime` adds up: those of `new` and `dest`, with the borrow and the
carry of the minutes. -/
def hourSum (start dest new : DayTime) : ℤ :=
  new.hour + (dest.hour + (dest.min * 60 + dest.sec - (start.min * 60 + start.sec)) / 3600) +
    (new.min * 60 + new.sec + elapsed start dest % 3600) / 3600

/-- **What `getArriveTime` stores.** -/
theorem getArriveTime_stored (P : Platform) (start dest new : DayTime) :
    (getArriveTime P start.packed dest.packed new.packed).2 =
      timeCvt (if hourSum start dest new ≥ 24 then hourSum start dest new - 24
        else hourSum start dest new)
        (elapsed start dest % 3600 / 60) (elapsed start dest % 60) := by
  obtain ⟨h, m, s, hh, hm, hs⟩ := start
  obtain ⟨h1, m1, s1, hh1, hm1, hs1⟩ := dest
  obtain ⟨h', m', s', hh', hm', hs'⟩ := new
  have hsec := columnSub (a := s1) (b := s) (by omega) hs m1
  have hmin := columnSub (a := m1 + (s1 - s) / 60) (b := m) (by omega) hm h1
  have hsec' := columnAdd (a := s' + (s1 - s) % 60) (by omega)
    (m' + (m1 + (s1 - s) / 60 - m) % 60)
  have hmin' := columnAdd
    (a := m' + (m1 + (s1 - s) / 60 - m) % 60 + (s' + (s1 - s) % 60) / 60) (by omega)
    (h' + (h1 + (m1 + (s1 - s) / 60 - m) / 60))
  -- the columns of the difference are those of its number of seconds
  have hS : (s1 - s) % 60 =
      elapsed ⟨h, m, s, hh, hm, hs⟩ ⟨h1, m1, s1, hh1, hm1, hs1⟩ % 60 := by
    simp only [elapsed, DayTime.secs]
    omega
  have hM : (m1 + (s1 - s) / 60 - m) % 60 =
      elapsed ⟨h, m, s, hh, hm, hs⟩ ⟨h1, m1, s1, hh1, hm1, hs1⟩ % 3600 / 60 := by
    simp only [elapsed, DayTime.secs]
    omega
  have hH : h' + (h1 + (m1 + (s1 - s) / 60 - m) / 60) +
      (m' + (m1 + (s1 - s) / 60 - m) % 60 + (s' + (s1 - s) % 60) / 60) / 60 =
        hourSum ⟨h, m, s, hh, hm, hs⟩ ⟨h1, m1, s1, hh1, hm1, hs1⟩ ⟨h', m', s', hh', hm', hs'⟩ := by
    rw [hS, hM]
    simp only [hourSum]
    omega
  rw [getArriveTime, DayTime.dvt_packed, DayTime.dvt_packed, DayTime.dvt_packed]
  dsimp only
  simp only [hsec, hmin, hsec', hmin']
  rw [hH, hM, hS]
  split_ifs <;> rfl

/-! ### The time of arrival -/

/-- `getArriveTime` stores the time of arrival and returns whether it is on the next day. -/
def ArriveTimeRight (P : Platform) (start dest new : DayTime) : Prop :=
  (getArriveTime P start.packed dest.packed new.packed).2 =
      (DayTime.ofSecs (new.secs + elapsed start dest)).packed ∧
    ((getArriveTime P start.packed dest.packed new.packed).1 = true ↔
      86400 ≤ new.secs + elapsed start dest)

/-- The hours are right if nothing is carried and the start does not count. -/
lemma hourSum_eq_iff {start dest new : DayTime} (hmin : new.min = 0) (hsec : new.sec = 0) :
    (if hourSum start dest new ≥ 24 then hourSum start dest new - 24
        else hourSum start dest new) =
      (new.secs + elapsed start dest) % 86400 / 3600 ↔
        start.hour = 0 ∧ (new.hour = 0 → start.secs ≤ dest.secs) := by
  obtain ⟨h, m, s, hh, hm, hs⟩ := start
  obtain ⟨h1, m1, s1, hh1, hm1, hs1⟩ := dest
  obtain ⟨h', m', s', hh', hm', hs'⟩ := new
  obtain rfl : m' = 0 := hmin
  obtain rfl : s' = 0 := hsec
  simp only [hourSum, elapsed, DayTime.secs]
  split_ifs <;> omega

/-- **The stored time of arrival** is right exactly for a departure on the full hour and a trip
that began in the first hour of the day, and if the departure is at midnight, did not end
before it began. -/
lemma stored_eq_iff (P : Platform) (start dest new : DayTime) :
    (getArriveTime P start.packed dest.packed new.packed).2 =
        (DayTime.ofSecs (new.secs + elapsed start dest)).packed ↔
      new.min = 0 ∧ new.sec = 0 ∧ start.hour = 0 ∧ (new.hour = 0 → start.secs ≤ dest.secs) := by
  have hmin := new.min_mem
  have hsec := new.sec_mem
  have hsecond : elapsed start dest % 60 = (new.secs + elapsed start dest) % 60 ↔
      new.sec = 0 := by
    rw [DayTime.secs]
    omega
  have hminute : new.sec = 0 → (elapsed start dest % 3600 / 60 =
      (new.secs + elapsed start dest) % 3600 / 60 ↔ new.min = 0) := by
    rw [DayTime.secs]
    omega
  rw [getArriveTime_stored, DayTime.packed, timeCvt, timeCvt,
    packCvt_inj (by omega) (by omega) (DayTime.min_mem _ |>.imp_right (by omega))
      (DayTime.sec_mem _ |>.imp_right (by omega))]
  simp only [DayTime.ofSecs]
  rw [hsecond]
  constructor
  · rintro ⟨hh, hm, hs⟩
    have hm' := (hminute hs).mp hm
    exact ⟨hm', hs, (hourSum_eq_iff hm' hs).mp hh⟩
  · rintro ⟨hm, hs, hh⟩
    exact ⟨(hourSum_eq_iff hm hs).mpr hh, (hminute hs).mpr hm, hs⟩

/-- A platform on which a call of `getArriveTime` yields `flag`. -/
def Platform.yielding (flag : Bool) : Platform :=
  { Platform.keyed with noReturn := fun _ _ _ => flag }

/-- **`getArriveTime` is never sure to be right.**  It ends without a `return`, so that at every
input there is a platform on which it yields the wrong flag.  The time that it stores is right
on all platforms or on none. -/
theorem arriveTime_never (start dest new : DayTime) :
    (¬ ∀ P : Platform, ArriveTimeRight P start dest new) ∧
      ∀ P : Platform, (getArriveTime P start.packed dest.packed new.packed).2 =
          (DayTime.ofSecs (new.secs + elapsed start dest)).packed ↔
        new.min = 0 ∧ new.sec = 0 ∧ start.hour = 0 ∧ (new.hour = 0 → start.secs ≤ dest.secs) := by
  refine ⟨fun h => ?_, fun P => stored_eq_iff P start dest new⟩
  -- the flag that is wrong for this input
  have hflag : (!decide (86400 ≤ new.secs + elapsed start dest)) = true ↔
      86400 ≤ new.secs + elapsed start dest := (h (.yielding _)).2
  rw [Bool.not_eq_true', decide_eq_false_iff_not] at hflag
  exact iff_not_self hflag.symm

/-- For a departure at 8:30, of a trip from 8:30 to 8:30, the time 16:00 is stored. -/
theorem not_forall_arriveTime :
    ¬ ∀ (P : Platform) (start dest new : DayTime), ArriveTimeRight P start dest new := by
  intro h
  have h1 := (h .keyed Clock.morning.time Clock.morning.time Clock.morning.time).1
  revert h1
  decide

/-! ### The arrival of a candidate -/

/-- The seconds from the midnight before the query to the arrival, if the trip takes as long as
the one of the entry `e`. -/
def arrivalSecs (behav e : BehaviorGPS) : ℤ :=
  packedSecs behav.time + (packedSecs e.timeD - packedSecs e.time) % 86400

/-- The candidate `c` made from the entry `e` arrives after the travel time of the entry, for a
query on the day `d`. -/
def ArrivesInTime (d : CalDate) (behav e : BehaviorGPS) (c : GPSPosRes) : Prop :=
  c.timeD = (DayTime.ofSecs (arrivalSecs behav e)).packed ∧
    c.dateD = (if arrivalSecs behav e < 86400 then d else d.next).packed

/-- The trip of the entry began at the time of day of the query, and ended at a time of day that
is not before it. -/
def SameDeparture (behav e : BehaviorGPS) : Prop :=
  packedSecs e.time % 86400 = packedSecs behav.time ∧
    packedSecs behav.time ≤ packedSecs e.timeD ∧
    e.timeD = (DayTime.ofSecs (packedSecs e.timeD)).packed

instance (behav e : BehaviorGPS) : Decidable (SameDeparture behav e) :=
  inferInstanceAs (Decidable (_ ∧ _ ∧ _))

/-- A candidate has the time of day of its entry and the date of the query. -/
lemma destResult_of_packed (P : Platform) (e : BehaviorGPS) {behav : BehaviorGPS} {d : CalDate}
    (hdate : behav.date = d.packed) :
    (destResult P e behav).timeD = e.timeD ∧ (destResult P e behav).dateD = d.packed := by
  refine ⟨rfl, ?_⟩
  rw [destResult, hdate]
  dsimp only
  rw [getDateByDiffDay_packed, ite_self]

lemma arrivesInTime_iff (P : Platform) (e : BehaviorGPS) {behav : BehaviorGPS} {c : Clock}
    (hdate : behav.date = c.date.packed) (htime : behav.time = c.time.packed) :
    ArrivesInTime c.date behav e (destResult P e behav) ↔ SameDeparture behav e := by
  obtain ⟨htimeD, hdateD⟩ := destResult_of_packed P e hdate
  have ht : 0 ≤ packedSecs behav.time ∧ packedSecs behav.time < 86400 := by
    rw [htime, packedSecs_packed]
    exact c.time.secs_mem
  have hday : c.date.packed =
      (if arrivalSecs behav e < 86400 then c.date else c.date.next).packed ↔
        arrivalSecs behav e < 86400 := by
    split_ifs with h
    · exact iff_of_true rfl h
    · exact iff_of_false c.date.packed_next_ne.symm h
  rw [ArrivesInTime, htimeD, hdateD, hday]
  constructor
  · rintro ⟨harrive, hlt⟩
    -- the entry ends at the number of seconds that was asked for
    have hsecs : packedSecs e.timeD = arrivalSecs behav e := by
      rw [harrive, packedSecs_packed, DayTime.secs_ofSecs]
      rw [arrivalSecs] at hlt ⊢
      omega
    have hsecs' := hsecs
    rw [arrivalSecs] at hsecs'
    exact ⟨by omega, by omega, by rw [hsecs]; exact harrive⟩
  · rintro ⟨hstart, hle, harrive⟩
    have hlt : packedSecs e.timeD < 86400 := by
      rw [harrive, packedSecs_packed]
      exact (DayTime.secs_mem _).2
    have hsecs : arrivalSecs behav e = packedSecs e.timeD := by
      rw [arrivalSecs]
      omega
    rw [hsecs]
    exact ⟨harrive, hlt⟩

/-- **The predicted arrival** is the departure plus the travel time of the entry, exactly for
the entries of trips that began at the time of day of the query and ended on the same day. -/
theorem predictedArrival_iff (P : Platform) (vecRes : List GPSPosRes)
    (vecDraw : ℤ → List BehaviorGPS) (idx : ℤ) (behav : BehaviorGPS) (c : Clock)
    (hdate : behav.date = c.date.packed) (htime : behav.time = c.time.packed) :
    List.Forall₂ (ArrivesInTime c.date behav)
        (((vecDraw idx).filter fun e => e.codeS = behav.codeS).take 5)
        ((getDestRateFromDraw P vecRes vecDraw idx behav).drop vecRes.length) ↔
      ∀ e ∈ ((vecDraw idx).filter fun e => e.codeS = behav.codeS).take 5,
        SameDeparture behav e := by
  have hpushed : (getDestRateFromDraw P vecRes vecDraw idx behav).drop vecRes.length =
      getDestRateFromDraw P [] vecDraw idx behav := by
    rw [getDestRateFromDraw, List.drop_left, getDestRateFromDraw, List.nil_append]
  rw [hpushed, getDestRateFromDraw_eq, List.forall₂_map_right_iff, List.forall₂_same]
  exact forall₂_congr fun e _ => arrivesInTime_iff P e hdate htime

theorem predictedArrival_iff_same_time :
    List.Forall₂ (ArrivesInTime Clock.morning.date (morningTrip 0 0))
      (([morningTrip 0 1, morningTrip 2 1].filter fun e => e.codeS = 0).take 5)
      ((getDestRateFromDraw .keyed [] (fun _ => [morningTrip 0 1, morningTrip 2 1]) 0
        (morningTrip 0 0)).drop 0) :=
  (predictedArrival_iff .keyed [] (fun _ => [morningTrip 0 1, morningTrip 2 1]) 0
    (morningTrip 0 0) .morning rfl rfl).mpr (by decide)

/-- A trip that took no time, at 8:30, is still predicted to end at 8:30 if one departs half an
hour later. -/
theorem not_forall_predictedArrival :
    ¬ ∀ (P : Platform) (vecRes : List GPSPosRes) (vecDraw : ℤ → List BehaviorGPS) (idx : ℤ)
      (behav : BehaviorGPS) (c : Clock), behav.date = c.date.packed → behav.time = c.time.packed →
      List.Forall₂ (ArrivesInTime c.date behav)
        (((vecDraw idx).filter fun e => e.codeS = behav.codeS).take 5)
        ((getDestRateFromDraw P vecRes vecDraw idx behav).drop vecRes.length) := by
  intro h
  have hnine := h .keyed [] (fun _ => [morningTrip 0 1]) 0 { morningTrip 0 0 with time := 90000 }
    ⟨Clock.morning.date, 9, 0, 0, by decide, by decide, by decide⟩ rfl rfl
  exact absurd (List.forall₂_cons.mp hnine).1.1 (by decide)

end Gauge
