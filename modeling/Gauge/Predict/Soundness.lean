import Gauge.Predict.Rates

/-!
Predictions from a recorded history: every predicted destination was driven to from the same
start at a similar time, the rates are positive and they add up to at most 1.

The bound comes from two inequalities.  In every drawer the counts of a start add up to no
more than the number of trips from it (`sum_count_vecCate_le`), so that a category adds up
to at most its weight, and the weights add up to 1 (`sum_votes_le_one`).
-/

namespace Gauge

/-- What a prediction for the trip `behav` promises after the trips `bs`. -/
structure SoundPrediction (bs : List BehaviorGPS) (behav : BehaviorGPS)
    (l : List GPSPosResRate) : Prop where
  length_le : l.length ≤ 3
  nodup : (l.map (·.code)).Nodup
  driven : ∀ e ∈ l, ∃ t ∈ bs, t.codeS = behav.codeS ∧ t.codeD = e.code ∧
    ∃ a : DrawerArray, drawerIdx t.toTripRecord a = drawerIdx behav.toTripRecord a ∧
      0 ≤ drawerIdx t.toTripRecord a ∧ drawerIdx t.toTripRecord a < a.size
  rate_pos : ∀ e ∈ l, 0 < e.rate
  sum_le_one : (l.map (·.rate)).sum ≤ 1

section Recorded

variable (P : Platform) (bs : List BehaviorGPS) (s : GaugeArrival)

/-- The instance `s` with the history of the trips `bs`. -/
def GaugeArrival.withTrips (P : Platform) (s : GaugeArrival) (bs : List BehaviorGPS) :
    GaugeArrival :=
  { s with toHistory := recordTrips P .empty bs }

lemma withTrips_drawers (a : DrawerArray) (i : ℤ) :
    (s.withTrips P bs).drawers a i = fill (bs.filter fun b => drawerIdx b.toTripRecord a = i) :=
  recordTrips_drawers P bs a i

/-- A candidate stands for a trip of its drawer. -/
lemma exists_trip_of_mem_vecCate {a : DrawerArray} {c : GPSPosRes}
    (hc : c ∈ vecCate P (s.withTrips P bs) a) :
    ∃ t ∈ bs, t.codeS = s.mFirstGPS.codeS ∧ t.codeD = c.codeD ∧
      drawerIdx t.toTripRecord a = drawerIdx s.mFirstGPS.toTripRecord a := by
  obtain ⟨e, he, hS, rfl⟩ := exists_of_mem_getDestRateFromDraw P hc
  rw [withTrips_drawers] at he
  obtain ⟨t, ht, hroute⟩ := exists_route_of_mem_fill he
  obtain ⟨ht, hidx⟩ := List.mem_filter.mp ht
  exact ⟨t, ht, (congrArg Prod.fst hroute).trans hS, congrArg Prod.snd hroute,
    of_decide_eq_true hidx⟩

/-- So does a candidate of any drawer. -/
lemma exists_trip_of_mem_candidates {cw : GPSPosRes × ℚ}
    (hcw : cw ∈ candidates P (s.withTrips P bs)) :
    ∃ t ∈ bs, t.codeS = s.mFirstGPS.codeS ∧ t.codeD = cw.1.codeD ∧
      ∃ a : DrawerArray, drawerIdx t.toTripRecord a = drawerIdx s.mFirstGPS.toTripRecord a := by
  obtain ⟨aw, -, hcw⟩ := List.mem_flatMap.mp hcw
  obtain ⟨c, hc, rfl⟩ := List.mem_map.mp hcw
  obtain ⟨t, ht, hS, hD, hidx⟩ := exists_trip_of_mem_vecCate P bs s hc
  exact ⟨t, ht, hS, hD, aw.1, hidx⟩

/-- Without a trip from the start there is no candidate. -/
lemma candidates_eq_nil (hzero : startCount bs s.mFirstGPS.codeS.toInt = 0) :
    candidates P (s.withTrips P bs) = [] := by
  refine List.eq_nil_iff_forall_not_mem.mpr fun cw hcw => ?_
  obtain ⟨t, ht, hS, -⟩ := exists_trip_of_mem_candidates P bs s hcw
  rw [startCount, List.countP_eq_zero] at hzero
  exact hzero t ht (by simp [hS])

/-- A candidate has a positive count. -/
lemma one_le_count_of_mem_vecCate {a : DrawerArray} {c : GPSPosRes}
    (hc : c ∈ vecCate P (s.withTrips P bs) a) : 1 ≤ c.count := by
  obtain ⟨e, he, -, rfl⟩ := exists_of_mem_getDestRateFromDraw P hc
  rw [withTrips_drawers] at he
  exact one_le_count_fill _ e he

/-- **A drawer knows no more trips of a start than there are.** -/
lemma sum_count_vecCate_le (a : DrawerArray) :
    ((vecCate P (s.withTrips P bs) a).map (·.count)).sum ≤
      startCount bs s.mFirstGPS.codeS.toInt := by
  set i := drawerIdx s.mFirstGPS.toTripRecord a with hi
  set trips := bs.filter fun b => drawerIdx b.toTripRecord a = i with htrips
  set es := (fill trips).filter fun e => e.codeS = s.mFirstGPS.codeS with hes
  have hcate : (vecCate P (s.withTrips P bs) a).map (·.count) = (es.take 5).map (·.count) := by
    rw [vecCate, getDestRateFromDraw_eq, List.map_map, withTrips_drawers]
    rfl
  have hdrop : 0 ≤ ((es.drop 5).map (·.count)).sum := by
    refine List.sum_nonneg fun x hx => ?_
    obtain ⟨e, he, rfl⟩ := List.mem_map.mp hx
    have hfill : e ∈ fill trips := (List.mem_filter.mp (List.mem_of_mem_drop he)).1
    linarith [one_le_count_fill trips e hfill]
  have hcount : (trips.countP fun b => b.codeS = s.mFirstGPS.codeS) ≤
      startCount bs s.mFirstGPS.codeS.toInt := by
    rw [startCount]
    simp only [Int16.toInt_inj]
    exact List.Sublist.countP_le List.filter_sublist
  calc ((vecCate P (s.withTrips P bs) a).map (·.count)).sum
      = ((es.take 5).map (·.count)).sum := by rw [hcate]
    _ ≤ ((es.take 5).map (·.count)).sum + ((es.drop 5).map (·.count)).sum := by linarith
    _ = (es.map (·.count)).sum := by
        rw [← List.sum_append, ← List.map_append, List.take_append_drop]
    _ = sumCount (fun r => r.1 = s.mFirstGPS.codeS) (fill trips) := rfl
    _ = (trips.countP fun b => b.codeS = s.mFirstGPS.codeS : ℕ) := by
        rw [sumCount_fill]
        rfl
    _ ≤ startCount bs s.mFirstGPS.codeS.toInt := by exact_mod_cast hcount

/-- What a category adds up to is at most its weight. -/
lemma sum_category_le {n : ℤ} (hn : (startCount bs s.mFirstGPS.codeS.toInt : ℤ) = n)
    (hpos : 0 < n) (a : DrawerArray) {w : ℚ} (hw : 0 ≤ w) :
    (((vecCate P (s.withTrips P bs) a).map fun c => voteOf n (c, w)).map Prod.snd).sum ≤ w := by
  have hsum : ∀ cs : List GPSPosRes, ((cs.map fun c => voteOf n (c, w)).map Prod.snd).sum =
      (((cs.map (·.count)).sum : ℤ) : ℚ) / n * w := by
    intro cs
    induction cs with
    | nil => simp
    | cons c cs ih =>
        rw [List.map_cons, List.map_cons, List.sum_cons, ih, List.map_cons, List.sum_cons]
        simp only [voteOf]
        push_cast
        ring
  have hle : ((vecCate P (s.withTrips P bs) a).map (·.count)).sum ≤ n :=
    hn ▸ sum_count_vecCate_le P bs s a
  have hn0 : (0 : ℚ) < n := by exact_mod_cast hpos
  rw [hsum]
  calc ((((vecCate P (s.withTrips P bs) a).map (·.count)).sum : ℤ) : ℚ) / n * w
      ≤ (n : ℚ) / n * w := by
        refine mul_le_mul_of_nonneg_right ?_ hw
        exact div_le_div_of_nonneg_right (by exact_mod_cast hle) hn0.le
    _ = w := by rw [div_self hn0.ne', one_mul]

/-- **The votes of all candidates add up to at most 1.** -/
lemma sum_votes_le_one {n : ℤ} (hn : (startCount bs s.mFirstGPS.codeS.toInt : ℤ) = n)
    (hpos : 0 < n) :
    (((candidates P (s.withTrips P bs)).map (voteOf n)).map Prod.snd).sum ≤ 1 := by
  have h1 := sum_category_le P bs s hn hpos .mBehavWeek (w := 1 / 2) (by norm_num)
  have h2 := sum_category_le P bs s hn hpos .mBehavHour (w := 3 / 10) (by norm_num)
  have h3 := sum_category_le P bs s hn hpos .mBehavDatePerMon (w := 3 / 20) (by norm_num)
  have h4 := sum_category_le P bs s hn hpos .mBehavDatePerYear (w := 1 / 20) (by norm_num)
  simp only [candidates, categories, weights, List.zip_cons_cons, List.zip_nil_left,
    List.flatMap_cons, List.flatMap_nil, List.append_nil, List.map_append, List.map_map,
    List.sum_append]
  simp only [List.map_map] at h1 h2 h3 h4
  have hassemble := add_le_add h1 (add_le_add h2 (add_le_add h3 h4))
  refine hassemble.trans ?_
  norm_num

/-- Every vote is positive. -/
lemma voteOf_pos {n : ℤ} (hpos : 0 < n) {cw : GPSPosRes × ℚ}
    (hcw : cw ∈ candidates P (s.withTrips P bs)) : 0 < (voteOf n cw).2 := by
  obtain ⟨⟨a, w⟩, haw, hcw⟩ := List.mem_flatMap.mp hcw
  obtain ⟨c, hc, rfl⟩ := List.mem_map.mp hcw
  have hcount : (0 : ℚ) < c.count := by
    exact_mod_cast lt_of_lt_of_le zero_lt_one (one_le_count_of_mem_vecCate P bs s hc)
  have hw : 0 < w := by
    have hmem : w ∈ weights := (List.of_mem_zip haw).2
    simp only [weights, List.mem_cons, List.not_mem_nil, or_false] at hmem
    rcases hmem with rfl | rfl | rfl | rfl <;> norm_num
  have hn0 : (0 : ℚ) < n := by exact_mod_cast hpos
  exact mul_pos (div_pos hcount hn0) hw

end Recorded

/-- **Predictions are sound and behave as probabilities**, after any history of trips. -/
theorem soundPrediction (P : Platform) (hP : P.endIsNull = true) (bs : List BehaviorGPS)
    (hbs : ∀ b ∈ bs, ValidStamp b.toTripRecord) (s : GaugeArrival) :
    SoundPrediction bs s.mFirstGPS (getDestAndRate P (s.withTrips P bs)).mGpsRetLst := by
  obtain ⟨hperm, -⟩ := getDestAndRate_spec P (s.withTrips P bs)
  set cs := candidates P (s.withTrips P bs) with hcs
  set l := (getDestAndRate P (s.withTrips P bs)).mGpsRetLst
  have hmap : (s.withTrips P bs).mStCntMap s.mFirstGPS.codeS.toInt =
      countMap bs s.mFirstGPS.codeS.toInt := congrFun (recordTrips_mStCntMap bs hP) _
  by_cases hzero : startCount bs s.mFirstGPS.codeS.toInt = 0
  · -- no trip has this start, so there is no candidate
    have hempty : cs = [] := candidates_eq_nil P bs s hzero
    have hl : l = [] := by
      have h := hperm.length_eq
      rw [hempty, length_ratePairs] at h
      exact List.length_eq_zero_iff.mp h
    rw [hl]
    exact ⟨by simp, by simp, by simp, by simp, by simp⟩
  · obtain ⟨n, hn⟩ : ∃ n : ℤ, (startCount bs s.mFirstGPS.codeS.toInt : ℤ) = n := ⟨_, rfl⟩
    have hpos : 0 < n := by omega
    rw [countMap, if_neg hzero, hn] at hmap
    rw [map_vote_candidates hmap hpos.ne'] at hperm
    have hvotes : ∀ v ∈ cs.map (voteOf n), 0 < v.2 := fun v hv => by
      obtain ⟨cw, hcw, rfl⟩ := List.mem_map.mp hv
      exact voteOf_pos P bs s hpos hcw
    have hentry : ∀ e ∈ l, (e.code, e.rate) ∈ Tally.book (Tally.counted 3 [] (cs.map (voteOf n))) :=
      fun e he => by
        rw [← Tally.tally_eq_book, ← hperm.mem_iff]
        exact List.mem_map_of_mem he
    refine ⟨?_, ?_, ?_, ?_, ?_⟩
    · rw [← length_ratePairs, hperm.length_eq, Tally.tally_length (by norm_num)]
      exact min_le_left _ _
    · rw [← keys_ratePairs, (Tally.keys_perm hperm).nodup_iff, Tally.tally_eq_book]
      exact Tally.nodup_keys_book _
    · intro e he
      obtain ⟨cw, hcw, hcode⟩ := List.mem_map.mp (code_mem_destinations he)
      obtain ⟨t, ht, hS, hD, a, hidx⟩ := exists_trip_of_mem_candidates P bs s hcw
      exact ⟨t, ht, hS, hD.trans hcode, a, hidx, hidx ▸ drawerIdx_mem (hbs t ht) a⟩
    · intro e he
      obtain ⟨hkey, hrate⟩ := Tally.mem_book (hentry e he)
      have h := Tally.total_pos (fun v hv => hvotes v (Tally.counted_subset _ _ _ hv)) hkey
      rwa [← hrate] at h
    · have hsum : (l.map (·.rate)).sum = ((ratePairs l).map Prod.snd).sum := by
        rw [ratePairs, List.map_map]
        rfl
      rw [hsum, (hperm.map Prod.snd).sum_eq]
      exact (Tally.sum_tally_le 3 fun v hv => (hvotes v hv).le).trans
        (sum_votes_le_one P bs s hn hpos)

theorem soundPrediction_two :
    SoundPrediction [morningTrip 0 1, morningTrip 0 2] (morningTrip 0 0)
      (getDestAndRate .keyed (blankInstance.withTrips .keyed
        [morningTrip 0 1, morningTrip 0 2])).mGpsRetLst :=
  soundPrediction .keyed rfl [morningTrip 0 1, morningTrip 0 2]
    (by
      intro b hb
      fin_cases hb <;> exact validStamp_morningTrip _ _)
    blankInstance

end Gauge
