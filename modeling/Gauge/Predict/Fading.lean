import Gauge.Predict.Saturation

/-!
The rates of destinations that no drawer offers first.

Each trip to such a destination gets an entry of its own, with the count 1, and a drawer offers
five entries of a start.  So the rate cannot keep up with the trips: it is at most 4 over the number
of trips from the start (`rate_le_of_not_first`).
-/

namespace Gauge

/-- A drawer goes on offering first what it has offered first. -/
lemma head?_offers_append {c d : Int16} {a : DrawerArray} {i : ℤ} {rs : List TripRecord}
    (rs' : List TripRecord) (hd : (offers c a i rs).head? = some d) :
    (offers c a i (rs ++ rs')).head? = some d := by
  obtain ⟨t, ht⟩ := prefix_offers (c := c) (a := a) (i := i) rs rs'
  rw [← ht, List.head?_append, hd, Option.some_or]

/-- The votes of one drawer for a destination. -/
lemma total_category (n : ℤ) (w : ℚ) (d : Int16) (cs : List GPSPosRes) :
    Tally.total (cs.map fun c => voteOf n (c, w)) d =
      ((((cs.filter fun c => c.codeD = d).map (·.count)).sum : ℤ) : ℚ) / n * w := by
  induction cs with
  | nil => simp
  | cons c cs ih =>
      have hkey : (voteOf n (c, w)).1 = c.codeD := rfl
      rw [List.map_cons, Tally.total_cons, ih, hkey]
      by_cases hD : c.codeD = d
      · rw [if_pos hD, List.filter_cons_of_pos (by simpa using hD), List.map_cons, List.sum_cons]
        simp only [voteOf]
        push_cast
        ring
      · rw [if_neg hD, List.filter_cons_of_neg (by simpa using hD), zero_add]

/-- Behind the first entry of a start every entry counts one trip. -/
lemma sum_count_detours_le {c d : Int16} {bs : List BehaviorGPS} (hS : ∀ b ∈ bs, b.codeS = c)
    (hfirst : ((fill bs).map (·.codeD)).head? ≠ some d) :
    ((((fill bs).take 5).filter fun e => e.codeD = d).map (·.count)).sum ≤ 4 := by
  have hfront := frontLoaded_fill hS
  cases hfill : fill bs with
  | nil => simp
  | cons e es =>
      rw [hfill] at hfront hfirst
      have hD : e.codeD ≠ d := fun hD => hfirst (congrArg some hD)
      rw [List.take_succ_cons, List.filter_cons_of_neg (by simpa using hD)]
      have hone : ∀ x ∈ ((es.take 4).filter fun e => e.codeD = d).map (·.count), x ≤ 1 := by
        intro x hx
        obtain ⟨f, hf, rfl⟩ := List.mem_map.mp hx
        exact (hfront.2 f (List.mem_of_mem_take (List.mem_filter.mp hf).1)).le
      have hlen : ((es.take 4).filter fun e => e.codeD = d).length ≤ 4 :=
        (List.length_filter_le _ _).trans (by rw [List.length_take]; exact min_le_left _ _)
      calc (((es.take 4).filter fun e => e.codeD = d).map (·.count)).sum
          ≤ ((es.take 4).filter fun e => e.codeD = d).length • (1 : ℤ) := by
            simpa using List.sum_le_card_nsmul _ 1 hone
        _ ≤ 4 := by
            rw [nsmul_one]
            exact_mod_cast hlen

section Recorded

variable (P : Platform) (bs : List BehaviorGPS) (s : GaugeArrival)

/-- The votes of a drawer for a destination that is not the first one that it offers. -/
lemma total_vecCate_le {n : ℤ} (hpos : 0 < n) (a : DrawerArray) {w : ℚ} (hw : 0 ≤ w) {d : Int16}
    (hfirst : ((vecCate P (s.withTrips P bs) a).map (·.codeD)).head? ≠ some d) :
    Tally.total ((vecCate P (s.withTrips P bs) a).map fun c => voteOf n (c, w)) d ≤ 4 / n * w := by
  have hcate := vecCate_withTrips P s bs a
  set trips := bs.filter fun b => b.codeS = s.mFirstGPS.codeS ∧
    drawerIdx b.toTripRecord a = drawerIdx s.mFirstGPS.toTripRecord a
  have hhead : ((fill trips).map (·.codeD)).head? ≠ some d := by
    rw [hcate, List.map_map] at hfirst
    cases hfill : fill trips with
    | nil => simp
    | cons e es =>
        rw [hfill] at hfirst
        exact hfirst
  have hcount : ((vecCate P (s.withTrips P bs) a).filter fun r => r.codeD = d).map (·.count) =
      (((fill trips).take 5).filter fun e => e.codeD = d).map (·.count) := by
    rw [hcate, List.filter_map, List.map_map]
    rfl
  have hle := sum_count_detours_le
    (fun b hb => (of_decide_eq_true (List.mem_filter.mp hb).2).1) hhead
  have hn0 : (0 : ℚ) < n := by exact_mod_cast hpos
  rw [total_category, hcount]
  refine mul_le_mul_of_nonneg_right ?_ hw
  exact div_le_div_of_nonneg_right (by exact_mod_cast hle) hn0.le

/-- The votes of all drawers for a destination that none of them offers first. -/
lemma total_candidates_le {n : ℤ} (hpos : 0 < n) {d : Int16}
    (hfirst : ∀ ds ∈ offered P (s.withTrips P bs), ds.head? ≠ some d) :
    Tally.total ((candidates P (s.withTrips P bs)).map (voteOf n)) d ≤ 4 / n := by
  have hhead : ∀ a ∈ categories,
      ((vecCate P (s.withTrips P bs) a).map (·.codeD)).head? ≠ some d :=
    fun a ha => hfirst _ (List.mem_map_of_mem ha)
  have h1 := total_vecCate_le P bs s hpos .mBehavWeek (w := 1 / 2) (by norm_num)
    (hhead _ (by simp [categories]))
  have h2 := total_vecCate_le P bs s hpos .mBehavHour (w := 3 / 10) (by norm_num)
    (hhead _ (by simp [categories]))
  have h3 := total_vecCate_le P bs s hpos .mBehavDatePerMon (w := 3 / 20) (by norm_num)
    (hhead _ (by simp [categories]))
  have h4 := total_vecCate_le P bs s hpos .mBehavDatePerYear (w := 1 / 20) (by norm_num)
    (hhead _ (by simp [categories]))
  have hsplit : (candidates P (s.withTrips P bs)).map (voteOf n) =
      ((vecCate P (s.withTrips P bs) .mBehavWeek).map fun c => voteOf n (c, 1 / 2)) ++
      (((vecCate P (s.withTrips P bs) .mBehavHour).map fun c => voteOf n (c, 3 / 10)) ++
      (((vecCate P (s.withTrips P bs) .mBehavDatePerMon).map fun c => voteOf n (c, 3 / 20)) ++
      ((vecCate P (s.withTrips P bs) .mBehavDatePerYear).map fun c => voteOf n (c, 1 / 20)))) := by
    simp [candidates, categories, weights, Function.comp_def]
  rw [hsplit, Tally.total_append, Tally.total_append, Tally.total_append]
  calc _ ≤ 4 / (n : ℚ) * (1 / 2) + (4 / n * (3 / 10) + (4 / n * (3 / 20) + 4 / n * (1 / 20))) :=
        add_le_add h1 (add_le_add h2 (add_le_add h3 h4))
    _ = 4 / n := by ring

end Recorded

/-- **What no drawer offers first fades**: its rate is at most 4 over the number of trips from the
start, however many of these go there. -/
lemma rate_le_of_not_first (P : Platform) (hP : P.endIsNull = true) (bs : List BehaviorGPS)
    (s : GaugeArrival) {e : GPSPosResRate}
    (he : e ∈ (getDestAndRate P (s.withTrips P bs)).mGpsRetLst)
    (hfirst : ∀ ds ∈ offered P (s.withTrips P bs), ds.head? ≠ some e.code) :
    e.rate ≤ 4 / startCount bs s.mFirstGPS.codeS.toInt := by
  obtain ⟨hperm, -⟩ := getDestAndRate_spec P (s.withTrips P bs)
  set cs := candidates P (s.withTrips P bs) with hcs
  have hmap : (s.withTrips P bs).mStCntMap s.mFirstGPS.codeS.toInt =
      countMap bs s.mFirstGPS.codeS.toInt := congrFun (recordTrips_mStCntMap bs hP) _
  have hzero : startCount bs s.mFirstGPS.codeS.toInt ≠ 0 := fun hzero => by
    obtain ⟨cw, hcw, -⟩ := List.mem_map.mp (code_mem_destinations he)
    rw [candidates_eq_nil P bs s hzero] at hcw
    cases hcw
  obtain ⟨n, hn⟩ : ∃ n : ℤ, (startCount bs s.mFirstGPS.codeS.toInt : ℤ) = n := ⟨_, rfl⟩
  have hpos : 0 < n := by omega
  rw [countMap, if_neg hzero, hn] at hmap
  rw [map_vote_candidates hmap hpos.ne'] at hperm
  set vs := cs.map (voteOf n) with hvs
  have hentry : (e.code, e.rate) ∈ Tally.book (Tally.counted 3 [] vs) := by
    rw [← Tally.tally_eq_book, ← hperm.mem_iff]
    exact List.mem_map_of_mem he
  have hunread : 0 ≤ Tally.total (Tally.unread 3 [] vs) e.code := by
    refine Tally.total_nonneg (fun v hv => ?_) e.code
    have hmem : v ∈ vs := by
      rw [← Tally.counted_append_unread 3 [] vs]
      exact List.mem_append_right _ hv
    obtain ⟨cw, hcw, rfl⟩ := List.mem_map.mp hmem
    exact (voteOf_pos P bs s hpos hcw).le
  have hcast : (startCount bs s.mFirstGPS.codeS.toInt : ℚ) = n := by exact_mod_cast hn
  rw [hcast]
  calc e.rate = Tally.total (Tally.counted 3 [] vs) e.code := (Tally.mem_book hentry).2
    _ ≤ Tally.total (Tally.counted 3 [] vs) e.code + Tally.total (Tally.unread 3 [] vs) e.code :=
        le_add_of_nonneg_right hunread
    _ = Tally.total vs e.code := by
        rw [← Tally.total_append, Tally.counted_append_unread]
    _ ≤ 4 / n := total_candidates_le P bs s hpos hfirst

end Gauge
