import Gauge.Predict.Soundness
import Gauge.Recorder.Restart

/-!
What a prediction depends on: the records of the trips that start where it is asked, and
nothing else of the history.

In a drawer the entries of a start depend on its trips alone (`filter_fill`), and a start is
counted by itself (`recordTrips_mStCntMap_filter`).

* `mGpsRetLst_withTrips`: the prediction is the one after the trips of its start alone.
* `mGpsRetLst_congr`: two instances that know the same trips of the start predict the same.
-/

namespace Gauge

/-! ### The start counter -/

/-- The count of a start depends on the trips of this start only, if `find(c) != NULL` tells the
keys: otherwise all starts that are not keys share the cell behind `end()`. -/
lemma recordTrips_mStCntMap_filter {P : Platform} (hP : P.endIsNull = true)
    (bs : List BehaviorGPS) (s : Int16) :
    (recordTrips P .empty bs).mStCntMap s.toInt =
      (recordTrips P .empty (bs.filter fun b => b.codeS = s)).mStCntMap s.toInt := by
  have hcount : startCount (bs.filter fun b => b.codeS = s) s.toInt = startCount bs s.toInt := by
    rw [startCount, startCount, List.countP_filter]
    simp only [Int16.toInt_inj, Bool.and_self]
  rw [recordTrips_mStCntMap bs hP, recordTrips_mStCntMap _ hP, countMap, countMap, hcount]

/-! ### Predictions -/

/-- The records of the trips that start at `s`. -/
def recordsFrom (s : Int16) (bs : List BehaviorGPS) : List TripRecord :=
  (bs.map (·.toTripRecord)).filter fun r => r.codeS = s

section Prediction

variable (P : Platform)

/-- The loops of a prediction look up the starts of the candidates only. -/
lemma mergeLoop_snd_congr {m m' : StartCountMap} (acc acc' : List Access)
    (l : List GPSPosResRate) {cs : List (GPSPosRes × ℚ)}
    (h : ∀ cw ∈ cs, m cw.1.codeS.toInt = m' cw.1.codeS.toInt) :
    (mergeLoop P m acc l cs).2 = (mergeLoop P m' acc' l cs).2 := by
  induction cs generalizing acc acc' l with
  | nil => rfl
  | cons cw cs ih =>
      obtain ⟨c, w⟩ := cw
      have hc : countOfStart P m c.codeS.toInt = countOfStart P m' c.codeS.toInt := by
        rw [countOfStart, countOfStart, Platform.findNeNull, Platform.findNeNull,
          h (c, w) List.mem_cons_self]
      have hcs := fun cw hcw => h cw (List.mem_cons_of_mem (c, w) hcw)
      simp only [mergeLoop, hc]
      cases addRate c.codeD (rateShare c (countOfStart P m' c.codeS.toInt) w) l with
      | some l₁ => exact ih _ _ l₁ hcs
      | none =>
          dsimp only
          split
          · rfl
          · exact ih _ _ _ hcs

/-- What a prediction reads of `mFirstGPS`. -/
structure SameQuery (behav behav' : BehaviorGPS) : Prop where
  codeS : behav.codeS = behav'.codeS
  date : behav.date = behav'.date
  time : behav.time = behav'.time

lemma SameQuery.refl (behav : BehaviorGPS) : SameQuery behav behav := ⟨rfl, rfl, rfl⟩

/-- The drawers of a query are those of its date and its time. -/
lemma SameQuery.drawerIdx_eq {behav behav' : BehaviorGPS} (h : SameQuery behav behav')
    (a : DrawerArray) : drawerIdx behav.toTripRecord a = drawerIdx behav'.toTripRecord a := by
  cases a <;> simp only [drawerIdx, h.date, h.time]

/-- So are its candidates. -/
lemma SameQuery.destResult_eq {behav behav' : BehaviorGPS} (h : SameQuery behav behav')
    (e : BehaviorGPS) : destResult P e behav = destResult P e behav' := by
  rw [destResult, destResult, h.date, h.time]

/-- A prediction reads its query, the entries of its start in the drawers, and the count of the
start. -/
lemma mGpsRetLst_congr_of {s s' : GaugeArrival} (hfirst : SameQuery s.mFirstGPS s'.mFirstGPS)
    (hcount : s.mStCntMap s.mFirstGPS.codeS.toInt = s'.mStCntMap s.mFirstGPS.codeS.toInt)
    (hdraw : ∀ a i, (s.drawers a i).filter (fun e => e.codeS = s.mFirstGPS.codeS) =
      (s'.drawers a i).filter fun e => e.codeS = s.mFirstGPS.codeS) :
    (getDestAndRate P s).mGpsRetLst = (getDestAndRate P s').mGpsRetLst := by
  have hcate : ∀ a, vecCate P s a = vecCate P s' a := fun a => by
    rw [vecCate, vecCate, getDestRateFromDraw_eq, getDestRateFromDraw_eq, ← hfirst.codeS, hdraw,
      hfirst.drawerIdx_eq]
    exact List.map_congr_left fun e _ => hfirst.destResult_eq P e
  have hcand : candidates P s = candidates P s' := by
    rw [candidates, candidates]
    simp only [hcate]
  rw [getDestAndRate, getDestAndRate, ← hcand]
  refine mergeLoop_snd_congr P _ _ [] fun cw hcw => ?_
  rw [codeS_of_mem_candidates hcw]
  exact hcount

variable {P}

/-- **A prediction depends on the trips of its start only**, and on their records only. -/
theorem mGpsRetLst_withTrips (hP : P.endIsNull = true) (s : GaugeArrival) (bs : List BehaviorGPS) :
    (getDestAndRate P (s.withTrips P bs)).mGpsRetLst =
      (getDestAndRate P (s.withTrips P
        ((recordsFrom s.mFirstGPS.codeS bs).map (·.toBehavior)))).mGpsRetLst := by
  set c := s.mFirstGPS.codeS with hc
  have hrecords : (recordsFrom c bs).map (·.toBehavior) =
      (bs.filter fun b => b.codeS = c).map fun b => b.toTripRecord.toBehavior := by
    rw [recordsFrom, List.filter_map, List.map_map]
    rfl
  have hfilter : ((bs.filter fun b => b.codeS = c).map fun b =>
      b.toTripRecord.toBehavior).filter (fun b => b.codeS = c) =
        (bs.filter fun b => b.codeS = c).map fun b => b.toTripRecord.toBehavior := by
    refine List.filter_eq_self.mpr fun b hb => ?_
    obtain ⟨b', hb', rfl⟩ := List.mem_map.mp hb
    exact (List.mem_filter.mp hb').2
  rw [hrecords]
  refine mGpsRetLst_congr_of P (SameQuery.refl _) ?_ fun a i => ?_
  · show (recordTrips P .empty bs).mStCntMap c.toInt = _
    rw [recordTrips_mStCntMap_filter hP]
    exact congrFun (recordTrips_toBehavior P _).counter.symm _
  · show ((s.withTrips P bs).drawers a i).filter (fun e => e.codeS = c) =
      ((s.withTrips P _).drawers a i).filter fun e => e.codeS = c
    rw [withTrips_drawers, withTrips_drawers, filter_fill, filter_fill, List.filter_comm,
      List.filter_comm _ _ (List.map _ _), hfilter, List.filter_map, fill_map_toBehavior]
    rfl

/-- Two instances that know the same trips of the start predict the same. -/
lemma mGpsRetLst_congr (hP : P.endIsNull = true) {s s' : GaugeArrival}
    (hfirst : SameQuery s.mFirstGPS s'.mFirstGPS) {bs bs' : List BehaviorGPS}
    (h : recordsFrom s.mFirstGPS.codeS bs = recordsFrom s.mFirstGPS.codeS bs') :
    (getDestAndRate P (s.withTrips P bs)).mGpsRetLst =
      (getDestAndRate P (s'.withTrips P bs')).mGpsRetLst := by
  rw [mGpsRetLst_withTrips hP, mGpsRetLst_withTrips hP s', ← hfirst.codeS, ← h]
  exact mGpsRetLst_congr_of P hfirst rfl fun _ _ => rfl

end Prediction

end Gauge
