import Gauge.History.Clusters

/-!
The candidates that one drawer offers for a prediction, `getDestRateFromDraw`.

* `getArriveTime`: the expected time of arrival, as the source computes it.
* `getDestRateFromDraw_eq`: the candidates are the first five entries of the start.
* `oneBar_iff`: a drawer has one entry for each route, and then its candidates have
  different destinations, exactly if no destination but the first one of its start was
  driven to twice.
* `bigCountsInFront`: the candidates are the entries of the start with the biggest counts.
-/

namespace Gauge

/-- `GPS_Pos_Res`; its member `rate` is never used. -/
structure GPSPosRes where
  codeS : Int16
  codeD : Int16
  dateD : ℤ
  timeD : ℤ
  count : ℤ
  deriving DecidableEq

/-- `GaugeArrival::getArriveTime`: the value it returns and what it stores in `newDestTm`.
The day overflow is computed and then not returned: the function has no `return`. -/
def getArriveTime (P : Platform) (startTm destTm newTm : ℤ) : Bool × ℤ :=
  let (h, m, s) := timeDvt startTm
  let (h1, m1, s1) := timeDvt destTm
  let (s2, m1) := if s1 ≥ s then (s1 - s, m1) else (s1 + 60 - s, m1 - 1)
  let (m2, h1) := if m1 ≥ m then (m1 - m, h1) else (m1 + 60 - m, h1 - 1)
  -- this difference of the hours is overwritten below before it is read
  let _h2 := if h1 ≥ h then h1 - h else h1 + 24 - h
  let (h, m, s) := timeDvt newTm
  let (_s1, m1) := if s + s2 ≥ 60 then (s + s2 - 60, m + m2 + 1) else (s + s2, m + m2)
  let (_m1, h2) := if m1 ≥ 60 then (m1 - 60, h + h1 + 1) else (m1, h + h1)
  let (h2, _nextDay) := if h2 ≥ 24 then (h2 - 24, true) else (h2, false)
  (P.noReturn startTm destTm newTm, timeCvt h2 m2 s2)

/-- The candidate made from an entry `e` of the drawer for the query `behav`. -/
def destResult (P : Platform) (e behav : BehaviorGPS) : GPSPosRes :=
  let (ret, _timeD) := getArriveTime P e.time e.timeD behav.time
  let dateD := if ret then getDateByDiffDay behav.date else behav.date
  -- the time computed by `getArriveTime` is overwritten with the one of the entry
  ⟨e.codeS, e.codeD, dateD, e.timeD, e.count⟩

/-- The loop of `getDestRateFromDraw`, with `k` candidates found so far. -/
def destLoop (P : Platform) (behav : BehaviorGPS) : ℕ → List BehaviorGPS → List GPSPosRes
  | _, [] => []
  | k, e :: es =>
      if e.codeS = behav.codeS then
        destResult P e behav :: if k + 1 = 5 then [] else destLoop P behav (k + 1) es
      else destLoop P behav k es

/-- `GaugeArrival::getDestRateFromDraw`. -/
def getDestRateFromDraw (P : Platform) (vecRes : List GPSPosRes) (vecDraw : ℤ → List BehaviorGPS)
    (idx : ℤ) (behav : BehaviorGPS) : List GPSPosRes :=
  vecRes ++ destLoop P behav 0 (vecDraw idx)

variable (P : Platform)

lemma destLoop_eq (behav : BehaviorGPS) {k : ℕ} (hk : k < 5) (v : List BehaviorGPS) :
    destLoop P behav k v =
      ((v.filter fun e => e.codeS = behav.codeS).take (5 - k)).map
        fun e => destResult P e behav := by
  induction v generalizing k with
  | nil => simp [destLoop]
  | cons e es ih =>
      rw [destLoop]
      by_cases hS : e.codeS = behav.codeS
      · obtain ⟨n, hn⟩ : ∃ n, 5 - k = n + 1 := ⟨4 - k, by omega⟩
        rw [if_pos hS, List.filter_cons_of_pos (by simpa using hS), hn, List.take_succ_cons,
          List.map_cons]
        by_cases hlast : k + 1 = 5
        · rw [if_pos hlast, show n = 0 by omega]
          rfl
        · rw [if_neg hlast, ih (by omega), show 5 - (k + 1) = n by omega]
      · rw [if_neg hS, List.filter_cons_of_neg (by simpa using hS), ih hk]

/-- **The candidates** of a drawer are made from the first five entries of the start. -/
lemma getDestRateFromDraw_eq (vecDraw : ℤ → List BehaviorGPS) (idx : ℤ) (behav : BehaviorGPS) :
    getDestRateFromDraw P [] vecDraw idx behav =
      (((vecDraw idx).filter fun e => e.codeS = behav.codeS).take 5).map
        fun e => destResult P e behav := by
  rw [getDestRateFromDraw, List.nil_append, destLoop_eq P behav (by norm_num)]

/-- Every candidate comes from an entry of the drawer with the same start. -/
lemma exists_of_mem_getDestRateFromDraw {vecDraw : ℤ → List BehaviorGPS} {idx : ℤ}
    {behav : BehaviorGPS} {c : GPSPosRes}
    (hc : c ∈ getDestRateFromDraw P [] vecDraw idx behav) :
    ∃ e ∈ vecDraw idx, e.codeS = behav.codeS ∧ destResult P e behav = c := by
  rw [getDestRateFromDraw_eq] at hc
  obtain ⟨e, he, hec⟩ := List.mem_map.mp hc
  have hfilter := List.mem_filter.mp (List.mem_of_mem_take he)
  exact ⟨e, hfilter.1, of_decide_eq_true hfilter.2, hec⟩

/-! ### One bar for each route -/

/-- The drawer `idx` is a histogram: it has at most one entry for each route, and the
candidates that it offers for a start have different destinations. -/
def OneBar (vecDraw : ℤ → List BehaviorGPS) (idx : ℤ) : Prop :=
  ((vecDraw idx).map (·.route)).Nodup ∧
    ∀ behav : BehaviorGPS, ((getDestRateFromDraw P [] vecDraw idx behav).map (·.codeD)).Nodup

/-- Different routes with one start have different destinations. -/
lemma nodup_codeD_of_nodup_route {vecDraw : ℤ → List BehaviorGPS} {idx : ℤ}
    (h : ((vecDraw idx).map (·.route)).Nodup) (behav : BehaviorGPS) :
    ((getDestRateFromDraw P [] vecDraw idx behav).map (·.codeD)).Nodup := by
  rw [getDestRateFromDraw_eq, List.map_map]
  set es := ((vecDraw idx).filter fun e => e.codeS = behav.codeS).take 5 with hes
  have hsub : List.Sublist es (vecDraw idx) :=
    (List.take_sublist _ _).trans List.filter_sublist
  have hroute : (es.map (·.route)).Nodup := h.sublist (hsub.map _)
  have hS : ∀ e ∈ es, e.codeS = behav.codeS := fun e he =>
    of_decide_eq_true (List.mem_filter.mp (List.mem_of_mem_take he)).2
  refine (List.nodup_map_iff_inj_on hroute.of_map).mpr fun e he f hf hef => ?_
  exact List.inj_on_of_nodup_map hroute he hf (Prod.ext ((hS e he).trans (hS f hf).symm) hef)

/-- **One bar for each route**, exactly if only the first destination of a start is driven
to more than once: every further trip to another destination gets an entry of its own. -/
theorem oneBar_iff (vecDraw : ℤ → List BehaviorGPS) (idx : ℤ) (hempty : vecDraw idx = [])
    (bs : List BehaviorGPS) :
    OneBar P (bs.foldl (fun vd b => putInDrawer vd idx b) vecDraw) idx ↔ NoRepeatedDetour bs := by
  rw [putInDrawer_foldl vecDraw hempty, ← nodup_route_fill_iff]
  constructor
  · intro h
    simpa using h.1
  · intro h
    have h' : ((Function.update vecDraw idx (fill bs) idx).map (·.route)).Nodup := by simpa using h
    exact ⟨h', nodup_codeD_of_nodup_route P h'⟩

theorem oneBar_iff_repeated_first :
    OneBar .keyed ([morningTrip 1 2, morningTrip 1 2, morningTrip 3 2].foldl
      (fun vd b => putInDrawer vd 0 b) fun _ => []) 0 :=
  (oneBar_iff .keyed (fun _ => []) 0 rfl _).mpr (by decide)

/-- Two trips to a second destination give it two entries. -/
theorem not_forall_oneBar :
    ¬ ∀ (P : Platform) (vecDraw : ℤ → List BehaviorGPS) (idx : ℤ) (bs : List BehaviorGPS),
      vecDraw idx = [] → OneBar P (bs.foldl (fun vd b => putInDrawer vd idx b) vecDraw) idx := by
  intro h
  have hroutes := (h .keyed (fun _ => []) 0
    [morningTrip 1 2, morningTrip 1 3, morningTrip 1 3] rfl).1
  revert hroutes
  decide +kernel

/-! ### Big counts in front -/

/-- **Big counts stay in front** among the entries of each start, so that the at most five
entries that candidates are made from have no smaller counts than the ones left out. -/
theorem bigCountsInFront (vecDraw : ℤ → List BehaviorGPS) (idx : ℤ) (hempty : vecDraw idx = [])
    (bs : List BehaviorGPS) :
    (∀ s, ((bs.foldl (fun vd b => putInDrawer vd idx b) vecDraw idx).filter
        fun e => e.codeS = s).Pairwise fun e f => f.count ≤ e.count) ∧
      ∀ (vecRes : List GPSPosRes) (behav : BehaviorGPS), ∃ taken left,
        (bs.foldl (fun vd b => putInDrawer vd idx b) vecDraw idx).filter
            (fun e => e.codeS = behav.codeS) = taken ++ left ∧
          getDestRateFromDraw P vecRes (bs.foldl (fun vd b => putInDrawer vd idx b) vecDraw) idx
            behav = vecRes ++ taken.map (fun e => destResult P e behav) ∧
          taken.length ≤ 5 ∧ ∀ e ∈ taken, ∀ f ∈ left, f.count ≤ e.count := by
  rw [putInDrawer_foldl vecDraw hempty]
  simp only [Function.update_self]
  refine ⟨pairwise_count_fill bs, fun vecRes behav => ?_⟩
  set es := (fill bs).filter fun e => e.codeS = behav.codeS with hes
  refine ⟨es.take 5, es.drop 5, (List.take_append_drop 5 es).symm, ?_, List.length_take_le 5 es, ?_⟩
  · rw [getDestRateFromDraw, destLoop_eq P behav (by norm_num), Function.update_self]
  · have hsorted := pairwise_count_fill bs behav.codeS
    rw [← hes, ← List.take_append_drop 5 es] at hsorted
    exact (List.pairwise_append.mp hsorted).2.2

theorem bigCountsInFront_three_trips :
    ([morningTrip 1 2, morningTrip 1 3, morningTrip 1 2].foldl
      (fun vd b => putInDrawer vd 0 b) (fun _ => []) 0 |>.filter
        fun e => e.codeS = 1).Pairwise fun e f => f.count ≤ e.count :=
  (bigCountsInFront .keyed (fun _ => []) 0 rfl _).1 1

end Gauge
