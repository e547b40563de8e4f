import Gauge.Calendar.Gregorian
import Gauge.Predict.Rates
import Gauge.Recorder.Restart

/-!
What is accessed while trips are recorded and destinations predicted: drawers of the four
arrays, and the start counter through the iterators of `find`.

* `indexesInRange_iff`: when every drawer index is inside its array.  The trip of zeros that
  a load records is the only one that goes outside, into the drawers -1 of the days of the
  month and of the year.
* `sameYearDrawer`: which dates share a drawer of the days of the year.
* `counterSound_iff`: when the start counter equals the history and no iterator of an absent
  key is used, on a platform whose `end()` is not a null iterator.
-/

namespace Gauge

variable (P : Platform)

/-! ### Drawer indexes -/

lemma inRange_of_mem_lookupAccess {m : StartCountMap} {c : ℤ} {x : Access}
    (hx : x ∈ P.lookupAccess m c) : x.InRange := by
  rw [Platform.lookupAccess] at hx
  split at hx
  · rw [List.mem_singleton.mp hx]
    trivial
  · simp at hx

/-- The drawers that a trip is put into exist, if its time stamp is valid. -/
lemma inRange_of_mem_recordTrip {h : History} {b : BehaviorGPS} (hb : ValidStamp b.toTripRecord)
    {x : Access} (hx : x ∈ (recordTrip P h b).accesses) : x ∈ h.accesses ∨ x.InRange := by
  rw [recordTrip_accesses, List.append_assoc, List.mem_append] at hx
  refine hx.imp_right fun hx => ?_
  rcases List.mem_append.mp hx with hx | hx
  · exact inRange_of_mem_lookupAccess P hx
  · simp only [List.mem_cons, List.not_mem_nil, or_false] at hx
    rcases hx with rfl | rfl | rfl | rfl <;> exact drawerIdx_mem hb _

/-- The trip of zeros is put into the drawers -1 of the days of the month and of the year. -/
lemma outOfRange_zeroTrip {h : History} {x : Access}
    (hx : x ∈ (recordTrip P h zeroTrip.toBehavior).accesses) :
    x ∈ h.accesses ∨ x.InRange ∨
      x = .drawer .mBehavDatePerMon (-1) ∨ x = .drawer .mBehavDatePerYear (-1) := by
  rw [recordTrip_accesses, List.append_assoc, List.mem_append] at hx
  refine hx.imp_right fun hx => ?_
  rcases List.mem_append.mp hx with hx | hx
  · exact Or.inl (inRange_of_mem_lookupAccess P hx)
  · simp only [List.mem_cons, List.not_mem_nil, or_false] at hx
    rcases hx with rfl | rfl | rfl | rfl
    · exact Or.inl (show (0 : ℤ) ≤ 1 ∧ (1 : ℤ) < 7 by decide)
    · exact Or.inl (show (0 : ℤ) ≤ 0 ∧ (0 : ℤ) < 24 by decide)
    · exact Or.inr (Or.inl rfl)
    · exact Or.inr (Or.inr (congrArg (Access.drawer .mBehavDatePerYear) getIdxOfDate_zero))

lemma mem_recordTrip_zeroTrip (h : History) :
    .drawer .mBehavDatePerMon (-1) ∈ (recordTrip P h zeroTrip.toBehavior).accesses := by
  rw [recordTrip_accesses]
  exact List.mem_append_right _ (by decide)

lemma inRange_of_mem_recordTrips {bs : List BehaviorGPS}
    (hbs : ∀ b ∈ bs, ValidStamp b.toTripRecord) :
    ∀ x ∈ (recordTrips P .empty bs).accesses, x.InRange := by
  induction bs using List.reverseRecOn with
  | nil => simp [History.empty]
  | append_singleton bs b ih =>
      intro x hx
      rw [recordTrips_concat] at hx
      have hb := hbs b (List.mem_append_right _ List.mem_cons_self)
      exact (inRange_of_mem_recordTrip P hb hx).elim
        (ih (fun b hb => hbs b (List.mem_append_left _ hb)) x) id

/-- The accesses of the two loops of a prediction are lookups of the starts of candidates. -/
lemma mem_mergeLoop_accesses {m : StartCountMap} {acc : List Access} {lst : List GPSPosResRate}
    {cs : List (GPSPosRes × ℚ)} {x : Access} (hx : x ∈ (mergeLoop P m acc lst cs).1) :
    x ∈ acc ∨ ∃ cw ∈ cs, x ∈ P.lookupAccess m cw.1.codeS.toInt := by
  induction cs generalizing acc lst with
  | nil => exact Or.inl hx
  | cons cw cs ih =>
      obtain ⟨c, w⟩ := cw
      have hstep : x ∈ acc ++ P.lookupAccess m c.codeS.toInt →
          x ∈ acc ∨ ∃ cw ∈ (c, w) :: cs, x ∈ P.lookupAccess m cw.1.codeS.toInt := fun h =>
        (List.mem_append.mp h).imp_right fun h => ⟨(c, w), List.mem_cons_self, h⟩
      have hrest : ∀ lst', x ∈ (mergeLoop P m (acc ++ P.lookupAccess m c.codeS.toInt) lst' cs).1 →
          x ∈ acc ∨ ∃ cw ∈ (c, w) :: cs, x ∈ P.lookupAccess m cw.1.codeS.toInt := fun lst' h => by
        rcases ih h with h | ⟨cw, hcw, h⟩
        · exact hstep h
        · exact Or.inr ⟨cw, List.mem_cons_of_mem _ hcw, h⟩
      simp only [mergeLoop] at hx
      split at hx
      · exact hrest _ hx
      · split at hx
        · exact hstep hx
        · exact hrest _ hx

/-- The drawers that a prediction reads exist, if the time stamp of `mFirstGPS` is valid. -/
lemma inRange_of_mem_getDestAndRate {s : GaugeArrival}
    (hs : ValidStamp s.mFirstGPS.toTripRecord) {x : Access}
    (hx : x ∈ (getDestAndRate P s).accesses) : x ∈ s.accesses ∨ x.InRange := by
  rcases mem_mergeLoop_accesses P hx with hx | ⟨cw, -, hx⟩
  · refine (List.mem_append.mp hx).imp_right fun hx => ?_
    obtain ⟨a, -, rfl⟩ := List.mem_map.mp hx
    exact drawerIdx_mem hs a
  · exact Or.inr (inRange_of_mem_lookupAccess P hx)

/-- **Only the trip of zeros goes outside**, after saves of trips with valid time stamps. -/
theorem reload_outOfRange (raw raw' : GaugeArrival) (created : Bool) (gps : Option (List LatLon))
    (ok2 : Bool) {bs : List BehaviorGPS} (hbs : ∀ b ∈ bs, ValidStamp b.toTripRecord)
    {x : Access} (hx : x ∈ (reload P raw' true ok2
      (saveTrips P (firstWorld raw created gps) (SaveCall.all bs))).accesses) :
    x.InRange ∨ x = .drawer .mBehavDatePerMon (-1) ∨ x = .drawer .mBehavDatePerYear (-1) := by
  rw [reload_toHistory, (saveTrips_firstWorld P raw created gps bs).2] at hx
  split at hx
  · simp [loadedTrips, History.empty] at hx
  · have hvalid : ∀ b ∈ (bs.map (·.toTripRecord)).map (·.toBehavior),
        ValidStamp b.toTripRecord := by
      rw [List.map_map]
      exact List.forall_mem_map.mpr hbs
    rw [loadedTrips, if_pos rfl, List.map_append, List.map_singleton, recordTrips_concat] at hx
    exact (outOfRange_zeroTrip P hx).elim
      (fun h => Or.inl (inRange_of_mem_recordTrips P hvalid x h)) id

/-- Every drawer index is inside its array: in the load that made `loaded`, in every save of
a trip with a valid time stamp, and in every prediction for one. -/
structure IndexesInRange (loaded : World) : Prop where
  load : ∀ x ∈ loaded.accesses, x.InRange
  save : ∀ (w : World) (ok1 ok2 : Bool), ValidStamp w.mLastGPS.toTripRecord →
    ∀ x ∈ (saveDriverBehavior P ok1 ok2 w).accesses, x ∈ w.accesses ∨ x.InRange
  predict : ∀ s : GaugeArrival, ValidStamp s.mFirstGPS.toTripRecord →
    ∀ x ∈ (getDestAndRate P s).accesses, x ∈ s.accesses ∨ x.InRange

/-- **Drawer indexes are in range** exactly if no behaviour file is there to be loaded. -/
theorem indexesInRange_iff (raw raw' : GaugeArrival) (created : Bool)
    (gps : Option (List LatLon)) (ok2 : Bool) (bs : List BehaviorGPS) :
    IndexesInRange P (reload P raw' true ok2
        (saveTrips P (firstWorld raw created gps) (SaveCall.all bs))) ↔
      created = false ∧ bs = [] := by
  constructor
  · intro h
    by_contra hfile
    obtain ⟨h', -, hload⟩ := reload_saveTrips P raw raw' gps ok2 hfile
    have hmem := mem_recordTrip_zeroTrip P h'
    rw [← hload] at hmem
    exact absurd (h.load _ hmem).1 (by decide)
  · intro hfile
    have hload := reload_toHistory P raw' true ok2
      (saveTrips P (firstWorld raw created gps) (SaveCall.all bs))
    rw [(saveTrips_firstWorld P raw created gps bs).2, if_pos hfile] at hload
    refine ⟨?_, ?_, fun s hs x hx => inRange_of_mem_getDestAndRate P hs hx⟩
    · rw [hload]
      simp [loadedTrips, History.empty]
    · intro w ok1 ok2 hw x hx
      cases ok1 with
      | false => exact Or.inl hx
      | true =>
          rw [saveDriverBehavior_toHistory] at hx
          exact inRange_of_mem_recordTrip P hw hx

/-- The load of one trip addresses the drawer -1 of the days of the month. -/
theorem not_forall_indexesInRange :
    ¬ ∀ (P : Platform) (raw raw' : GaugeArrival) (created : Bool) (gps : Option (List LatLon))
      (ok2 : Bool) (bs : List BehaviorGPS), (∀ b ∈ bs, ValidStamp b.toTripRecord) →
        IndexesInRange P (reload P raw' true ok2
          (saveTrips P (firstWorld raw created gps) (SaveCall.all bs))) := by
  intro h
  have hload := (h .keyed blankInstance blankInstance false none true [morningTrip 0 1]
    (List.forall_mem_singleton.mpr (validStamp_morningTrip 0 1))).load
  exact absurd (hload (.drawer .mBehavDatePerMon (-1)) (by decide +kernel)).1 (by decide)

/-! ### The drawer of the year -/

/-- The accesses of a prediction begin with those that were there. -/
lemma mem_mergeLoop_of_mem {m : StartCountMap} {acc : List Access} {lst : List GPSPosResRate}
    {cs : List (GPSPosRes × ℚ)} {x : Access} (hx : x ∈ acc) :
    x ∈ (mergeLoop P m acc lst cs).1 := by
  induction cs generalizing acc lst with
  | nil => exact hx
  | cons cw cs ih =>
      have hx' := List.mem_append_left (P.lookupAccess m cw.1.codeS.toInt) hx
      simp only [mergeLoop]
      split
      · exact ih hx'
      · split
        · exact hx'
        · exact ih hx'

/-- Recording the trip `b` and a prediction of the instance `s` address the same drawer of an
array. -/
def SameDrawer (a : DrawerArray) (b : BehaviorGPS) (s : GaugeArrival) : Prop :=
  ∃ i, .drawer a i ∈ (recordTrip P .empty b).accesses ∧
    .drawer a i ∈ (getDestAndRate P { s with accesses := [] }).accesses

lemma not_mem_lookupAccess {m : StartCountMap} {c : ℤ} {a : DrawerArray} {i : ℤ} :
    .drawer a i ∉ P.lookupAccess m c := by
  rw [Platform.lookupAccess]
  split <;> simp

lemma drawer_mem_recordTrip_iff {b : BehaviorGPS} {a : DrawerArray} {i : ℤ} :
    .drawer a i ∈ (recordTrip P .empty b).accesses ↔ i = drawerIdx b.toTripRecord a := by
  rw [recordTrip_accesses, List.append_assoc, List.mem_append, List.mem_append]
  simp only [History.empty, List.not_mem_nil, not_mem_lookupAccess, false_or]
  cases a <;> simp

lemma drawer_mem_getDestAndRate_iff {s : GaugeArrival} {a : DrawerArray} {i : ℤ} :
    .drawer a i ∈ (getDestAndRate P { s with accesses := [] }).accesses ↔
      i = drawerIdx s.mFirstGPS.toTripRecord a := by
  have hcat : .drawer a i ∈ [] ++ categories.map
      (fun a => Access.drawer a (drawerIdx s.mFirstGPS.toTripRecord a)) ↔
        i = drawerIdx s.mFirstGPS.toTripRecord a := by
    rw [List.nil_append]
    cases a <;> simp [categories]
  rw [← hcat]
  refine ⟨fun h => ?_, fun h => mem_mergeLoop_of_mem P h⟩
  exact (mem_mergeLoop_accesses P h).resolve_right fun ⟨_, _, h⟩ => not_mem_lookupAccess P h

/-- A trip and a query meet in the drawer that both of them belong to. -/
lemma sameDrawer_iff {a : DrawerArray} {b : BehaviorGPS} {s : GaugeArrival} :
    SameDrawer P a b s ↔
      drawerIdx b.toTripRecord a = drawerIdx s.mFirstGPS.toTripRecord a := by
  rw [SameDrawer]
  simp only [drawer_mem_recordTrip_iff, drawer_mem_getDestAndRate_iff, exists_eq_left]

/-- **The drawer of the year is the one of the day of the year.**  In two years of one kind, and
before 29 February, this is the calendar date; from 29 February on a date of a leap year shares
its drawer with the day after it in a common year. -/
theorem sameYearDrawer {b : BehaviorGPS} {s : GaugeArrival} {d d' : CalDate}
    (hb : b.date = d.packed) (hs : s.mFirstGPS.date = d'.packed) :
    ((IsLeap d.year ↔ IsLeap d'.year) ∨ ¬ d.Late ∨ ¬ d'.Late →
      (SameDrawer P .mBehavDatePerYear b s ↔ d.mon = d'.mon ∧ d.day = d'.day)) ∧
    (IsLeap d.year → ¬ IsLeap d'.year → d.Late →
      (SameDrawer P .mBehavDatePerYear b s ↔
        d.next.year = d.year ∧ d.next.mon = d'.mon ∧ d.next.day = d'.day)) ∧
    (¬ IsLeap d.year → IsLeap d'.year → d'.Late →
      (SameDrawer P .mBehavDatePerYear b s ↔
        d'.next.year = d'.year ∧ d'.next.mon = d.mon ∧ d'.next.day = d.day)) := by
  have hidx : SameDrawer P .mBehavDatePerYear b s ↔
      getIdxOfDate d.year d.mon d.day = getIdxOfDate d'.year d'.mon d'.day := by
    rw [sameDrawer_iff, drawerIdx, drawerIdx, hb, hs, d.dvt_packed, d'.dvt_packed]
  rw [hidx]
  refine ⟨?_, fun hleap hcommon hlate => getIdxOfDate_eq_iff_of_leap hleap hcommon hlate,
    fun hcommon hleap hlate => eq_comm.trans (getIdxOfDate_eq_iff_of_leap hleap hcommon hlate)⟩
  rintro (h | h | h)
  · exact getIdxOfDate_eq_iff_of_alike (Or.inl h)
  · exact getIdxOfDate_eq_iff_of_alike (Or.inr h)
  · rw [eq_comm, getIdxOfDate_eq_iff_of_alike (Or.inr h), eq_comm, @eq_comm _ d'.day]

/-- The instance of the morning, asked on the date `ymd`. -/
def askedOn (ymd : ℤ) : GaugeArrival :=
  { blankInstance with mFirstGPS := { morningTrip 0 0 with date := ymd } }

/-- A trip of 14 March of a leap year is found on 15 March of a common year. -/
theorem sameYearDrawer_march :
    SameDrawer .keyed .mBehavDatePerYear { morningTrip 0 1 with date := 20160314 }
      (askedOn 20130315) :=
  have htrip : ({ morningTrip 0 1 with date := 20160314 } : BehaviorGPS).date =
      CalDate.packed ⟨2016, 3, 14, by decide, by decide, by decide⟩ := rfl
  have hasked : (askedOn 20130315).mFirstGPS.date =
      CalDate.packed ⟨2013, 3, 15, by decide, by decide, by decide⟩ := rfl
  ((sameYearDrawer .keyed htrip hasked).2.1 (by decide) (by decide) (.inl (by decide))).mpr
    (by decide)

/-- A trip of 1 March 2013 is not found on 1 March 2016. -/
theorem not_forall_sameYearDrawer :
    ¬ ∀ (P : Platform) (b : BehaviorGPS) (s : GaugeArrival) (d d' : CalDate),
      b.date = d.packed → s.mFirstGPS.date = d'.packed →
        (SameDrawer P .mBehavDatePerYear b s ↔ d.mon = d'.mon ∧ d.day = d'.day) := by
  intro h
  have hmarch := (h .keyed { morningTrip 0 1 with date := 20130301 } (askedOn 20160301)
    ⟨2013, 3, 1, by decide, by decide, by decide⟩ ⟨2016, 3, 1, by decide, by decide, by decide⟩
    rfl rfl).mpr ⟨rfl, rfl⟩
  rw [sameDrawer_iff] at hmarch
  revert hmarch
  decide

/-! ### The start counter -/

section Standard

variable {P}

/-- If `end()` is not a null iterator then no start is ever inserted. -/
lemma recordTrips_mStCntMap_standard (hP : P.endIsNull = false) (bs : List BehaviorGPS) :
    (recordTrips P .empty bs).mStCntMap = fun _ => none := by
  induction bs using List.reverseRecOn with
  | nil => rfl
  | append_singleton bs b ih =>
      rw [recordTrips_concat, recordTrip_mStCntMap, History.countStart, Platform.findNeNull, ih, hP]
      funext c
      cases hc : decide (c = b.codeS.toInt) <;> simp_all

/-- Instead, the past-the-end iterator is used for every trip. -/
lemma mem_recordTrip_standard (hP : P.endIsNull = false) {h : History}
    (hmap : h.mStCntMap = fun _ => none) (b : BehaviorGPS) :
    .iter false ∈ (recordTrip P h b).accesses := by
  rw [recordTrip_accesses, Platform.lookupAccess, Platform.findNeNull, hmap, hP]
  simp

end Standard

/-- The start counter equals the history, and every iterator that was used so far, or would
be used by a prediction, belongs to a key. -/
structure CounterSound (s : GaugeArrival) : Prop where
  counts : s.mStCntMap = countMap s.mBehavGpsVec
  lookups : ∀ x ∈ s.accesses, x.OfKey
  predict : ∀ first : BehaviorGPS,
    ∀ x ∈ (getDestAndRate P { s with mFirstGPS := first }).accesses, x.OfKey

lemma savedTrips_eq_nil_iff (calls : List SaveCall) :
    savedTrips calls = [] ↔ ∀ c ∈ calls, c.ok1 = false := by
  simp [savedTrips, List.filter_eq_nil_iff]

lemma loadedTrips_eq_nil_iff (ok1 : Bool) (file : Option (List TripRecord)) :
    loadedTrips ok1 file = [] ↔ ok1 = false ∨ file = none := by
  cases file <;> cases ok1 <;> simp [loadedTrips]

/-- **The start counter equals the history** exactly if no trip is recorded, on a platform
whose `end()` is not a null iterator. -/
theorem counterSound_iff (hP : P.endIsNull = false) (raw : GaugeArrival) (ok1 ok2 : Bool)
    (w : World) (calls : List SaveCall) :
    CounterSound P (saveTrips P (reload P raw ok1 ok2 w) calls).toGaugeArrival ↔
      (ok1 = false ∨ w.behaviorFile = none) ∧ ∀ c ∈ calls, c.ok1 = false := by
  set s := (saveTrips P (reload P raw ok1 ok2 w) calls).toGaugeArrival with hs
  set bs := loadedTrips ok1 w.behaviorFile ++ savedTrips calls with hbs
  have hhist : s.toHistory = recordTrips P .empty bs := by
    rw [hs, saveTrips_toHistory, reload_toHistory, recordTrips, recordTrips, recordTrips, hbs,
      List.foldl_append]
  have hnil : bs = [] ↔ (ok1 = false ∨ w.behaviorFile = none) ∧ ∀ c ∈ calls, c.ok1 = false := by
    rw [hbs, List.append_eq_nil_iff, loadedTrips_eq_nil_iff, savedTrips_eq_nil_iff]
  rw [← hnil]
  constructor
  · intro h
    by_contra hne
    obtain ⟨bs', b, hb⟩ := List.eq_nil_or_concat bs |>.resolve_left hne
    have hmem : Access.iter false ∈ s.accesses := by
      rw [hhist, hb, List.concat_eq_append, recordTrips_concat]
      exact mem_recordTrip_standard hP (recordTrips_mStCntMap_standard hP bs') b
    exact Bool.false_ne_true (h.lookups _ hmem)
  · intro hempty
    rw [hempty, recordTrips_nil] at hhist
    refine ⟨?_, ?_, fun first x hx => ?_⟩
    · rw [hhist]
      rfl
    · rw [hhist]
      simp [History.empty]
    · have hcands : candidates P { s with mFirstGPS := first } = [] := by
        simp [candidates, categories, weights, vecCate, getDestRateFromDraw, hhist, History.empty,
          destLoop]
      rcases mem_mergeLoop_accesses P hx with hx | ⟨cw, hcw, -⟩
      · rcases List.mem_append.mp hx with hx | hx
        · rw [hhist] at hx
          simp [History.empty] at hx
        · obtain ⟨a, -, rfl⟩ := List.mem_map.mp hx
          trivial
      · rw [hcands] at hcw
        simp at hcw

theorem counterSound_iff_failed_save :
    CounterSound .standard (saveTrips .standard
      (reload .standard blankInstance true true
        (firstWorld blankInstance false none))
      [⟨morningTrip 0 1, false, true⟩]).toGaugeArrival :=
  (counterSound_iff .standard rfl blankInstance true true
    (firstWorld blankInstance false none)
    [⟨morningTrip 0 1, false, true⟩]).mpr ⟨Or.inr rfl, List.forall_mem_singleton.mpr rfl⟩

/-- One saved trip is not counted. -/
theorem not_forall_counterSound :
    ¬ ∀ (P : Platform) (raw : GaugeArrival) (ok1 ok2 : Bool) (w : World)
      (calls : List SaveCall), P.endIsNull = false →
        CounterSound P (saveTrips P (reload P raw ok1 ok2 w) calls).toGaugeArrival := by
  intro h
  have hcount := congrFun (h .standard blankInstance true true (firstWorld blankInstance false none)
    (SaveCall.all [morningTrip 0 1]) rfl).counts 0
  revert hcount
  decide +kernel

end Gauge
