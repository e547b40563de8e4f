import Gauge.Recorder.Files

/-!
A restart: what the load of a new process makes of the trips that saves have left in the
behaviour file.

`reload_toHistory` is the comparison of the two code paths.  The load rebuilds the structures
that the saves built, and then records one trip more, of zeros; all results of this module
follow from it.

* `reload_saveTrips`: the load is the history that was saved, and the trip of zeros.
* `restartEquivalent_iff`: when the structures in memory survive the restart.
-/

namespace Gauge

/-- A call of `saveDriverBehavior`: the trip in `mLastGPS` and which files can be opened. -/
structure SaveCall where
  trip : BehaviorGPS
  ok1 : Bool
  ok2 : Bool

/-- The calls that save the trips `bs` and can open everything. -/
def SaveCall.all (bs : List BehaviorGPS) : List SaveCall := bs.map fun b => ⟨b, true, true⟩

/-- A sequence of calls of `saveDriverBehavior`. -/
def saveTrips (P : Platform) (w : World) (calls : List SaveCall) : World :=
  calls.foldl (fun w c => saveDriverBehavior P c.ok1 c.ok2 { w with mLastGPS := c.trip }) w

/-- The trips of the calls that can open the behaviour file. -/
def savedTrips (calls : List SaveCall) : List BehaviorGPS :=
  (calls.filter (·.ok1)).map (·.trip)

/-- The load of a new process over the files of `w`. -/
def reload (P : Platform) (raw : GaugeArrival) (ok1 ok2 : Bool) (w : World) : World :=
  loadDriverBehavior P ok1 ok2 (w.construct raw)

/-- The trips that the load of a file records. -/
def loadedTrips (ok1 : Bool) : Option (List TripRecord) → List BehaviorGPS
  | some file => if ok1 then (file ++ [zeroTrip]).map (·.toBehavior) else []
  | none => []

section Saves

variable (P : Platform)

@[simp] lemma savedTrips_all (bs : List BehaviorGPS) : savedTrips (SaveCall.all bs) = bs := by
  simp [savedTrips, SaveCall.all, List.filter_map, Function.comp_def]

lemma saveTrips_concat (w : World) (calls : List SaveCall) (c : SaveCall) :
    saveTrips P w (calls ++ [c]) =
      saveDriverBehavior P c.ok1 c.ok2 { saveTrips P w calls with mLastGPS := c.trip } := by
  rw [saveTrips, List.foldl_append]
  rfl

lemma savedTrips_concat (calls : List SaveCall) (c : SaveCall) :
    savedTrips (calls ++ [c]) = savedTrips calls ++ if c.ok1 then [c.trip] else [] := by
  cases h : c.ok1 <;> simp [savedTrips, List.filter_append, h]

/-- The saves record their trips in the memory. -/
lemma saveTrips_toHistory (w : World) (calls : List SaveCall) :
    (saveTrips P w calls).toHistory = recordTrips P w.toHistory (savedTrips calls) := by
  induction calls using List.reverseRecOn with
  | nil => rfl
  | append_singleton calls c ih =>
      rw [saveTrips_concat, savedTrips_concat]
      obtain ⟨trip, ok1, ok2⟩ := c
      cases ok1 with
      | false => simpa using ih
      | true =>
          rw [if_pos rfl, recordTrips_concat, ← ih, saveDriverBehavior_toHistory]

/-- The saves append the records of their trips to the behaviour file. -/
lemma saveTrips_behaviorFile (w : World) (calls : List SaveCall) :
    (saveTrips P w calls).behaviorFile =
      if savedTrips calls = [] then w.behaviorFile
      else some (w.behaviorFile.getD [] ++ (savedTrips calls).map (·.toTripRecord)) := by
  induction calls using List.reverseRecOn with
  | nil => rfl
  | append_singleton calls c ih =>
      rw [saveTrips_concat, savedTrips_concat]
      obtain ⟨trip, ok1, ok2⟩ := c
      cases ok1 with
      | false => simpa using ih
      | true =>
          have hsave : (saveDriverBehavior P true ok2
              { saveTrips P w calls with mLastGPS := trip }).behaviorFile =
                some ((saveTrips P w calls).behaviorFile.getD [] ++ [trip.toTripRecord]) := by
            cases ok2 <;> rfl
          rw [hsave, ih]
          cases savedTrips calls with
          | nil => simp
          | cons b bs => simp

/-- The load of a new process records the trips of the file and one more, of zeros. -/
lemma reload_toHistory (raw : GaugeArrival) (ok1 ok2 : Bool) (w : World) :
    (reload P raw ok1 ok2 w).toHistory =
      recordTrips P .empty (loadedTrips ok1 w.behaviorFile) := by
  rw [reload]
  cases hfile : w.behaviorFile with
  | none =>
      rw [loadDriverBehavior_closed P (w := w.construct raw) (Or.inr hfile)]
      rfl
  | some file =>
      cases ok1 with
      | false =>
          rw [loadDriverBehavior_closed P (w := w.construct raw) (Or.inl rfl)]
          rfl
      | true => exact loadDriverBehavior_toHistory P (w := w.construct raw) hfile ok2

/-- What a process that loaded nothing leaves behind. -/
lemma saveTrips_firstWorld (raw : GaugeArrival) (created : Bool) (gps : Option (List LatLon))
    (bs : List BehaviorGPS) :
    (saveTrips P (firstWorld raw created gps) (SaveCall.all bs)).toHistory =
        recordTrips P .empty bs ∧
      (saveTrips P (firstWorld raw created gps) (SaveCall.all bs)).behaviorFile =
        if created = false ∧ bs = [] then none else some (bs.map (·.toTripRecord)) := by
  constructor
  · rw [saveTrips_toHistory, savedTrips_all]
    rfl
  · rw [saveTrips_behaviorFile, savedTrips_all]
    cases bs <;> cases created <;> simp [firstWorld]

end Saves

/-! ### Equivalence -/

/-- Two histories are the same as far as the behaviour file can tell: the counts of the
vector of trips are not in it. -/
structure RestartEquivalent (h h' : History) : Prop where
  trips : h'.mBehavGpsVec.map (·.toTripRecord) = h.mBehavGpsVec.map (·.toTripRecord)
  counter : h'.mStCntMap = h.mStCntMap
  drawers : ∀ (a : DrawerArray) (i : ℤ), 0 ≤ i → i < a.size → h'.drawers a i = h.drawers a i

section Equivalence

variable (P : Platform)

/-- The count of a trip is overwritten before it is put into a drawer. -/
lemma put_toBehavior (b : BehaviorGPS) (v : List BehaviorGPS) :
    put b.toTripRecord.toBehavior v = put b v := by
  induction v with
  | nil => rfl
  | cons e es ih =>
      rw [put, put, ih]
      rfl

lemma fill_map_toBehavior (bs : List BehaviorGPS) :
    fill (bs.map fun b => b.toTripRecord.toBehavior) = fill bs := by
  rw [fill, fill, List.foldl_map]
  simp only [put_toBehavior]

/-- The counter looks at nothing but the counter. -/
lemma countStart_congr {h h' : History} (heq : h'.mStCntMap = h.mStCntMap) (c : ℤ) :
    (h'.countStart P c).mStCntMap = (h.countStart P c).mStCntMap := by
  rw [History.countStart, History.countStart, heq]
  split <;> rfl

/-- The structures do not depend on the counts that the file does not keep. -/
lemma recordTrips_toBehavior (bs : List BehaviorGPS) :
    RestartEquivalent (recordTrips P .empty bs)
      (recordTrips P .empty (bs.map fun b => b.toTripRecord.toBehavior)) where
  trips := by
    rw [recordTrips_mBehavGpsVec, recordTrips_mBehavGpsVec, List.map_append, List.map_append,
      List.map_map]
    rfl
  counter := by
    induction bs using List.reverseRecOn with
    | nil => rfl
    | append_singleton bs b ih =>
        rw [List.map_append, List.map_singleton, recordTrips_concat, recordTrips_concat,
          recordTrip_mStCntMap, recordTrip_mStCntMap]
        exact countStart_congr P ih b.codeS.toInt
  drawers a i _ _ := by
    rw [recordTrips_drawers, recordTrips_drawers, List.filter_map, fill_map_toBehavior]
    rfl

/-- **The load rebuilds what the saves built, and records a trip of zeros on top.** -/
theorem reload_saveTrips (raw raw' : GaugeArrival) {created : Bool} (gps : Option (List LatLon))
    (ok2 : Bool) {bs : List BehaviorGPS} (hfile : ¬ (created = false ∧ bs = [])) :
    ∃ h, RestartEquivalent
        (saveTrips P (firstWorld raw created gps) (SaveCall.all bs)).toHistory h ∧
      (reload P raw' true ok2
        (saveTrips P (firstWorld raw created gps) (SaveCall.all bs))).toHistory =
          recordTrip P h zeroTrip.toBehavior := by
  obtain ⟨hsaved, hbehavior⟩ := saveTrips_firstWorld P raw created gps bs
  rw [if_neg hfile] at hbehavior
  refine ⟨_, hsaved ▸ recordTrips_toBehavior P bs, ?_⟩
  calc (reload P raw' true ok2
        (saveTrips P (firstWorld raw created gps) (SaveCall.all bs))).toHistory
      = recordTrips P .empty (loadedTrips true (some (bs.map (·.toTripRecord)))) := by
        rw [reload_toHistory, hbehavior]
    _ = recordTrips P .empty
          ((bs.map fun b => b.toTripRecord.toBehavior) ++ [zeroTrip.toBehavior]) := by
        rw [loadedTrips, if_pos rfl, List.map_append, List.map_map, List.map_singleton]
        rfl
    _ = _ := recordTrips_concat _ _ _ _

/-- **The history survives the restart** exactly if there is none and no file for it. -/
theorem restartEquivalent_iff (raw raw' : GaugeArrival) (created : Bool)
    (gps : Option (List LatLon)) (ok2 : Bool) (bs : List BehaviorGPS) :
    RestartEquivalent
        (saveTrips P (firstWorld raw created gps) (SaveCall.all bs)).toHistory
        (reload P raw' true ok2
          (saveTrips P (firstWorld raw created gps) (SaveCall.all bs))).toHistory ↔
      created = false ∧ bs = [] := by
  obtain ⟨hsaved, hbehavior⟩ := saveTrips_firstWorld P raw created gps bs
  constructor
  · intro hequiv
    by_contra hfile
    obtain ⟨h, hh, hload⟩ := reload_saveTrips P raw raw' gps ok2 hfile
    have hlen := congrArg List.length (hequiv.trips.trans hh.trips.symm)
    rw [hload, recordTrip_mBehavGpsVec] at hlen
    simp at hlen
  · intro hfile
    rw [reload_toHistory, hbehavior, if_pos hfile, hsaved, hfile.2]
    exact ⟨rfl, rfl, fun _ _ _ _ => rfl⟩

/-- One saved trip is two trips after the restart. -/
theorem not_forall_restartEquivalent :
    ¬ ∀ (P : Platform) (raw raw' : GaugeArrival) (created : Bool) (gps : Option (List LatLon))
      (ok2 : Bool) (bs : List BehaviorGPS), P.endIsNull = true →
        (∀ b ∈ bs, ValidStamp b.toTripRecord) →
          RestartEquivalent
            (saveTrips P (firstWorld raw created gps) (SaveCall.all bs)).toHistory
            (reload P raw' true ok2
              (saveTrips P (firstWorld raw created gps) (SaveCall.all bs))).toHistory := by
  intro h
  have htrips := (h .keyed blankInstance blankInstance false none true [morningTrip 0 1] rfl
    (List.forall_mem_singleton.mpr (validStamp_morningTrip 0 1))).trips
  have hlen := congrArg List.length htrips
  revert hlen
  decide +kernel

end Equivalence

end Gauge
