import Gauge.Base.Stdio
import Gauge.Recorder.State

/-!
The two files: `loadDriverBehavior` and `saveDriverBehavior`.

The outcome of each `fopen` is a parameter: a file that exists may still fail to open, and
appending creates the file.  All writes succeed.  `loadDriverBehavior_toHistory` and
`loadDriverBehavior_both` say what a load makes of the files, the extra round of the
reading loops included; `appendPositions_eq` what a save appends.
-/

namespace Gauge

/-- The record of zeros that a reading loop hands to its body when it finds the end. -/
def zeroTrip : TripRecord := ⟨0, 0, 0, 0, 0, 0⟩

/-- The position of zeros, in the same role. -/
def zeroPos : LatLon := ⟨0, 0⟩

/-- A `Behavior_GPS` that was cleared and then overwritten with a record of the file. -/
def TripRecord.toBehavior (r : TripRecord) : BehaviorGPS := { r with count := 0 }

/-- The loop of `loadDriverBehavior` over the behaviour file. -/
def loadTrips (P : Platform) (h : History) (fp : Stdio.Stream TripRecord) : History :=
  Stdio.whileNotEof zeroTrip (fun h behav => recordTrip P h behav.toBehavior) h fp

/-- The loop of `loadDriverBehavior` over the position file, with the counter `i`. -/
def loadPositions (vec : List GPSPos) (fp1 : Stdio.Stream LatLon) : List GPSPos :=
  (Stdio.whileNotEof zeroPos
    (fun (vi : List GPSPos × ℕ) pos => (vi.1 ++ [newPos vi.2 pos], vi.2 + 1)) (vec, 0) fp1).1

/-- `GaugeArrival::loadDriverBehavior`. -/
def loadDriverBehavior (P : Platform) (ok1 ok2 : Bool) (w : World) : World :=
  match Stdio.fopenRead ok1 w.behaviorFile with
  | none => w
  | some fp =>
      let h := loadTrips P w.toHistory fp
      match Stdio.fopenRead ok2 w.behaviorGpsFile with
      | none => { w with toHistory := h }
      | some fp1 =>
          let vec := loadPositions w.mGpsPosVec fp1
          { w with toHistory := h, mGpsPosVec := vec, mInitPosVecSize := vec.length }

/-- The loop `while (mInitPosVecSize < mGpsPosVec.size()) { fwrite(…); mInitPosVecSize++; }`.
The comparison is one of unsigned numbers, so a negative `mInitPosVecSize` is not smaller. -/
def appendPositions (vec : List GPSPos) (init : ℤ) (file : List LatLon) : ℤ × List LatLon :=
  While.whileLoop (fun x : ℤ × List LatLon => decide (0 ≤ x.1 ∧ x.1 < vec.length))
    (fun x => (x.1 + 1, x.2 ++ [(vec.getD x.1.toNat (newPos 0 zeroPos)).toLatLon]))
    (fun x => (vec.length - x.1).toNat) (init, file)

/-- `GaugeArrival::saveDriverBehavior`. -/
def saveDriverBehavior (P : Platform) (ok1 ok2 : Bool) (w : World) : World :=
  match Stdio.fopenAppend ok1 w.behaviorFile with
  | none => w
  | some file =>
      let h := recordTrip P w.toHistory w.mLastGPS
      let file := file ++ [w.mLastGPS.toTripRecord]
      match Stdio.fopenAppend ok2 w.behaviorGpsFile with
      | none => { w with toHistory := h, behaviorFile := some file }
      | some file1 =>
          let res := appendPositions w.mGpsPosVec w.mInitPosVecSize file1
          { w with
            toHistory := h
            behaviorFile := some file
            mInitPosVecSize := res.1
            behaviorGpsFile := some res.2 }

/-- A new process: the constructor, which sets the containers only, and what `initialize`
does before the load.  The other members keep what was in the memory `raw`; the uninitialised
timer pointer is taken to be null. -/
def GaugeArrival.construct (raw : GaugeArrival) : GaugeArrival :=
  { raw with
    toHistory := .empty
    mGpsPosVec := []
    mGpsRetLst := []
    mGetFirstGPSSig := 0
    mLastGPSTimer := false
    mGPSDataEvt := false }

/-- `construct`, over the files that the last process left. -/
def World.construct (raw : GaugeArrival) (w : World) : World :=
  { w with toGaugeArrival := raw.construct }

/-- A process that has loaded nothing, before its first save.  The behaviour file is empty if
it was `created`, and does not exist otherwise. -/
def firstWorld (raw : GaugeArrival) (created : Bool) (gps : Option (List LatLon)) : World where
  toGaugeArrival := raw.construct
  behaviorFile := if created then some [] else none
  behaviorGpsFile := gps

/-! ### The append loop -/

lemma appendPositions_step (vec : List GPSPos) (init : ℤ) (file : List LatLon) :
    appendPositions vec init file =
      if 0 ≤ init ∧ init < vec.length then
        appendPositions vec (init + 1)
          (file ++ [(vec.getD init.toNat (newPos 0 zeroPos)).toLatLon])
      else (init, file) := by
  rw [appendPositions, While.whileLoop_eq]
  · simp only [decide_eq_true_eq]
    rfl
  · intro x hx
    have h : 0 ≤ x.1 ∧ x.1 < vec.length := of_decide_eq_true hx
    show (vec.length - (x.1 + 1)).toNat < (vec.length - x.1).toNat
    omega

/-- The positions from `mInitPosVecSize` on are appended. -/
lemma appendPositions_eq (vec : List GPSPos) {k : ℕ} (hk : k ≤ vec.length)
    (file : List LatLon) :
    appendPositions vec k file =
      ((vec.length : ℤ), file ++ (vec.drop k).map (·.toLatLon)) := by
  obtain ⟨n, hn⟩ : ∃ n, vec.length = k + n := ⟨vec.length - k, by omega⟩
  induction n generalizing k file with
  | zero =>
      rw [appendPositions_step, if_neg (by omega), List.drop_of_length_le (by omega)]
      simp [hn]
  | succ n ih =>
      have hlt : k < vec.length := by omega
      rw [appendPositions_step, if_pos (by omega), Int.toNat_natCast,
        show (k : ℤ) + 1 = ((k + 1 : ℕ) : ℤ) by push_cast; ring,
        ih (by omega) _ (by omega), List.drop_eq_getElem_cons hlt, List.map_cons,
        List.getD_eq_getElem?_getD, List.getElem?_eq_getElem hlt, Option.getD_some,
        List.append_assoc, List.singleton_append]

/-- A negative or too large `mInitPosVecSize` appends nothing. -/
lemma appendPositions_eq_self {vec : List GPSPos} {init : ℤ} (h : init < 0 ∨ vec.length ≤ init)
    (file : List LatLon) : appendPositions vec init file = (init, file) := by
  rw [appendPositions_step, if_neg (by omega)]

/-! ### What a load does -/

/-- The entries that the reading loop makes of the positions of a file. -/
def numbered (ps : List LatLon) : List GPSPos := ps.mapIdx newPos

lemma foldl_newPos (ps : List LatLon) (vec : List GPSPos) (i : ℕ) :
    (ps.foldl (fun (vi : List GPSPos × ℕ) pos => (vi.1 ++ [newPos vi.2 pos], vi.2 + 1))
      (vec, i)).1 = vec ++ ps.mapIdx fun j pos => newPos (i + j) pos := by
  induction ps generalizing vec i with
  | nil => simp
  | cons p ps ih =>
      rw [List.foldl_cons, ih, List.mapIdx_cons, List.append_assoc, List.singleton_append]
      simp only [Nat.add_assoc, Nat.add_comm 1, Nat.add_zero]

lemma loadTrips_fopen (P : Platform) (h : History) (file : List TripRecord) :
    loadTrips P h (Stdio.fopen file) =
      recordTrips P h ((file ++ [zeroTrip]).map (·.toBehavior)) := by
  rw [loadTrips, Stdio.whileNotEof_fopen, recordTrips, List.foldl_map]

lemma loadPositions_fopen (file1 : List LatLon) :
    loadPositions [] (Stdio.fopen file1) = numbered (file1 ++ [zeroPos]) := by
  rw [loadPositions, Stdio.whileNotEof_fopen, foldl_newPos]
  simp [numbered]

section Load

variable (P : Platform) {w : World} {file : List TripRecord} {file1 : List LatLon}

/-- **A load records the trips of the file and one more**, of zeros. -/
lemma loadDriverBehavior_toHistory (hfile : w.behaviorFile = some file) (ok2 : Bool) :
    (loadDriverBehavior P true ok2 w).toHistory =
      recordTrips P w.toHistory ((file ++ [zeroTrip]).map (·.toBehavior)) := by
  have hopen : Stdio.fopenRead true w.behaviorFile = some (Stdio.fopen file) := by
    rw [hfile]
    rfl
  simp only [loadDriverBehavior, hopen]
  split <;> exact loadTrips_fopen P w.toHistory file

/-- A load that cannot open the behaviour file changes nothing. -/
lemma loadDriverBehavior_closed {ok1 : Bool} (h : ok1 = false ∨ w.behaviorFile = none)
    (ok2 : Bool) : loadDriverBehavior P ok1 ok2 w = w := by
  have hopen : Stdio.fopenRead ok1 w.behaviorFile = none := by
    rcases h with rfl | h
    · rfl
    · cases ok1 <;> simp [Stdio.fopenRead, h]
  rw [loadDriverBehavior, hopen]

/-- **A load numbers the positions of the file and one more**, of zeros, and takes the number
of entries for the number of records. -/
lemma loadDriverBehavior_both (hfile : w.behaviorFile = some file)
    (hfile1 : w.behaviorGpsFile = some file1) (hvec : w.mGpsPosVec = []) :
    loadDriverBehavior P true true w =
      { w with
        toHistory := recordTrips P w.toHistory ((file ++ [zeroTrip]).map (·.toBehavior))
        mGpsPosVec := numbered (file1 ++ [zeroPos])
        mInitPosVecSize := (file1.length + 1 : ℕ) } := by
  have hopen : Stdio.fopenRead true w.behaviorFile = some (Stdio.fopen file) := by
    rw [hfile]
    rfl
  have hopen1 : Stdio.fopenRead true w.behaviorGpsFile = some (Stdio.fopen file1) := by
    rw [hfile1]
    rfl
  have hlen : (numbered (file1 ++ [zeroPos])).length = file1.length + 1 := by simp [numbered]
  simp only [loadDriverBehavior, hopen, hopen1, loadTrips_fopen, hvec, loadPositions_fopen, hlen]

end Load

/-! ### What a save does -/

section Save

variable (P : Platform) (w : World)

/-- A save that cannot open the behaviour file changes nothing. -/
@[simp] lemma saveDriverBehavior_closed (ok2 : Bool) : saveDriverBehavior P false ok2 w = w := rfl

/-- A save that can open the behaviour file only records the trip there and in the memory. -/
lemma saveDriverBehavior_trip :
    saveDriverBehavior P true false w =
      { w with
        toHistory := recordTrip P w.toHistory w.mLastGPS
        behaviorFile := some (w.behaviorFile.getD [] ++ [w.mLastGPS.toTripRecord]) } := rfl

/-- A save that can open both files appends the new positions too. -/
lemma saveDriverBehavior_both :
    saveDriverBehavior P true true w =
      { w with
        toHistory := recordTrip P w.toHistory w.mLastGPS
        behaviorFile := some (w.behaviorFile.getD [] ++ [w.mLastGPS.toTripRecord])
        mInitPosVecSize :=
          (appendPositions w.mGpsPosVec w.mInitPosVecSize (w.behaviorGpsFile.getD [])).1
        behaviorGpsFile :=
          some (appendPositions w.mGpsPosVec w.mInitPosVecSize (w.behaviorGpsFile.getD [])).2 } :=
  rfl

/-- A save that can open the behaviour file records the trip. -/
lemma saveDriverBehavior_toHistory (ok2 : Bool) :
    (saveDriverBehavior P true ok2 w).toHistory = recordTrip P w.toHistory w.mLastGPS := by
  cases ok2 <;> rfl

/-- A load touches neither the files nor the trip that may be open. -/
lemma loadDriverBehavior_frame (ok1 ok2 : Bool) :
    (loadDriverBehavior P ok1 ok2 w).behaviorFile = w.behaviorFile ∧
      (loadDriverBehavior P ok1 ok2 w).behaviorGpsFile = w.behaviorGpsFile ∧
      (loadDriverBehavior P ok1 ok2 w).mGetFirstGPSSig = w.mGetFirstGPSSig ∧
      (loadDriverBehavior P ok1 ok2 w).mLastGPSTimer = w.mLastGPSTimer := by
  rw [loadDriverBehavior]
  split
  · exact ⟨rfl, rfl, rfl, rfl⟩
  · split <;> exact ⟨rfl, rfl, rfl, rfl⟩

/-- No save touches the positions in memory. -/
@[simp] lemma saveDriverBehavior_mGpsPosVec (ok1 ok2 : Bool) :
    (saveDriverBehavior P ok1 ok2 w).mGpsPosVec = w.mGpsPosVec := by
  cases ok1 <;> cases ok2 <;> rfl

/-- No save touches the current trip. -/
@[simp] lemma saveDriverBehavior_mCurGPS (ok1 ok2 : Bool) :
    (saveDriverBehavior P ok1 ok2 w).mCurGPS = w.mCurGPS := by
  cases ok1 <;> cases ok2 <;> rfl

/-- No save touches the trip that it saves. -/
@[simp] lemma saveDriverBehavior_mLastGPS (ok1 ok2 : Bool) :
    (saveDriverBehavior P ok1 ok2 w).mLastGPS = w.mLastGPS := by
  cases ok1 <;> cases ok2 <;> rfl

/-- No save touches the timer. -/
@[simp] lemma saveDriverBehavior_mLastGPSTimer (ok1 ok2 : Bool) :
    (saveDriverBehavior P ok1 ok2 w).mLastGPSTimer = w.mLastGPSTimer := by
  cases ok1 <;> cases ok2 <;> rfl

end Save

end Gauge
