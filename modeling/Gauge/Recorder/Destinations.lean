import Gauge.Recorder.Failures
import Gauge.Recorder.Places

/-!
The destinations of predictions, over any number of processes.

A code on disk may be too large by one for the position file: a process has one position more
than the file that it has loaded, and no save writes it.  But the next load makes up one position
more again, so that every code on disk has an entry in every process, if not always the old one.

`placed_run`: where a process that opens the behaviour file opens the position file too, every
destination that is printed has an entry and is printed at its place, in any state of any run.
-/

namespace Gauge

open Machine

/-- The position file is opened where the behaviour file is, and the memory in which a process
begins has no positions to save. -/
def Event.Paired : Event → Prop
  | .start raw ok1 ok2 => raw.mInitPosVecSize = 0 ∧ (ok1 = true → ok2 = true)
  | .callback ok1 ok2 => ok1 = true → ok2 = true
  | _ => True

/-- Every destination has an entry, in memory and in the memory of the next process, which has one
position more than there are records. -/
structure Placed (w : World) : Prop where
  known : KnownDestinations w
  nonneg : 0 ≤ w.mInitPosVecSize
  le_length : w.mInitPosVecSize ≤ w.mGpsPosVec.length
  le_saved : w.mInitPosVecSize ≤ (w.behaviorGpsFile.getD []).length + 1
  onDisk : ∀ r ∈ w.behaviorFile.getD [],
    ∃ i ≤ (w.behaviorGpsFile.getD []).length, r.codeD = Int16.ofNat i
  created : w.behaviorFile.isSome = true → w.behaviorGpsFile.isSome = true

lemma registered_of_lt {vec : List GPSPos} (h : Indexed vec) {i : ℕ} (hi : i < vec.length) :
    Registered vec (Int16.ofNat i).toInt :=
  ⟨vec[i], List.getElem_mem hi, by rw [h i hi]⟩

section Steps

variable {P : Platform} {w w' : World}

/-- The destinations of a file have entries in the process that loads it. -/
lemma placed_load {raw : GaugeArrival} {file : List TripRecord} {file1 : List LatLon}
    (hw : Placed w) (hfile : w.behaviorFile = some file) (hfile1 : w.behaviorGpsFile = some file1) :
    Placed (loadDriverBehavior P true true (w.construct raw)) := by
  have hload := loadDriverBehavior_both P (w := w.construct raw) hfile hfile1 rfl
  have hvec : (loadDriverBehavior P true true (w.construct raw)).mGpsPosVec =
      numbered (file1 ++ [zeroPos]) := by rw [hload]
  have hinit : (loadDriverBehavior P true true (w.construct raw)).mInitPosVecSize =
      (file1.length + 1 : ℕ) := by rw [hload]
  have hlen : (numbered (file1 ++ [zeroPos])).length = file1.length + 1 := by simp [numbered]
  obtain ⟨hbehavior, hgps, -⟩ := loadDriverBehavior_frame P (w.construct raw) true true
  have hgps' : (loadDriverBehavior P true true (w.construct raw)).behaviorGpsFile =
      w.behaviorGpsFile := hgps
  have hbehavior' : (loadDriverBehavior P true true (w.construct raw)).behaviorFile =
      w.behaviorFile := hbehavior
  have hcodes : ∀ t ∈ loadedTrips true w.behaviorFile,
      ∃ i ≤ file1.length, t.codeD = Int16.ofNat i := by
    intro t ht
    rw [hfile, loadedTrips, if_pos rfl] at ht
    obtain ⟨r, hr, rfl⟩ := List.mem_map.mp ht
    rcases List.mem_append.mp hr with hr | hr
    · have hdisk := hw.onDisk r (by rw [hfile]; exact hr)
      rwa [hfile1] at hdisk
    · -- the record of zeros
      rw [List.mem_singleton.mp hr]
      exact ⟨0, Nat.zero_le _, rfl⟩
  refine ⟨(knownDestinations_start_iff rfl).mpr fun t ht => ?_, ?_, ?_, ?_, ?_, ?_⟩
  · obtain ⟨i, hi, hcode⟩ := hcodes t ht
    rw [hvec, hcode]
    exact registered_of_lt (indexed_numbered _) (by omega)
  · rw [hinit]
    exact Int.natCast_nonneg _
  · rw [hinit, hvec, hlen]
  · rw [hinit, hgps', hfile1]
    rfl
  · rw [hbehavior', hgps']
    exact hw.onDisk
  · rw [hbehavior', hgps']
    exact hw.created

/-- Every process begins with entries for its destinations. -/
lemma placed_start {raw : GaugeArrival} {ok1 ok2 : Bool} (hw : Placed w)
    (he : (Event.start raw ok1 ok2).Paired) :
    Placed (loadDriverBehavior P ok1 ok2 (w.construct raw)) := by
  obtain ⟨hraw, hok⟩ := he
  by_cases hclosed : ok1 = false ∨ w.behaviorFile = none
  · rw [loadDriverBehavior_closed P (w := w.construct raw) hclosed]
    have hinit : (w.construct raw).mInitPosVecSize = 0 := hraw
    refine ⟨⟨indexed_nil, fun a i e he => absurd he List.not_mem_nil⟩, hinit.ge, ?_, ?_, hw.onDisk,
      hw.created⟩
    · rw [hinit]
      exact Int.natCast_nonneg _
    · rw [hinit]
      omega
  · obtain ⟨hok1, hne⟩ := not_or.mp hclosed
    obtain rfl := Bool.eq_true_of_not_eq_false hok1
    obtain rfl := hok rfl
    obtain ⟨file, hfile⟩ := Option.ne_none_iff_exists'.mp hne
    obtain ⟨file1, hfile1⟩ := Option.isSome_iff_exists.mp (hw.created (by rw [hfile]; rfl))
    exact placed_load hw hfile hfile1

/-- A save writes every position behind `mInitPosVecSize`, so that the records lag behind the
entries by one at most. -/
lemma placed_save (hw : Placed w) (hknown : KnownDestinations (saveDriverBehavior P true true w))
    {i : ℕ} (hi : i < w.mGpsPosVec.length) (hcode : w.mLastGPS.codeD = Int16.ofNat i) :
    Placed (saveDriverBehavior P true true w) := by
  obtain ⟨k, hk⟩ := Int.eq_ofNat_of_zero_le hw.nonneg
  have hle : k ≤ w.mGpsPosVec.length := by exact_mod_cast hk ▸ hw.le_length
  have hsaved : k ≤ (w.behaviorGpsFile.getD []).length + 1 := by exact_mod_cast hk ▸ hw.le_saved
  have happend := appendPositions_eq w.mGpsPosVec hle (w.behaviorGpsFile.getD [])
  rw [← hk] at happend
  have hinit : (saveDriverBehavior P true true w).mInitPosVecSize = w.mGpsPosVec.length := by
    rw [saveDriverBehavior_both, happend]
  have hvec := saveDriverBehavior_mGpsPosVec P w true true
  have hgps : ((saveDriverBehavior P true true w).behaviorGpsFile.getD []).length =
      (w.behaviorGpsFile.getD []).length + (w.mGpsPosVec.length - k) := by
    rw [saveDriverBehavior_both, happend, Option.getD_some, List.length_append, List.length_map,
      List.length_drop]
  refine ⟨hknown, ?_, ?_, ?_, fun r hr => ?_, fun _ => rfl⟩
  · rw [hinit]
    exact Int.natCast_nonneg _
  · rw [hinit, hvec]
  · rw [hinit, hgps]
    omega
  · rw [hgps]
    rcases List.mem_append.mp hr with hr | hr
    · obtain ⟨j, hj, hcode'⟩ := hw.onDisk r hr
      exact ⟨j, by omega, hcode'⟩
    · rw [List.mem_singleton.mp hr]
      exact ⟨i, by omega, hcode⟩

/-- The search at the end of a trip keeps the entries. -/
lemma placed_closeTrip (hw : Placed w) : Placed (closeTrip w) := by
  have hgrow : w.mGpsPosVec <+: (closeTrip w).mGpsPosVec := prefix_searchOrAppend _ _
  refine ⟨⟨indexed_searchOrAppend hw.known.indexed w.curPos, fun a i e he => ?_⟩, hw.nonneg,
    hw.le_length.trans (by exact_mod_cast hgrow.length_le), hw.le_saved, hw.onDisk, hw.created⟩
  exact (hw.known.codeD a i e he).mono hgrow

/-- No signal moves `mInitPosVecSize`. -/
lemma signal_mInitPosVecSize (fix : Fix) (w : World) :
    (onGPSDataNDRServiceIPCSignal fix w).mInitPosVecSize = w.mInitPosVecSize := by
  rcases eq_or_ne w.mGetFirstGPSSig 0 with hflag | hflag
  · rw [signal_first fix hflag]
  · rw [signal_next fix hflag]

/-- Every event keeps the entries. -/
lemma placed_step {e : Event} (he : e.Paired) (hw : Placed w) (h : step P w e = some w') :
    Placed w' := by
  cases e with
  | start raw ok1 ok2 =>
      obtain rfl := Option.some_inj.mp h
      exact placed_start hw he
  | signal fix =>
      have hknown := knownDestinations_step id hw.known h
      have hgrow := (prefix_of_step id h).length_le
      obtain rfl := Option.some_inj.mp h
      have hinit := signal_mInitPosVecSize fix w
      have hle : (w.mGpsPosVec.length : ℤ) ≤
          (onGPSDataNDRServiceIPCSignal fix w).mGpsPosVec.length := by exact_mod_cast hgrow
      refine ⟨hknown, hinit ▸ hw.nonneg, hinit ▸ hw.le_length.trans hle, ?_, ?_, ?_⟩
      · rw [hinit, signal_behaviorGpsFile]
        exact hw.le_saved
      · rw [signal_behaviorFile, signal_behaviorGpsFile]
        exact hw.onDisk
      · rw [signal_behaviorFile, signal_behaviorGpsFile]
        exact hw.created
  | callback ok1 ok2 =>
      have hknown := knownDestinations_step id hw.known h
      have hclose := placed_closeTrip hw
      obtain ⟨-, ⟨-, rfl⟩ | ⟨-, rfl⟩⟩ := callback_some h
      · exact hclose
      · cases ok1 with
        | false =>
            exact ⟨hknown, hclose.nonneg, hclose.le_length, hclose.le_saved, hclose.onDisk,
              hclose.created⟩
        | true =>
            obtain rfl := he rfl
            have hsave : Placed (saveDriverBehavior P true true (closeTrip w)) :=
              placed_save hclose ⟨hknown.indexed, hknown.codeD⟩
                (searchPos_lt_searchOrAppend w.mGpsPosVec w.curPos) rfl
            exact ⟨hknown, hsave.nonneg, hsave.le_length, hsave.le_saved, hsave.onDisk,
              hsave.created⟩
  | predict clock lat lon =>
      have hknown := knownDestinations_step id hw.known h
      have hgrow := (prefix_of_step id h).length_le
      obtain rfl := Option.some_inj.mp h
      exact ⟨hknown, hw.nonneg, hw.le_length.trans (by exact_mod_cast hgrow), hw.le_saved,
        hw.onDisk, hw.created⟩

end Steps

/-- **Every destination has an entry**, and is printed at the place of its code, in any state of
any run over any number of processes in which the position file is opened wherever the behaviour
file is. -/
theorem placed_run (P : Platform) {w w' : World} {es : List Event} (hw : Placed w)
    (hes : ∀ e ∈ es, e.Paired) (hrun : run (step P) w es = some w') :
    Placed w' ∧ PrintsPlaces P w'.toGaugeArrival := by
  have hplaced : Placed w' :=
    run_inv (fun _ _ _ he hv hstep => placed_step he hv hstep) hes hw hrun
  exact ⟨hplaced, printsPlaces_run P hplaced.known (by simp) (run_nil _)⟩

/-- A trip, and a request for its start in the next process. -/
def nextMorning : List Event :=
  drive ⟨1, 2⟩ ++ [.callback true true, .start blankInstance true true,
    .predict .morning (some 1) (some 1)]

theorem placed_run_nextMorning :
    ∃ w, run (step .keyed) (firstWorld blankInstance false none) nextMorning = some w ∧
      (printResult .keyed w.toGaugeArrival).mGpsRetLst.map (·.toLatLon) = [⟨1, 2⟩] ∧
      PrintsPlaces .keyed w.toGaugeArrival := by
  have hsome : (run (step .keyed) (firstWorld blankInstance false none) nextMorning).map
      (fun w => (printResult .keyed w.toGaugeArrival).mGpsRetLst.map (·.toLatLon)) =
        some [⟨1, 2⟩] := by decide +kernel
  obtain ⟨w, hw, hplaces⟩ := Option.map_eq_some_iff.mp hsome
  have hplaced : Placed (firstWorld blankInstance false none) :=
    ⟨⟨indexed_nil, fun a i e he => absurd he List.not_mem_nil⟩, le_rfl, le_rfl, by decide,
      fun r hr => absurd hr List.not_mem_nil, fun h => by cases h⟩
  have hraw : blankInstance.mInitPosVecSize = 0 := rfl
  refine ⟨w, hw, hplaces, (placed_run .keyed hplaced ?_ hw).2⟩
  simp [nextMorning, drive, Event.Paired, hraw]

end Gauge
