import Gauge.Recorder.Handlers

/-!
What is lost when a file cannot be opened.

* `integrity_always_iff`: when the codes in the behaviour file all have a record in the
  position file, in every state of a run.  The two files are written one after the other,
  and the second one by a counter that may be wrong or may not be reached.
* `tripKept_iff`: when a timer event that ends a trip keeps it.  The callback takes the trip
  for saved, whatever the save has done.
-/

namespace Gauge

open Machine

/-! ### Codes on disk -/

/-- Every code in the behaviour file is the index of a record of the position file. -/
def Integrity (w : World) : Prop :=
  ∀ r ∈ w.behaviorFile.getD [],
    r.codeS.toInt < (w.behaviorGpsFile.getD []).length ∧
      r.codeD.toInt < (w.behaviorGpsFile.getD []).length

/-- The code has a record in the position file, or gets one from a save that appends the
positions from `mInitPosVecSize` on. -/
def CodeSound (ok2 : Bool) (w : World) (c : Int16) : Prop :=
  c.toInt < (w.behaviorGpsFile.getD []).length ∨
    ok2 = true ∧ 0 ≤ w.mInitPosVecSize ∧ w.mInitPosVecSize ≤ w.mGpsPosVec.length ∧
      c.toInt < (w.behaviorGpsFile.getD []).length + (w.mGpsPosVec.length - w.mInitPosVecSize)

/-- A save that writes to the behaviour file writes codes that are sound. -/
def SaveSound (ok1 ok2 : Bool) (w : World) : Prop :=
  ok1 = true → CodeSound ok2 w w.mLastGPS.codeS ∧ CodeSound ok2 w w.mLastGPS.codeD

/-- A step that saves a trip, in the callback, saves one with sound codes. -/
def StepSound (w : World) : Event → Prop
  | .callback ok1 ok2 =>
      (lastTrip w).codeS ≠ (lastTrip w).codeD → SaveSound ok1 ok2 (closeTrip w)
  | _ => True

/-- The number of records after the append loop. -/
lemma length_appendPositions (vec : List GPSPos) (init : ℤ) (file : List LatLon) :
    ((appendPositions vec init file).2.length : ℤ) =
      file.length + if 0 ≤ init ∧ init ≤ vec.length then vec.length - init else 0 := by
  split
  · rename_i h
    obtain ⟨k, rfl⟩ := Int.eq_ofNat_of_zero_le h.1
    have hk : k ≤ vec.length := by exact_mod_cast h.2
    rw [appendPositions_eq vec hk, List.length_append, List.length_map, List.length_drop]
    omega
  · rename_i h
    rw [appendPositions_eq_self (by omega), add_zero]

/-- The records of the position file after a save. -/
lemma lt_length_saved_iff (P : Platform) (ok2 : Bool) (w : World) (c : Int16) :
    c.toInt < ((saveDriverBehavior P true ok2 w).behaviorGpsFile.getD []).length ↔
      CodeSound ok2 w c := by
  cases ok2 with
  | false =>
      rw [CodeSound, saveDriverBehavior_trip]
      simp
  | true =>
      rw [CodeSound, saveDriverBehavior_both, Option.getD_some, length_appendPositions]
      split <;> rename_i h
      · constructor
        · exact fun hc => Or.inr ⟨rfl, h.1, h.2, hc⟩
        · rintro (hc | ⟨-, -, -, hc⟩) <;> omega
      · constructor
        · exact fun hc => Or.inl (by omega)
        · rintro (hc | ⟨-, h1, h2, -⟩)
          · omega
          · exact absurd ⟨h1, h2⟩ h

/-- No save makes the position file shorter. -/
lemma length_le_saved (P : Platform) (ok2 : Bool) (w : World) :
    (w.behaviorGpsFile.getD []).length ≤
      ((saveDriverBehavior P true ok2 w).behaviorGpsFile.getD []).length := by
  cases ok2 with
  | false => rfl
  | true =>
      have h := length_appendPositions w.mGpsPosVec w.mInitPosVecSize (w.behaviorGpsFile.getD [])
      rw [saveDriverBehavior_both, Option.getD_some]
      split at h <;> omega

/-- What a save does to integrity. -/
lemma integrity_save_iff (P : Platform) (ok1 ok2 : Bool) {w : World} (hw : Integrity w) :
    Integrity (saveDriverBehavior P ok1 ok2 w) ↔ SaveSound ok1 ok2 w := by
  cases ok1 with
  | false =>
      rw [saveDriverBehavior_closed, SaveSound]
      exact iff_of_true hw (by simp)
  | true =>
      have hfile : (saveDriverBehavior P true ok2 w).behaviorFile =
          some (w.behaviorFile.getD [] ++ [w.mLastGPS.toTripRecord]) := by
        cases ok2 <;> rfl
      have hle := length_le_saved P ok2 w
      rw [Integrity, hfile, Option.getD_some, List.forall_mem_append, List.forall_mem_singleton,
        lt_length_saved_iff, lt_length_saved_iff, SaveSound]
      constructor
      · exact fun h _ => h.2
      · refine fun h => ⟨fun r hr => ?_, h rfl⟩
        have := hw r hr
        omega

/-- What a step does to integrity. -/
lemma integrity_step_iff (P : Platform) (w : World) (e : Event) (w' : World) (hw : Integrity w)
    (h : step P w e = some w') : Integrity w' ↔ StepSound w e := by
  cases e with
  | start raw ok1 ok2 =>
      obtain rfl := Option.some_inj.mp h
      obtain ⟨h1, h2, -⟩ := loadDriverBehavior_frame P (w.construct raw) ok1 ok2
      rw [Integrity, h1, h2]
      exact iff_of_true hw trivial
  | signal fix =>
      obtain rfl := Option.some_inj.mp h
      rw [Integrity, signal_behaviorFile, signal_behaviorGpsFile]
      exact iff_of_true hw trivial
  | callback ok1 ok2 =>
      obtain ⟨-, ⟨heq, rfl⟩ | ⟨hne, rfl⟩⟩ := callback_some h
      · exact iff_of_true hw fun hne => absurd heq hne
      · exact (integrity_save_iff P ok1 ok2 (w := closeTrip w) hw).trans
          ⟨fun h _ => h, fun h => h hne⟩
  | predict clock lat lon =>
      obtain rfl := Option.some_inj.mp h
      exact iff_of_true hw trivial

/-- **Referential integrity on disk** holds in every state of a run exactly if every save
that writes to the behaviour file finds or puts its codes into the position file. -/
theorem integrity_always_iff (P : Platform) (raw : GaugeArrival) (created : Bool)
    (gps : Option (List LatLon)) (es : List Event) :
    Always (step P) Integrity (firstWorld raw created gps) es ↔
      Along (step P) StepSound (firstWorld raw created gps) es := by
  refine always_iff_along (integrity_step_iff P) ?_ es
  cases created <;> simp [Integrity, firstWorld]

instance : DecidablePred Integrity := fun w =>
  inferInstanceAs (Decidable (∀ r ∈ w.behaviorFile.getD [], _ ∧ _))

/-- A trip from home to the office, whose save cannot open the position file. -/
def halfSaved : List Event := drive ⟨1, 2⟩ ++ [.callback true false]

/-- The codes of that trip have no record. -/
theorem not_integrity_halfSaved :
    ¬ Always (step .standard) Integrity (firstWorld blankInstance false none) halfSaved := by
  intro h
  have hrun : (run (step .standard) (firstWorld blankInstance false none) halfSaved).map
      (fun t => decide (Integrity t)) = some false := by decide +kernel
  obtain ⟨t, ht, hnot⟩ := Option.map_eq_some_iff.mp hrun
  exact of_decide_eq_false hnot (h halfSaved t List.prefix_rfl ht)

/-! ### Finished trips -/

/-- A state of a process, over any files. -/
def Reachable (P : Platform) (w : World) : Prop :=
  ∃ w₀ raw ok1 ok2 es, run (step P) w₀ (.start raw ok1 ok2 :: es) = some w

/-- The trip has been appended to the history and counted: in the start counter and in one
drawer of each array. -/
structure Recorded (w w' : World) (trip : BehaviorGPS) : Prop where
  appended : w'.mBehavGpsVec = w.mBehavGpsVec ++ [trip]
  counted : w'.mStCntMap trip.codeS.toInt =
    some ((w.mStCntMap trip.codeS.toInt).getD 0 + 1)
  drawers : ∀ a : DrawerArray,
    (0 ≤ drawerIdx trip.toTripRecord a ∧ drawerIdx trip.toTripRecord a < a.size) ∧
      sumCount (· = trip.route) (w'.drawers a (drawerIdx trip.toTripRecord a)) =
        sumCount (· = trip.route) (w.drawers a (drawerIdx trip.toTripRecord a)) + 1

/-- After the callback the trip that was open has been recorded, or is still open. -/
def TripKept (w w' : World) : Prop :=
  Recorded w w' (lastTrip w) ∨ w'.mGetFirstGPSSig = 1 ∧ w'.mFirstGPS = w.mFirstGPS

/-- While a trip is open or the timer runs, the time stamp of the trip is valid. -/
def StampSound (w : World) : Prop :=
  (w.mGetFirstGPSSig = 0 ∧ w.mLastGPSTimer = false) ∨ ValidStamp w.mCurGPS.toTripRecord

/-- Every step keeps the time stamp valid. -/
lemma stampSound_step (P : Platform) (w : World) (e : Event) (w' : World)
    (hw : e.IsStart ∨ StampSound w) (h : step P w e = some w') : StampSound w' := by
  cases e with
  | start raw ok1 ok2 =>
      obtain rfl := Option.some_inj.mp h
      obtain ⟨-, -, h3, h4⟩ := loadDriverBehavior_frame P (w.construct raw) ok1 ok2
      exact Or.inl ⟨h3, h4⟩
  | signal fix =>
      obtain rfl := Option.some_inj.mp h
      rcases eq_or_ne w.mGetFirstGPSSig 0 with hflag | hflag
      · rw [signal_first fix hflag]
        exact Or.inr ⟨fix.clock, rfl, rfl⟩
      · have hstamp := (hw.resolve_left id).resolve_left fun h => hflag h.1
        rw [signal_next fix hflag]
        exact Or.inr hstamp
  | callback ok1 ok2 =>
      obtain ⟨htimer, hcases⟩ := callback_some h
      have hstamp : ValidStamp w.mCurGPS.toTripRecord :=
        (hw.resolve_left id).resolve_left fun h => by simp [htimer] at h
      rcases hcases with ⟨-, rfl⟩ | ⟨-, rfl⟩
      · exact Or.inr hstamp
      · refine Or.inr ?_
        rw [saveDriverBehavior_mCurGPS]
        exact hstamp
  | predict clock lat lon =>
      obtain rfl := Option.some_inj.mp h
      exact hw.resolve_left id

lemma stampSound_of_reachable {P : Platform} {w : World} (hw : Reachable P w) :
    StampSound w := by
  obtain ⟨w₀, raw, ok1, ok2, es, hrun⟩ := hw
  obtain ⟨w₁, hw₁, hrest⟩ := run_cons_some.mp hrun
  exact run_inv (Q := fun _ => True)
    (fun u e u' _ hu hstep => stampSound_step P u e u' (Or.inr hu) hstep) (fun _ _ => trivial)
    (stampSound_step P w₀ (.start raw ok1 ok2) w₁ (Or.inl trivial) hw₁) hrest

/-- A trip with a valid time stamp is recorded by `recordTrip`, if its start can be counted. -/
lemma recorded_iff {P : Platform} {w w' : World} {trip : BehaviorGPS}
    (hstamp : ValidStamp trip.toTripRecord)
    (h : w'.toHistory = recordTrip P w.toHistory trip) :
    Recorded w w' trip ↔
      P.endIsNull = true ∨ (w.mStCntMap trip.codeS.toInt).isSome = true := by
  constructor
  · intro hrec
    by_contra hnot
    obtain ⟨hnull, hnone⟩ := not_or.mp hnot
    have hc := hrec.counted
    rw [h, recordTrip_mStCntMap, History.countStart, Platform.findNeNull,
      Option.not_isSome_iff_eq_none.mp hnone] at hc
    simp [hnull] at hc
  · intro hP
    refine ⟨?_, ?_, fun a => ⟨drawerIdx_mem hstamp a, ?_⟩⟩
    · rw [h, recordTrip_mBehavGpsVec]
    · rw [h, recordTrip_mStCntMap, countStart_mStCntMap _ hP, Function.update_self]
    · rw [h, recordTrip_drawers, if_pos rfl, sumCount_put]
      simp

/-- **A finished trip is kept** exactly if the behaviour file can be opened and the start of
the trip can be counted. -/
theorem tripKept_iff (P : Platform) {w w' : World} (hw : Reachable P w) {ok1 ok2 : Bool}
    (hne : (lastTrip w).codeS ≠ (lastTrip w).codeD)
    (h : lastGPSCallback P ok1 ok2 w = some w') :
    TripKept w w' ↔ ok1 = true ∧
      (P.endIsNull = true ∨ (w.mStCntMap (lastTrip w).codeS.toInt).isSome = true) := by
  obtain ⟨htimer, ⟨heq, -⟩ | ⟨-, rfl⟩⟩ := callback_some h
  · exact absurd heq hne
  · have hstamp : ValidStamp (lastTrip w).toTripRecord :=
      (stampSound_of_reachable hw).resolve_left fun h => by simp [htimer] at h
    have hclosed : ¬ ((0 : ℤ) = 1 ∧ (saveDriverBehavior P ok1 ok2 (closeTrip w)).mFirstGPS =
        w.mFirstGPS) := fun h => absurd h.1 (by decide)
    rw [TripKept, or_iff_left hclosed]
    cases ok1 with
    | false =>
        refine iff_of_false (fun hrec => ?_) (by simp)
        have hlen := congrArg List.length hrec.appended
        simp [closeTrip] at hlen
    | true =>
        rw [eq_self_iff_true, true_and]
        exact recorded_iff hstamp (saveDriverBehavior_toHistory P (closeTrip w) ok2)

/-- Before the timer event of a drive. -/
lemma reachable_drive (P : Platform) : ∃ w, Reachable P w ∧
    run (step P) (firstWorld blankInstance false none) (drive ⟨1, 2⟩) = some w := by
  obtain ⟨w, hw⟩ :
      ∃ w, run (step P) (firstWorld blankInstance false none) (drive ⟨1, 2⟩) = some w := ⟨_, rfl⟩
  exact ⟨w, ⟨_, _, _, _, _, hw⟩, hw⟩

theorem tripKept_iff_drive :
    ∃ w w', Reachable .keyed w ∧ lastGPSCallback .keyed true true w = some w' ∧
      TripKept w w' := by
  obtain ⟨w, hw, hrun⟩ := reachable_drive .keyed
  have hsome : (run (step .keyed) (firstWorld blankInstance false none) (drive ⟨1, 2⟩)).map
      (fun w => (decide ((lastTrip w).codeS = (lastTrip w).codeD),
        (lastGPSCallback .keyed true true w).isSome)) = some (false, true) := by decide +kernel
  rw [hrun, Option.map_some, Option.some_inj, Prod.mk.injEq] at hsome
  obtain ⟨w', hw'⟩ := Option.isSome_iff_exists.mp hsome.2
  exact ⟨w, w', hw, hw',
    (tripKept_iff .keyed hw (of_decide_eq_false hsome.1) hw').mpr ⟨rfl, Or.inl rfl⟩⟩

/-- The trip is dropped if the behaviour file cannot be opened. -/
theorem not_forall_tripKept :
    ¬ ∀ (P : Platform) (w w' : World) (ok1 ok2 : Bool), Reachable P w →
      (lastTrip w).codeS ≠ (lastTrip w).codeD → lastGPSCallback P ok1 ok2 w = some w' →
        TripKept w w' := by
  intro h
  obtain ⟨w, hw, hrun⟩ := reachable_drive .keyed
  have hsome : (run (step .keyed) (firstWorld blankInstance false none) (drive ⟨1, 2⟩)).map
      (fun w => (decide ((lastTrip w).codeS = (lastTrip w).codeD), w.mBehavGpsVec,
        (lastGPSCallback .keyed false true w).map fun w' =>
          (w'.mBehavGpsVec, w'.mGetFirstGPSSig))) = some (false, [], some ([], 0)) := by
    decide +kernel
  rw [hrun, Option.map_some, Option.some_inj, Prod.mk.injEq, Prod.mk.injEq] at hsome
  obtain ⟨hne, hbefore, hafter⟩ := hsome
  obtain ⟨w', hw', hafter⟩ := Option.map_eq_some_iff.mp hafter
  obtain ⟨hvec, hflag⟩ := Prod.mk.inj hafter
  rcases h .keyed w w' false true hw (of_decide_eq_false hne) hw' with hrec | ⟨hopen, -⟩
  · have happ := hrec.appended
    simp [hvec, hbefore] at happ
  · simp [hflag] at hopen

end Gauge
