import Gauge.Predict.Locality
import Gauge.Recorder.Handlers

/-!
The trips in memory and the records on disk, over whole runs: any number of processes one
after the other, any events, and any file that cannot be opened.

* `History.FromTrips`: the counter and the drawers are those of the trips in the vector.
* `behaviorFile_run`: the behaviour file only grows, by the trips that timer events end.
* `ledger_run`: in every state the memory is what the file says, with one trip of zeros where
  the file ended when it was loaded.
* `prediction_run`: where `find(c) != NULL` tells the keys of the start counter, a prediction is
  the one after the records of the file, unless it is asked at the place with the code 0.
* `starts_independent`: it does not depend on the trips from other places.
-/

namespace Gauge

open Machine

variable (P : Platform)

/-! ### The structures in memory -/

/-- The counter and the drawers are those of the trips in the vector. -/
structure History.FromTrips (h : History) : Prop where
  counter : h.mStCntMap = (recordTrips P .empty h.mBehavGpsVec).mStCntMap
  drawers : h.drawers = (recordTrips P .empty h.mBehavGpsVec).drawers

lemma fromTrips_recordTrips (bs : List BehaviorGPS) :
    (recordTrips P .empty bs).FromTrips P := by
  have hvec : (recordTrips P .empty bs).mBehavGpsVec = bs := by
    rw [recordTrips_mBehavGpsVec]
    rfl
  constructor <;> rw [hvec]

variable {P} in
/-- Recording a trip keeps the structures together. -/
lemma History.FromTrips.recordTrip {h : History} (hh : h.FromTrips P) (b : BehaviorGPS) :
    (recordTrip P h b).FromTrips P where
  counter := by
    rw [recordTrip_mBehavGpsVec, recordTrips_concat, recordTrip_mStCntMap, recordTrip_mStCntMap]
    exact countStart_congr P hh.counter _
  drawers := by
    funext a i
    rw [recordTrip_mBehavGpsVec, recordTrips_concat, recordTrip_drawers, recordTrip_drawers,
      hh.drawers]

/-! ### The behaviour file -/

/-- The record that an event appends to the behaviour file, if it does: the trip that a timer
event ends, where the file can be opened. -/
def writtenBy (w : World) : Event → List TripRecord
  | .callback true _ =>
      if (lastTrip w).codeS = (lastTrip w).codeD then [] else [(lastTrip w).toTripRecord]
  | _ => []

/-- The records that the run of `es` from `w` appends. -/
def written : World → List Event → List TripRecord
  | _, [] => []
  | w, e :: es =>
      writtenBy w e ++
        match step P w e with
        | some w' => written w' es
        | none => []

variable {P}

lemma written_cons {w w' : World} {e : Event} {es : List Event} (h : step P w e = some w') :
    written P w (e :: es) = writtenBy w e ++ written P w' es := by
  rw [written, h]

/-- What an event does to the behaviour file. -/
lemma behaviorFile_step {w w' : World} {e : Event} (h : step P w e = some w') :
    w'.behaviorFile.getD [] = w.behaviorFile.getD [] ++ writtenBy w e := by
  cases e with
  | start raw ok1 ok2 =>
      obtain rfl := Option.some_inj.mp h
      rw [(loadDriverBehavior_frame P (w.construct raw) ok1 ok2).1]
      exact (List.append_nil _).symm
  | signal fix =>
      obtain rfl := Option.some_inj.mp h
      rw [signal_behaviorFile]
      exact (List.append_nil _).symm
  | callback ok1 ok2 =>
      obtain ⟨-, ⟨heq, rfl⟩ | ⟨hne, rfl⟩⟩ := callback_some h
      · cases ok1 <;> simp [writtenBy, heq, closeTrip]
      · cases ok1 with
        | false => exact (List.append_nil _).symm
        | true =>
            rw [writtenBy, if_neg hne]
            cases ok2 <;> rfl
  | predict clock lat lon =>
      obtain rfl := Option.some_inj.mp h
      exact (List.append_nil _).symm

/-- **The behaviour file only grows**, by the trips that timer events end, through any number of
processes. -/
lemma behaviorFile_run {w w' : World} {es : List Event} (h : run (step P) w es = some w') :
    w'.behaviorFile.getD [] = w.behaviorFile.getD [] ++ written P w es := by
  induction es generalizing w with
  | nil =>
      rw [run_nil, Option.some_inj] at h
      rw [h]
      exact (List.append_nil _).symm
  | cons e es ih =>
      obtain ⟨w₁, hstep, hrun⟩ := run_cons_some.mp h
      rw [ih hrun, behaviorFile_step hstep, written_cons hstep, List.append_assoc]

/-! ### Memory and disk -/

/-- The records of `file` as a process has them in memory that found the first `k` when it
started: after these, if it could load them, it has a record of zeros. -/
def entered (loaded : Bool) (k : ℕ) (file : List TripRecord) : List TripRecord :=
  (if loaded then file.take k ++ [zeroTrip] else []) ++ file.drop k

lemma entered_append (loaded : Bool) {k : ℕ} {file : List TripRecord} (hk : k ≤ file.length)
    (rs : List TripRecord) :
    entered loaded k (file ++ rs) = entered loaded k file ++ rs := by
  rw [entered, entered, List.drop_append_of_le_length hk, List.take_append_of_le_length hk,
    List.append_assoc]

/-- The memory of a process is what the behaviour file says. -/
structure Ledger (P : Platform) (loaded : Bool) (k : ℕ) (w : World) : Prop where
  le : k ≤ (w.behaviorFile.getD []).length
  trips : w.mBehavGpsVec.map (·.toTripRecord) = entered loaded k (w.behaviorFile.getD [])
  fromTrips : w.FromTrips P

lemma map_toTripRecord_loadedTrips (ok1 : Bool) (file : Option (List TripRecord)) :
    (loadedTrips ok1 file).map (·.toTripRecord) =
      entered (ok1 && file.isSome) (file.getD []).length (file.getD []) := by
  cases file with
  | none => cases ok1 <;> rfl
  | some file =>
      cases ok1 with
      | false => simp [loadedTrips, entered]
      | true => simp [loadedTrips, entered, Function.comp_def, TripRecord.toBehavior]

/-- A process begins with the ledger of the file that it finds. -/
lemma ledger_start {w w' : World} {raw : GaugeArrival} {ok1 ok2 : Bool}
    (h : step P w (.start raw ok1 ok2) = some w') :
    Ledger P (ok1 && w.behaviorFile.isSome) (w.behaviorFile.getD []).length w' := by
  have hfile : w'.behaviorFile = w.behaviorFile := by
    obtain rfl := Option.some_inj.mp h
    exact (loadDriverBehavior_frame P (w.construct raw) ok1 ok2).1
  have hmem : w'.toHistory = recordTrips P .empty (loadedTrips ok1 w.behaviorFile) := by
    obtain rfl := Option.some_inj.mp h
    exact reload_toHistory P raw ok1 ok2 w
  refine ⟨by rw [hfile], ?_, hmem ▸ fromTrips_recordTrips P _⟩
  have hvec : w'.mBehavGpsVec = loadedTrips ok1 w.behaviorFile := by
    rw [hmem, recordTrips_mBehavGpsVec]
    rfl
  rw [hvec, hfile, map_toTripRecord_loadedTrips]

/-- An event of a process enters in the memory what it appends to the file. -/
lemma mBehavGpsVec_step {w w' : World} {e : Event} (he : ¬ e.IsStart)
    (h : step P w e = some w') :
    w'.mBehavGpsVec.map (·.toTripRecord) =
      w.mBehavGpsVec.map (·.toTripRecord) ++ writtenBy w e := by
  cases e with
  | start raw ok1 ok2 => exact absurd trivial he
  | signal fix =>
      obtain rfl := Option.some_inj.mp h
      rw [signal_toHistory]
      exact (List.append_nil _).symm
  | callback ok1 ok2 =>
      obtain ⟨-, ⟨heq, rfl⟩ | ⟨hne, rfl⟩⟩ := callback_some h
      · cases ok1 <;> simp [writtenBy, heq, closeTrip]
      · cases ok1 with
        | false => exact (List.append_nil _).symm
        | true =>
            have hvec : (saveDriverBehavior P true ok2 (closeTrip w)).mBehavGpsVec =
                w.mBehavGpsVec ++ [lastTrip w] := by
              rw [saveDriverBehavior_toHistory, recordTrip_mBehavGpsVec]
              rfl
            rw [writtenBy, if_neg hne]
            simp only [hvec, List.map_append, List.map_singleton]
  | predict clock lat lon =>
      obtain rfl := Option.some_inj.mp h
      exact (List.append_nil _).symm

/-- Within a process the structures in memory stay together. -/
lemma fromTrips_step {w w' : World} {e : Event} (he : ¬ e.IsStart)
    (h : step P w e = some w') (hw : w.FromTrips P) : w'.FromTrips P := by
  cases e with
  | start raw ok1 ok2 => exact absurd trivial he
  | signal fix =>
      obtain rfl := Option.some_inj.mp h
      rw [signal_toHistory]
      exact hw
  | callback ok1 ok2 =>
      obtain ⟨-, ⟨-, rfl⟩ | ⟨-, rfl⟩⟩ := callback_some h
      · exact hw
      · cases ok1 with
        | false => exact hw
        | true =>
            rw [show ({ saveDriverBehavior P true ok2 (closeTrip w) with
                mGetFirstGPSSig := 0 } : World).toHistory =
                  (saveDriverBehavior P true ok2 (closeTrip w)).toHistory from rfl,
              saveDriverBehavior_toHistory]
            exact hw.recordTrip _
  | predict clock lat lon =>
      -- a prediction adds to the accesses only
      obtain rfl := Option.some_inj.mp h
      exact ⟨hw.counter, hw.drawers⟩

/-- Within a process every event keeps the ledger. -/
lemma ledger_step {loaded : Bool} {k : ℕ} {w w' : World} {e : Event} (he : ¬ e.IsStart)
    (hw : Ledger P loaded k w) (h : step P w e = some w') : Ledger P loaded k w' where
  le := by
    rw [behaviorFile_step h, List.length_append]
    exact hw.le.trans (Nat.le_add_right _ _)
  trips := by
    rw [mBehavGpsVec_step he h, behaviorFile_step h, entered_append loaded hw.le, hw.trips]
  fromTrips := fromTrips_step he h hw.fromTrips

/-- A process has the ledger of the file that it found, in every state. -/
lemma ledger_process {w w' : World} {es : List Event} {raw : GaugeArrival} {ok1 ok2 : Bool}
    (hes : ∀ e ∈ es, ¬ e.IsStart) (h : run (step P) w (.start raw ok1 ok2 :: es) = some w') :
    Ledger P (ok1 && w.behaviorFile.isSome) (w.behaviorFile.getD []).length w' := by
  obtain ⟨w₂, hw₂, hrun⟩ := run_cons_some.mp h
  exact run_inv (fun u e u' he hu hstep => ledger_step he hu hstep) hes (ledger_start hw₂) hrun

/-- **Memory and disk agree** in every state of every run, any number of processes included: a
process knows the records that were in the file when it started, if it could load them, then one
record of zeros, and then what has been appended since; and its counter and its drawers are those
of these trips.  The file has kept all its records. -/
theorem ledger_run {w₀ w₁ w : World} {es fs : List Event} {raw : GaugeArrival} {ok1 ok2 : Bool}
    (hfs : ∀ e ∈ fs, ¬ e.IsStart) (h₁ : run (step P) w₀ es = some w₁)
    (h : run (step P) w₁ (.start raw ok1 ok2 :: fs) = some w) :
    Ledger P (ok1 && w₁.behaviorFile.isSome) (w₁.behaviorFile.getD []).length w ∧
      w.behaviorFile.getD [] = w₀.behaviorFile.getD [] ++
        written P w₀ (es ++ .start raw ok1 ok2 :: fs) := by
  constructor
  · exact ledger_process hfs h
  · refine behaviorFile_run ?_
    rw [run_append, h₁]
    exact h

/-- A process over two empty files in which a trip is driven and saved. -/
def firstTrip : List Event := drive ⟨1, 2⟩ ++ [.callback true true]

lemma run_firstTrip : (run (step .keyed) (firstWorld blankInstance true (some [])) firstTrip).map
    (fun w => ((predictDestinationAtStart .keyed .morning (some 1) (some 1) w).mFirstGPS.codeS,
      (predictDestinationAtStart .keyed .morning (some 1) (some 1) w).mGpsRetLst.map (·.code))) =
        some (1, [2]) := by decide +kernel

theorem ledger_run_firstTrip :
    ∃ w, run (step .keyed) (firstWorld blankInstance true (some [])) firstTrip = some w ∧
      w.mBehavGpsVec.map (·.toTripRecord) = zeroTrip :: w.behaviorFile.getD [] := by
  obtain ⟨w, hw, -⟩ := Option.map_eq_some_iff.mp run_firstTrip
  exact ⟨w, hw, (ledger_run (by simp [Event.IsStart]) (run_nil _) hw).1.trips⟩

/-! ### Predictions -/

/-- The instance with the history that the records of a file make. -/
def GaugeArrival.withRecords (P : Platform) (s : GaugeArrival) (rs : List TripRecord) :
    GaugeArrival :=
  s.withTrips P (rs.map (·.toBehavior))

lemma map_toTripRecord_toBehavior (rs : List TripRecord) :
    (rs.map (·.toBehavior)).map (·.toTripRecord) = rs := by
  simp [Function.comp_def, TripRecord.toBehavior]

/-- The record of zeros does not start at any place but the one with the code 0. -/
lemma filter_entered {s : Int16} (hs : s ≠ 0) {loaded : Bool} {k : ℕ} {file : List TripRecord}
    (hk : loaded = true ∨ k = 0) :
    (entered loaded k file).filter (fun r => r.codeS = s) =
      file.filter fun r => r.codeS = s := by
  have hzero : zeroTrip.codeS ≠ s := Ne.symm hs
  rw [entered, List.filter_append]
  cases loaded with
  | false =>
      obtain rfl := hk.resolve_left (by simp)
      simp
  | true =>
      rw [if_pos rfl, List.filter_append, List.filter_cons_of_neg (by simpa using hzero),
        List.filter_nil, List.append_nil, ← List.filter_append, List.take_append_drop]

/-- A request asks with the date and the time of its clock. -/
lemma sameQuery_predict {w v : World} {clock : Clock} {lat lon lat' lon' : Option ℚ}
    (h : (predictDestinationAtStart P clock lat lon w).mFirstGPS.codeS =
      (predictDestinationAtStart P clock lat' lon' v).mFirstGPS.codeS) :
    SameQuery (predictDestinationAtStart P clock lat lon w).mFirstGPS
      (predictDestinationAtStart P clock lat' lon' v).mFirstGPS := by
  have hdate : ∀ (lat lon : Option ℚ) (u : World),
      (predictDestinationAtStart P clock lat lon u).mFirstGPS.date = clock.date.packed :=
    fun _ _ _ => rfl
  have htime : ∀ (lat lon : Option ℚ) (u : World),
      (predictDestinationAtStart P clock lat lon u).mFirstGPS.time = clock.time.packed :=
    fun _ _ _ => rfl
  exact ⟨h, by rw [hdate, hdate], by rw [htime, htime]⟩

/-- A prediction reads the history of the trips in the vector. -/
lemma predict_eq_withTrips {w : World} (hw : w.FromTrips P) (clock : Clock)
    (lat lon : Option ℚ) :
    (predictDestinationAtStart P clock lat lon w).mGpsRetLst =
      (getDestAndRate P ((predictDestinationAtStart P clock lat lon w).withTrips P
        w.mBehavGpsVec)).mGpsRetLst := by
  rw [predictDestinationAtStart]
  refine mGpsRetLst_congr_of P (SameQuery.refl _) ?_ fun a i => ?_
  · exact congrFun hw.counter _
  · exact congrArg _ (congrFun (congrFun hw.drawers a) i)

/-- **What a prediction knows**, where `find(c) != NULL` tells the keys of the start counter.  In
every state of every run a prediction is the one after the records that the process has loaded and
saved, the record of zeros among them; and if the process could load its file, then it is the one
after the records of the file for every place but the one with the code 0. -/
theorem prediction_run (hP : P.endIsNull = true) {w₁ w w' : World} {fs : List Event}
    {raw : GaugeArrival} {ok1 ok2 : Bool} (hfs : ∀ e ∈ fs, ¬ e.IsStart)
    (h : run (step P) w₁ (.start raw ok1 ok2 :: fs) = some w) {clock : Clock}
    {lat lon : Option ℚ} (hw' : step P w (.predict clock lat lon) = some w') :
    w'.mGpsRetLst = (getDestAndRate P (w'.withRecords P (entered (ok1 && w₁.behaviorFile.isSome)
        (w₁.behaviorFile.getD []).length (w.behaviorFile.getD [])))).mGpsRetLst ∧
      (ok1 = true → w'.mFirstGPS.codeS ≠ 0 →
        w'.mGpsRetLst =
          (getDestAndRate P (w'.withRecords P (w.behaviorFile.getD []))).mGpsRetLst) := by
  have hledger := ledger_process hfs h
  obtain rfl := Option.some_inj.mp hw'
  rw [predict_eq_withTrips hledger.fromTrips]
  constructor
  · refine mGpsRetLst_congr hP (SameQuery.refl _) ?_
    rw [recordsFrom, recordsFrom, hledger.trips, map_toTripRecord_toBehavior]
  · intro hok1 hcode
    refine mGpsRetLst_congr hP (SameQuery.refl _) ?_
    rw [recordsFrom, recordsFrom, hledger.trips, map_toTripRecord_toBehavior]
    refine filter_entered hcode ?_
    cases hfile : w₁.behaviorFile with
    | none => exact Or.inr rfl
    | some file => exact Or.inl (by rw [hok1]; rfl)

theorem prediction_run_firstTrip :
    ∃ w w', run (step .keyed) (firstWorld blankInstance true (some [])) firstTrip = some w ∧
      step .keyed w (.predict .morning (some 1) (some 1)) = some w' ∧
      w'.mGpsRetLst.map (·.code) = [2] ∧
      w'.mGpsRetLst =
        (getDestAndRate .keyed (w'.withRecords .keyed (w.behaviorFile.getD []))).mGpsRetLst := by
  obtain ⟨w, hw, hpredict⟩ := Option.map_eq_some_iff.mp run_firstTrip
  obtain ⟨hcode, hdest⟩ := Prod.mk.inj hpredict
  refine ⟨w, _, hw, rfl, hdest, ?_⟩
  refine (prediction_run (P := .keyed) rfl (by simp [Event.IsStart]) hw rfl).2 rfl ?_
  rw [hcode]
  decide

/-- The trips of a process that has loaded its file, from a place whose code is not 0: those of the
file. -/
lemma recordsFrom_of_loaded {w₁ w : World} {fs : List Event} {raw : GaugeArrival} {ok2 : Bool}
    (hfs : ∀ e ∈ fs, ¬ e.IsStart)
    (h : run (step P) w₁ (.start raw true ok2 :: fs) = some w) {c : Int16} (hc : c ≠ 0) :
    recordsFrom c w.mBehavGpsVec = (w.behaviorFile.getD []).filter fun r => r.codeS = c := by
  rw [recordsFrom, (ledger_process hfs h).trips]
  refine filter_entered hc ?_
  cases hfile : w₁.behaviorFile with
  | none => exact Or.inr rfl
  | some file => exact Or.inl rfl

/-- **Starts do not interfere**, where `find(c) != NULL` tells the keys of the start counter.  Two
processes, each after any run, whose behaviour files hold the same trips from a place predict the
same there at the same time, whatever else the files hold. -/
theorem starts_independent (hP : P.endIsNull = true) {w₁ w w' v₁ v v' : World}
    {fs gs : List Event} {raw raw' : GaugeArrival} {ok2 ok2' : Bool} (hfs : ∀ e ∈ fs, ¬ e.IsStart)
    (hgs : ∀ e ∈ gs, ¬ e.IsStart) (hw : run (step P) w₁ (.start raw true ok2 :: fs) = some w)
    (hv : run (step P) v₁ (.start raw' true ok2' :: gs) = some v) {clock : Clock}
    {lat lon lat' lon' : Option ℚ} (hw' : step P w (.predict clock lat lon) = some w')
    (hv' : step P v (.predict clock lat' lon') = some v')
    (hcode : w'.mFirstGPS.codeS = v'.mFirstGPS.codeS) (hzero : w'.mFirstGPS.codeS ≠ 0)
    (hsame : (w.behaviorFile.getD []).filter (fun r => r.codeS = w'.mFirstGPS.codeS) =
      (v.behaviorFile.getD []).filter fun r => r.codeS = w'.mFirstGPS.codeS) :
    w'.mGpsRetLst = v'.mGpsRetLst := by
  obtain rfl := Option.some_inj.mp hw'
  obtain rfl := Option.some_inj.mp hv'
  rw [predict_eq_withTrips (ledger_process hfs hw).fromTrips,
    predict_eq_withTrips (ledger_process hgs hv).fromTrips]
  refine mGpsRetLst_congr hP (sameQuery_predict hcode) ?_
  rw [recordsFrom_of_loaded hfs hw hzero, recordsFrom_of_loaded hgs hv hzero, hsame]

/-- A world with a trip back on disk. -/
def backWorld : World :=
  { firstWorld blankInstance true (some []) with behaviorFile := some [⟨2, 1, 0, 0, 0, 0⟩] }

theorem starts_independent_backWorld :
    ∃ w v, run (step .keyed) (firstWorld blankInstance true (some [])) firstTrip = some w ∧
      run (step .keyed) backWorld firstTrip = some v ∧
      w.behaviorFile.map List.length = some 1 ∧ v.behaviorFile.map List.length = some 2 ∧
      (predictDestinationAtStart .keyed .morning (some 1) (some 1) w).mGpsRetLst =
        (predictDestinationAtStart .keyed .morning (some 1) (some 1) v).mGpsRetLst := by
  have hwSome : (run (step .keyed) (firstWorld blankInstance true (some [])) firstTrip).map
      (fun w => (w.behaviorFile,
        (predictDestinationAtStart .keyed .morning (some 1) (some 1) w).mFirstGPS.codeS)) =
        some (some [⟨1, 2, 20140109, 83000, 20140109, 83000⟩], 1) := by decide +kernel
  have hvSome : (run (step .keyed) backWorld firstTrip).map
      (fun v => (v.behaviorFile,
        (predictDestinationAtStart .keyed .morning (some 1) (some 1) v).mFirstGPS.codeS)) =
        some (some [⟨2, 1, 0, 0, 0, 0⟩, ⟨1, 2, 20140109, 83000, 20140109, 83000⟩], 1) := by
    decide +kernel
  obtain ⟨w, hw, heq⟩ := Option.map_eq_some_iff.mp hwSome
  obtain ⟨hfile, hcode⟩ := Prod.mk.inj heq
  obtain ⟨v, hv, heq'⟩ := Option.map_eq_some_iff.mp hvSome
  obtain ⟨hfile', hcode'⟩ := Prod.mk.inj heq'
  refine ⟨w, v, hw, hv, by rw [hfile]; rfl, by rw [hfile']; rfl, ?_⟩
  refine starts_independent (P := .keyed) rfl (by simp [Event.IsStart])
    (by simp [Event.IsStart]) hw hv rfl rfl (hcode.trans hcode'.symm) (by rw [hcode]; decide) ?_
  rw [hcode, hfile, hfile']
  decide

end Gauge
