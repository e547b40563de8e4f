import Gauge.Base.Records
import Gauge.Recorder.Ledger

/-!
The two files byte by byte, with processes that the power fails in the middle of a save.

A record that was cut off may be read as one with any date, for which the indexes of its drawers
are outside of the arrays.  `definedStep` is the machine in which this does not happen: a process
that would load such a record crashes instead.

* `onDisk_run`: a run of the recorder is one on the bytes of its files.
* `durable_run`: whole records of the behaviour file stay what they are, and every process that
  loads the file within the arrays reads them first, in whatever saves the power has failed.
* `torn_run`: after a save that was cut off, every trip is read across two of those saved.
-/

namespace Gauge

open Machine Records

/-! ### The bytes of the records -/

/-- A `short`. -/
def shortCodec : Codec Int16 :=
  (intCodec 2 two_pos).of Int16.toInt Int16.ofInt Int16.ofInt_toInt

/-- The first `sizeof(Behavior_GPS)-4` bytes of a `Behavior_GPS`: two `short`s and four `int`s. -/
def tripCodec : Codec TripRecord :=
  ((shortCodec.prod shortCodec).prod
    (((intCodec 4 four_pos).prod (intCodec 4 four_pos)).prod
      ((intCodec 4 four_pos).prod (intCodec 4 four_pos)))).of
    (fun r => ((r.codeS, r.codeD), ((r.date, r.time), (r.dateD, r.timeD))))
    (fun x => ⟨x.1.1, x.1.2, x.2.1.1, x.2.1.2, x.2.2.1, x.2.2.2⟩) fun _ => rfl

/-- The 16 bytes of a `GPS_POS` behind its code: two `double`s. -/
def posCodec (coord : Codec ℚ) : Codec LatLon :=
  (coord.prod coord).of (fun p => (p.lat, p.lon)) (fun x => ⟨x.1, x.2⟩) fun _ => rfl

/-- What the source leaves to the compiler and the library. -/
structure Layout where
  /-- The bytes of a `double`. -/
  coord : Codec ℚ
  /-- What a buffer of zeros holds after the read of a record that is cut off. -/
  cutTrip : List UInt8 → TripRecord
  cutPos : List UInt8 → LatLon

/-! ### The functions on the bytes -/

/-- An instance, whether its process is running, and the bytes of the two files. -/
structure ByteWorld extends GaugeArrival where
  running : Bool
  behaviorBytes : Option (List UInt8)
  behaviorGpsBytes : Option (List UInt8)

/-- The instance, for the functions that do not touch the files. -/
def ByteWorld.fileless (w : ByteWorld) : World := ⟨w.toGaugeArrival, none, none⟩

/-- The loop of `loadDriverBehavior` over the behaviour file. -/
def loadTripBytes (P : Platform) (L : Layout) (h : History) (fp : Stdio.Stream UInt8) : History :=
  whileNotEofBytes tripCodec L.cutTrip zeroTrip (fun h behav => recordTrip P h behav.toBehavior)
    h fp

/-- The loop of `loadDriverBehavior` over the position file, with the counter `i`. -/
def loadPositionBytes (L : Layout) (vec : List GPSPos) (fp1 : Stdio.Stream UInt8) :
    List GPSPos :=
  (whileNotEofBytes (posCodec L.coord) L.cutPos zeroPos
    (fun (vi : List GPSPos × ℕ) pos => (vi.1 ++ [newPos vi.2 pos], vi.2 + 1)) (vec, 0) fp1).1

/-- `loadDriverBehavior`. -/
def loadDriverBehaviorBytes (P : Platform) (L : Layout) (ok1 ok2 : Bool) (w : ByteWorld) :
    ByteWorld :=
  match Stdio.fopenRead ok1 w.behaviorBytes with
  | none => w
  | some fp =>
      let h := loadTripBytes P L w.toHistory fp
      match Stdio.fopenRead ok2 w.behaviorGpsBytes with
      | none => { w with toHistory := h }
      | some fp1 =>
          let vec := loadPositionBytes L w.mGpsPosVec fp1
          { w with toHistory := h, mGpsPosVec := vec, mInitPosVecSize := vec.length }

/-- The loop that appends the positions from `mInitPosVecSize` on. -/
def appendPositionBytes (L : Layout) (vec : List GPSPos) (init : ℤ) (file : List UInt8) :
    ℤ × List UInt8 :=
  While.whileLoop (fun x : ℤ × List UInt8 => decide (0 ≤ x.1 ∧ x.1 < vec.length))
    (fun x => (x.1 + 1,
      x.2 ++ (posCodec L.coord).encode (vec.getD x.1.toNat (newPos 0 zeroPos)).toLatLon))
    (fun x => (vec.length - x.1).toNat) (init, file)

/-- `saveDriverBehavior`. -/
def saveDriverBehaviorBytes (P : Platform) (L : Layout) (ok1 ok2 : Bool) (w : ByteWorld) :
    ByteWorld :=
  match Stdio.fopenAppend ok1 w.behaviorBytes with
  | none => w
  | some file =>
      let h := recordTrip P w.toHistory w.mLastGPS
      let file := file ++ tripCodec.encode w.mLastGPS.toTripRecord
      match Stdio.fopenAppend ok2 w.behaviorGpsBytes with
      | none => { w with toHistory := h, behaviorBytes := some file }
      | some file1 =>
          let res := appendPositionBytes L w.mGpsPosVec w.mInitPosVecSize file1
          { w with
            toHistory := h
            behaviorBytes := some file
            mInitPosVecSize := res.1
            behaviorGpsBytes := some res.2 }

/-- `lastGPSCallback`. -/
def lastGPSCallbackBytes (P : Platform) (L : Layout) (ok1 ok2 : Bool) (w : ByteWorld) :
    Option ByteWorld :=
  if w.mLastGPSTimer then
    let w := { w with toGaugeArrival := (closeTrip w.fileless).toGaugeArrival }
    if w.mLastGPS.codeS = w.mLastGPS.codeD then some w
    else some { saveDriverBehaviorBytes P L ok1 ok2 w with mGetFirstGPSSig := 0 }
  else none

/-! ### The machine -/

/-- What happens to the program and to its machine. -/
inductive ByteEvent
  | event (e : Event)
  /-- The process ends, while it loads its files or later. -/
  | crash
  /-- The power fails while a callback saves, when so many bytes of the trip have been written,
  and so many of the new positions, if their file has been opened. -/
  | powerLoss (trip : ℕ) (positions : Option ℕ)

/-- The save that is cut off: the positions are written behind the trip. -/
def cutSave (L : Layout) (n : ℕ) (m : Option ℕ) (w : ByteWorld) : ByteWorld :=
  { w with
    running := false
    behaviorBytes := some (w.behaviorBytes.getD [] ++
      (tripCodec.encode (lastTrip w.fileless).toTripRecord).take n)
    behaviorGpsBytes :=
      match m with
      | none => w.behaviorGpsBytes
      | some m =>
          if n < tripCodec.size then w.behaviorGpsBytes
          else some (w.behaviorGpsBytes.getD [] ++ (appendPositionBytes L
            (closeTrip w.fileless).mGpsPosVec w.mInitPosVecSize []).2.take m) }

/-- One event.  Where no process is running, only a start is possible. -/
def byteStep (P : Platform) (L : Layout) (w : ByteWorld) : ByteEvent → Option ByteWorld
  | .event (.start raw ok1 ok2) => some (loadDriverBehaviorBytes P L ok1 ok2
      { w with toGaugeArrival := raw.construct, running := true })
  | .event (.signal fix) =>
      if w.running then
        some { w with
          toGaugeArrival := (onGPSDataNDRServiceIPCSignal fix w.fileless).toGaugeArrival }
      else none
  | .event (.callback ok1 ok2) =>
      if w.running then lastGPSCallbackBytes P L ok1 ok2 w else none
  | .event (.predict clock lat lon) =>
      if w.running then
        some { w with
          toGaugeArrival := (predictDestinationAtStart P clock lat lon w.fileless).toGaugeArrival }
      else none
  | .crash => some { w with running := false }
  | .powerLoss n m =>
      if w.running ∧ w.mLastGPSTimer ∧
          (lastTrip w.fileless).codeS ≠ (lastTrip w.fileless).codeD then
        some (cutSave L n m w)
      else none

/-! ### The record machine on the bytes -/

/-- A running process, and the bytes that its files consist of. -/
def World.onDisk (L : Layout) (w : World) : ByteWorld :=
  { w.toGaugeArrival with
    running := true
    behaviorBytes := w.behaviorFile.map (encodeAll tripCodec)
    behaviorGpsBytes := w.behaviorGpsFile.map (encodeAll (posCodec L.coord)) }

/-- What is in the two files fits into its bytes. -/
structure World.FilesFit (L : Layout) (w : World) : Prop where
  trips : ∀ r ∈ w.behaviorFile.getD [], tripCodec.Fits r
  positions : ∀ p ∈ w.behaviorGpsFile.getD [], (posCodec L.coord).Fits p

lemma fits_shortCodec (c : Int16) : shortCodec.Fits c := by
  have hle := c.le_toInt
  have hlt := c.toInt_lt
  constructor <;> simp only [Nat.reducePow] <;> omega

lemma fits_intCodec {v : ℤ} : (intCodec 4 four_pos).Fits v ↔ -2 ^ 31 ≤ v ∧ v < 2 ^ 31 := by
  simp only [intCodec, Nat.reducePow, Int.reducePow]
  omega

/-- The `short`s of a trip always fit. -/
lemma fits_tripCodec {r : TripRecord} :
    tripCodec.Fits r ↔ ∀ v ∈ [r.date, r.time, r.dateD, r.timeD], -2 ^ 31 ≤ v ∧ v < 2 ^ 31 := by
  simp only [tripCodec, Codec.of, Codec.prod, fits_shortCodec, fits_intCodec, true_and,
    List.forall_mem_cons, List.not_mem_nil, false_imp_iff, implies_true, and_true, and_assoc]

lemma appendPositionBytes_encodeAll (L : Layout) (vec : List GPSPos) (init : ℤ)
    (file : List LatLon) :
    appendPositionBytes L vec init (encodeAll (posCodec L.coord) file) =
      ((appendPositions vec init file).1,
        encodeAll (posCodec L.coord) (appendPositions vec init file).2) := by
  exact While.whileLoop_map (f := fun x : ℤ × List LatLon => (x.1, encodeAll (posCodec L.coord) x.2))
    (fun _ => rfl) (fun _ => by simp) (fun _ => rfl) (init, file)

section OnDisk

variable {P : Platform} {L : Layout} {w w' : World}

lemma loadDriverBehaviorBytes_onDisk (hw : w.FilesFit L) (ok1 ok2 : Bool) :
    loadDriverBehaviorBytes P L ok1 ok2 (w.onDisk L) =
      (loadDriverBehavior P ok1 ok2 w).onDisk L := by
  obtain ⟨s, behavior, gps⟩ := w
  cases ok1 with
  | false => rfl
  | true =>
      cases behavior with
      | none => rfl
      | some file =>
          have htrips : ∀ h : History, loadTripBytes P L h (Stdio.fopen (encodeAll tripCodec file)) =
              loadTrips P h (Stdio.fopen file) := fun h =>
            whileNotEofBytes_encodeAll tripCodec L.cutTrip zeroTrip _ h hw.trips
          cases ok2 with
          | false =>
              simp [loadDriverBehaviorBytes, loadDriverBehavior, Stdio.fopenRead, World.onDisk,
                htrips]
          | true =>
              cases gps with
              | none =>
                  simp [loadDriverBehaviorBytes, loadDriverBehavior, Stdio.fopenRead,
                    World.onDisk, htrips]
              | some file1 =>
                  have hpositions : ∀ vec, loadPositionBytes L vec
                      (Stdio.fopen (encodeAll (posCodec L.coord) file1)) =
                        loadPositions vec (Stdio.fopen file1) := fun vec =>
                    congrArg Prod.fst (whileNotEofBytes_encodeAll (posCodec L.coord) L.cutPos
                      zeroPos _ (vec, 0) hw.positions)
                  simp [loadDriverBehaviorBytes, loadDriverBehavior, Stdio.fopenRead,
                    World.onDisk, htrips, hpositions]

lemma saveDriverBehaviorBytes_onDisk (ok1 ok2 : Bool) :
    saveDriverBehaviorBytes P L ok1 ok2 (w.onDisk L) =
      (saveDriverBehavior P ok1 ok2 w).onDisk L := by
  have hfile : ∀ (c : Codec TripRecord), (w.behaviorFile.map (encodeAll c)).getD [] =
      encodeAll c (w.behaviorFile.getD []) := fun c => by cases w.behaviorFile <;> rfl
  have hfile1 : ∀ (c : Codec LatLon), (w.behaviorGpsFile.map (encodeAll c)).getD [] =
      encodeAll c (w.behaviorGpsFile.getD []) := fun c => by cases w.behaviorGpsFile <;> rfl
  cases ok1 with
  | false => rfl
  | true =>
      cases ok2 with
      | false =>
          rw [saveDriverBehavior_trip]
          simp [saveDriverBehaviorBytes, Stdio.fopenAppend, World.onDisk, hfile]
      | true =>
          rw [saveDriverBehavior_both]
          simp [saveDriverBehaviorBytes, Stdio.fopenAppend, World.onDisk, hfile, hfile1,
            appendPositionBytes_encodeAll]

/-- One event does to the bytes what it does to the records. -/
lemma byteStep_onDisk (hw : w.FilesFit L) (e : Event) :
    byteStep P L (w.onDisk L) (.event e) = (step P w e).map (World.onDisk L) := by
  cases e with
  | start raw ok1 ok2 =>
      have hload := loadDriverBehaviorBytes_onDisk (P := P) (w := w.construct raw)
        ⟨hw.trips, hw.positions⟩ ok1 ok2
      exact congrArg some hload
  | signal fix =>
      simp only [byteStep, step, World.onDisk, if_true, Option.map_some]
      rcases eq_or_ne w.mGetFirstGPSSig 0 with hflag | hflag
      · rw [signal_first fix hflag, signal_first fix (by exact hflag)]
        rfl
      · rw [signal_next fix hflag, signal_next fix (by exact hflag)]
        rfl
  | callback ok1 ok2 =>
      show lastGPSCallbackBytes P L ok1 ok2 (w.onDisk L) =
        (lastGPSCallback P ok1 ok2 w).map (World.onDisk L)
      have hclose : ({ w.onDisk L with
          toGaugeArrival := (closeTrip (w.onDisk L).fileless).toGaugeArrival } : ByteWorld) =
            (closeTrip w).onDisk L := rfl
      have hsave := saveDriverBehaviorBytes_onDisk (P := P) (L := L) (w := closeTrip w) ok1 ok2
      rw [lastGPSCallbackBytes, lastGPSCallback, hclose]
      show (if w.mLastGPSTimer then _ else none) = _
      split_ifs with htimer
      · dsimp only
        rw [hsave, apply_ite (Option.map (World.onDisk L))]
        rfl
      · rfl
  | predict clock lat lon => rfl

/-- The append loop only appends. -/
lemma le_appendPositions (vec : List GPSPos) (init : ℤ) (file : List LatLon) :
    file <+: (appendPositions vec init file).2 := by
  rcases Decidable.em (init < 0 ∨ vec.length ≤ init) with hout | hin
  · rw [appendPositions_eq_self hout]
  · obtain ⟨k, rfl⟩ : ∃ k : ℕ, init = k := ⟨init.toNat, by omega⟩
    rw [appendPositions_eq vec (by omega)]
    exact List.prefix_append _ _

/-- The position file only grows. -/
lemma behaviorGpsFile_step {e : Event} (h : step P w e = some w') :
    w.behaviorGpsFile.getD [] <+: w'.behaviorGpsFile.getD [] := by
  cases e with
  | start raw ok1 ok2 =>
      obtain rfl := Option.some_inj.mp h
      rw [(loadDriverBehavior_frame P (w.construct raw) ok1 ok2).2.1]
      exact List.prefix_rfl
  | signal fix =>
      obtain rfl := Option.some_inj.mp h
      rw [signal_behaviorGpsFile]
  | callback ok1 ok2 =>
      obtain ⟨-, ⟨-, rfl⟩ | ⟨-, rfl⟩⟩ := callback_some h
      · exact List.prefix_rfl
      · cases ok1 with
        | false => exact List.prefix_rfl
        | true =>
            cases ok2 with
            | false => exact List.prefix_rfl
            | true =>
                rw [saveDriverBehavior_both]
                exact le_appendPositions _ _ _
  | predict clock lat lon =>
      obtain rfl := Option.some_inj.mp h
      exact List.prefix_rfl

lemma filesFit_of_step {e : Event} (h : step P w e = some w') (hw' : w'.FilesFit L) :
    w.FilesFit L := by
  refine ⟨fun r hr => hw'.trips r ?_, fun p hp => hw'.positions p ?_⟩
  · rw [behaviorFile_step h]
    exact List.mem_append_left _ hr
  · exact (behaviorGpsFile_step h).subset hp

/-- **The recorder on the bytes of its files**: every run of the recorder is one on the bytes, if
what it leaves in the files fits. -/
theorem onDisk_run {es : List Event} (hrun : run (step P) w es = some w')
    (hfit : w'.FilesFit L) :
    run (byteStep P L) (w.onDisk L) (es.map .event) = some (w'.onDisk L) := by
  have hstep : ∀ (u : World) (b : ByteWorld) (e : Event) (u' : World), True → b = u.onDisk L →
      u'.FilesFit L → step P u e = some u' →
        ∃ b', byteStep P L b (.event e) = some b' ∧ b' = u'.onDisk L := by
    rintro u _ e u' - rfl hu' h
    exact ⟨u'.onDisk L, by rw [byteStep_onDisk (filesFit_of_step h hu'), h, Option.map_some], rfl⟩
  obtain ⟨b, hb, rfl⟩ := run_sim (fun u e u' _ h hu' => filesFit_of_step h hu') hstep
    (fun _ _ => trivial) rfl hrun hfit
  rw [run, List.foldlM_map]
  exact hb

/-- The bytes of 0, 1 and 2 as `double`s. -/
def smallCoord : Codec ℚ where
  size := 8
  encode q :=
    if q = 1 then [0, 0, 0, 0, 0, 0, 0xF0, 0x3F]
    else if q = 2 then [0, 0, 0, 0, 0, 0, 0, 0x40]
    else [0, 0, 0, 0, 0, 0, 0, 0]
  decode bs :=
    if bs = [0, 0, 0, 0, 0, 0, 0xF0, 0x3F] then 1
    else if bs = [0, 0, 0, 0, 0, 0, 0, 0x40] then 2
    else 0
  Fits q := q = 0 ∨ q = 1 ∨ q = 2
  size_pos := by norm_num
  length_encode q := by split_ifs <;> rfl
  decode_encode q hq := by rcases hq with rfl | rfl | rfl <;> decide

/-- A library that copies the bytes that it finds. -/
def copyingLayout : Layout where
  coord := smallCoord
  cutTrip bs := tripCodec.decode (bs ++ List.replicate (tripCodec.size - bs.length) 0)
  cutPos bs := (posCodec smallCoord).decode (bs ++ List.replicate (16 - bs.length) 0)

/-- The record of the trips of that morning. -/
def morningRecord : TripRecord := (morningTrip 1 2).toTripRecord

lemma fits_morningRecord {r : TripRecord} (hr : r ∈ [morningRecord]) : tripCodec.Fits r := by
  rw [List.mem_singleton.mp hr, fits_tripCodec]
  decide

theorem onDisk_run_firstTrip :
    ∃ w, run (step .keyed) (firstWorld blankInstance true (some [])) firstTrip = some w ∧
      run (byteStep .keyed copyingLayout)
        ((firstWorld blankInstance true (some [])).onDisk copyingLayout)
        (firstTrip.map .event) = some (w.onDisk copyingLayout) := by
  have hfiles : (run (step .keyed) (firstWorld blankInstance true (some [])) firstTrip).map
      (fun w => (w.behaviorFile, w.behaviorGpsFile)) =
        some (some [morningRecord], some [⟨1, 1⟩, ⟨1, 2⟩]) := by decide +kernel
  obtain ⟨w, hw, hfile⟩ := Option.map_eq_some_iff.mp hfiles
  obtain ⟨htrips, hpositions⟩ := Prod.mk.inj hfile
  refine ⟨w, hw, onDisk_run hw ⟨?_, ?_⟩⟩
  · rw [htrips]
    exact fun r hr => fits_morningRecord hr
  · rw [hpositions]
    simp [copyingLayout, posCodec, Codec.of, Codec.prod, smallCoord]

end OnDisk

/-! ### Saves that are cut off -/

section PowerLoss

variable {P : Platform} {L : Layout} {u v w : ByteWorld}

/-- The bytes that an event appends to the behaviour file. -/
def appendedBytes (w : ByteWorld) : ByteEvent → List UInt8
  | .event e => encodeAll tripCodec (writtenBy w.fileless e)
  | .crash => []
  | .powerLoss n _ => (tripCodec.encode (lastTrip w.fileless).toTripRecord).take n

lemma saveDriverBehaviorBytes_behaviorBytes (ok2 : Bool) :
    (saveDriverBehaviorBytes P L true ok2 w).behaviorBytes =
      some (w.behaviorBytes.getD [] ++ tripCodec.encode w.mLastGPS.toTripRecord) := by
  cases ok2 <;> rfl

lemma loadDriverBehaviorBytes_behaviorBytes (ok1 ok2 : Bool) :
    (loadDriverBehaviorBytes P L ok1 ok2 w).behaviorBytes = w.behaviorBytes := by
  rw [loadDriverBehaviorBytes]
  split
  · rfl
  · split <;> rfl

/-- What an event does to the behaviour file, which goes on to exist. -/
lemma behaviorBytes_step {e : ByteEvent} (h : byteStep P L v e = some w) :
    w.behaviorBytes.getD [] = v.behaviorBytes.getD [] ++ appendedBytes v e ∧
      (v.behaviorBytes.isSome → w.behaviorBytes.isSome) := by
  cases e with
  | event e =>
      cases e with
      | start raw ok1 ok2 =>
          obtain rfl := Option.some_inj.mp h
          rw [loadDriverBehaviorBytes_behaviorBytes]
          exact ⟨(List.append_nil _).symm, id⟩
      | signal fix =>
          rw [byteStep] at h
          split_ifs at h
          obtain rfl := Option.some_inj.mp h
          exact ⟨(List.append_nil _).symm, id⟩
      | callback ok1 ok2 =>
          rw [byteStep, lastGPSCallbackBytes] at h
          split_ifs at h with _ htimer
          dsimp only at h
          split_ifs at h with hcode <;> obtain rfl := Option.some_inj.mp h
          · have hwritten : writtenBy v.fileless (.callback ok1 ok2) = [] := by
              cases ok1 with
              | false => rfl
              | true => exact if_pos hcode
            rw [appendedBytes, hwritten]
            exact ⟨(List.append_nil _).symm, id⟩
          · cases ok1 with
            | false => exact ⟨(List.append_nil _).symm, id⟩
            | true =>
                have hwritten : writtenBy v.fileless (.callback true ok2) =
                    [(lastTrip v.fileless).toTripRecord] := if_neg hcode
                rw [appendedBytes, hwritten, encodeAll_singleton,
                  saveDriverBehaviorBytes_behaviorBytes]
                exact ⟨rfl, fun _ => rfl⟩
      | predict clock lat lon =>
          rw [byteStep] at h
          split_ifs at h
          obtain rfl := Option.some_inj.mp h
          exact ⟨(List.append_nil _).symm, id⟩
  | crash =>
      obtain rfl := Option.some_inj.mp h
      exact ⟨(List.append_nil _).symm, id⟩
  | powerLoss n m =>
      rw [byteStep] at h
      split_ifs at h
      obtain rfl := Option.some_inj.mp h
      exact ⟨rfl, fun _ => rfl⟩

/-- The history of a process that can open the behaviour file is that of the records and of what
the last read leaves. -/
lemma toHistory_start {raw : GaugeArrival} {ok2 : Bool} {bs : List UInt8}
    (hbs : v.behaviorBytes = some bs)
    (h : byteStep P L v (.event (.start raw true ok2)) = some w) :
    w.toHistory = recordTrips P .empty ((records tripCodec bs ++
      [lastRead tripCodec L.cutTrip zeroTrip bs]).map (·.toBehavior)) := by
  have hload : ∀ h : History, loadTripBytes P L h (Stdio.fopen bs) = recordTrips P h
      ((records tripCodec bs ++ [lastRead tripCodec L.cutTrip zeroTrip bs]).map
        (·.toBehavior)) := fun h => by
    rw [loadTripBytes, whileNotEofBytes_fopen, recordTrips, List.foldl_map]
  obtain rfl := Option.some_inj.mp h
  simp only [loadDriverBehaviorBytes, Stdio.fopenRead, hbs, if_true, Option.map_some, hload]
  split <;> rfl

lemma trips_start {raw : GaugeArrival} {ok2 : Bool} {bs : List UInt8}
    (hbs : v.behaviorBytes = some bs)
    (h : byteStep P L v (.event (.start raw true ok2)) = some w) :
    w.mBehavGpsVec.map (·.toTripRecord) =
      records tripCodec bs ++ [lastRead tripCodec L.cutTrip zeroTrip bs] := by
  rw [toHistory_start hbs h, recordTrips_mBehavGpsVec, History.empty, List.nil_append,
    map_toTripRecord_toBehavior]

/-- The drawers of a trip are in the arrays, and its month in the table of `getIdxOfDate`.  The
index -1 of a day, that of the record of zeros, is the last drawer of the array before. -/
structure TripRecord.InArrays (r : TripRecord) : Prop where
  mon : (yearMonDateDvt r.date).2.1 ≤ 13
  week : 0 ≤ drawerIdx r .mBehavWeek ∧ drawerIdx r .mBehavWeek < 7
  hour : 0 ≤ drawerIdx r .mBehavHour ∧ drawerIdx r .mBehavHour < 24
  perMon : -1 ≤ drawerIdx r .mBehavDatePerMon ∧ drawerIdx r .mBehavDatePerMon < 31
  perYear : -1 ≤ drawerIdx r .mBehavDatePerYear ∧ drawerIdx r .mBehavDatePerYear < 366

instance (r : TripRecord) : Decidable r.InArrays :=
  decidable_of_iff (_ ∧ _ ∧ _ ∧ _ ∧ _)
    ⟨fun ⟨hmon, hweek, hhour, hperMon, hperYear⟩ => ⟨hmon, hweek, hhour, hperMon, hperYear⟩,
      fun h => ⟨h.mon, h.week, h.hour, h.perMon, h.perYear⟩⟩

/-- What the loop of `loadDriverBehavior` over the behaviour file reads. -/
def tripsRead (L : Layout) (w : ByteWorld) : List TripRecord :=
  match w.behaviorBytes with
  | none => []
  | some bs => records tripCodec bs ++ [lastRead tripCodec L.cutTrip zeroTrip bs]

/-- The trips that an event puts into the drawers. -/
def tripsEntered (L : Layout) (w : ByteWorld) : ByteEvent → List TripRecord
  | .event (.start _ ok1 _) => if ok1 then tripsRead L w else []
  | .event e => writtenBy w.fileless e
  | .crash => []
  | .powerLoss _ _ => [(lastTrip w.fileless).toTripRecord]

/-- The events of processes that put trips into drawers of the arrays only. -/
def definedStep (P : Platform) (L : Layout) : ByteWorld → ByteEvent → Option ByteWorld :=
  guarded (fun w e => ∀ r ∈ tripsEntered L w e, r.InArrays) (byteStep P L)

lemma definedStep_some {e : ByteEvent} :
    definedStep P L v e = some w ↔
      (∀ r ∈ tripsEntered L v e, r.InArrays) ∧ byteStep P L v e = some w :=
  guarded_some

/-- **Whole records last**: whatever the processes do, wherever saves are cut off and processes
crash, the whole records of the behaviour file stay in their places, and a process that loads the
file within the arrays has them first in its memory, with a counter and drawers that are those of
its trips. -/
theorem durable_run {es : List ByteEvent} (hrun : run (definedStep P L) u es = some v) :
    records tripCodec (u.behaviorBytes.getD []) <+: records tripCodec (v.behaviorBytes.getD []) ∧
      ∀ (raw : GaugeArrival) (ok2 : Bool) (w : ByteWorld),
        definedStep P L v (.event (.start raw true ok2)) = some w →
          records tripCodec (u.behaviorBytes.getD []) <+: w.mBehavGpsVec.map (·.toTripRecord) ∧
            w.FromTrips P := by
  have hgrow : u.behaviorBytes.getD [] <+: v.behaviorBytes.getD [] :=
    run_inv (P := fun x : ByteWorld => u.behaviorBytes.getD [] <+: x.behaviorBytes.getD [])
      (Q := fun _ => True)
      (fun x e y _ hx h => by
        rw [(behaviorBytes_step h).1]
        exact hx.trans (List.prefix_append _ _))
      (fun _ _ => trivial) List.prefix_rfl (run_of_guarded hrun)
  have hrecords := records_grow tripCodec hgrow
  refine ⟨hrecords, fun raw ok2 w hdefined => ?_⟩
  have hstart := (definedStep_some.mp hdefined).2
  cases hbs : v.behaviorBytes with
  | none =>
      rw [hbs, Option.getD_none, records_nil, List.prefix_nil] at hrecords
      obtain rfl := Option.some_inj.mp hstart
      rw [hrecords, loadDriverBehaviorBytes, hbs]
      exact ⟨List.nil_prefix, fromTrips_recordTrips P []⟩
  | some bs =>
      rw [hbs] at hrecords
      rw [trips_start hbs hstart, toHistory_start hbs hstart]
      exact ⟨hrecords.trans (List.prefix_append _ _), fromTrips_recordTrips P _⟩

/-- The files before the first process. -/
def emptyDisk : ByteWorld := (firstWorld blankInstance true (some [])).onDisk copyingLayout

/-- A drive in a process of its own whose save is cut off behind the time of its start. -/
def cutDrive : List ByteEvent := (drive ⟨1, 2⟩).map .event ++ [.powerLoss 12 none]

/-- Another process that saves a trip, and crashes. -/
def crashedTrip : List ByteEvent := firstTrip.map .event ++ [.crash]

theorem durable_run_cutDrive :
    ∃ u v w, run (definedStep .keyed copyingLayout) emptyDisk (firstTrip.map .event) = some u ∧
      run (definedStep .keyed copyingLayout) u (cutDrive ++ crashedTrip) = some v ∧
      definedStep .keyed copyingLayout v (.event (.start blankInstance true true)) = some w ∧
      records tripCodec (u.behaviorBytes.getD []) = [morningRecord] ∧
      records tripCodec (u.behaviorBytes.getD []) <+: w.mBehavGpsVec.map (·.toTripRecord) := by
  have hall : (run (definedStep .keyed copyingLayout) emptyDisk (firstTrip.map .event ++
      (cutDrive ++ crashedTrip ++ [.event (.start blankInstance true true)]))).isSome := by
    decide +kernel
  have hfile : (run (definedStep .keyed copyingLayout) emptyDisk (firstTrip.map .event)).map
      (fun u => records tripCodec (u.behaviorBytes.getD [])) = some [morningRecord] := by
    decide +kernel
  obtain ⟨w, hw⟩ := Option.isSome_iff_exists.mp hall
  rw [run_append, Option.bind_eq_some_iff] at hw
  obtain ⟨u, hu, hw⟩ := hw
  rw [run_concat, Option.bind_eq_some_iff] at hw
  obtain ⟨v, hv, hw⟩ := hw
  rw [hu, Option.map_some, Option.some_inj] at hfile
  exact ⟨u, v, w, hu, hv, hw, hfile, ((durable_run hv).2 _ _ _ hw).1⟩

/-- The power does not fail. -/
def ByteEvent.Powered : ByteEvent → Prop
  | .powerLoss _ _ => False
  | _ => True

/-- The trips that an event saves whole. -/
def savedBy (w : ByteWorld) : ByteEvent → List TripRecord
  | .event e => writtenBy w.fileless e
  | _ => []

/-- The trips that the run of `es` from `w` saves whole. -/
def byteWritten (P : Platform) (L : Layout) : ByteWorld → List ByteEvent → List TripRecord
  | _, [] => []
  | w, e :: es =>
      savedBy w e ++
        match byteStep P L w e with
        | some w' => byteWritten P L w' es
        | none => []

/-- While the power does not fail, the file grows by the trips that are saved. -/
lemma behaviorBytes_run {es : List ByteEvent} (hes : ∀ e ∈ es, e.Powered)
    (hrun : run (byteStep P L) v es = some w) :
    w.behaviorBytes.getD [] =
        v.behaviorBytes.getD [] ++ encodeAll tripCodec (byteWritten P L v es) ∧
      (v.behaviorBytes.isSome → w.behaviorBytes.isSome) := by
  induction es generalizing v with
  | nil =>
      obtain rfl := Option.some_inj.mp hrun
      exact ⟨(List.append_nil _).symm, id⟩
  | cons e es ih =>
      obtain ⟨v₁, hstep, hrest⟩ := run_cons_some.mp hrun
      obtain ⟨hbytes, hsome⟩ := behaviorBytes_step hstep
      obtain ⟨hbytes', hsome'⟩ := ih (fun e he => hes e (List.mem_cons_of_mem _ he)) hrest
      refine ⟨?_, hsome' ∘ hsome⟩
      rw [hbytes', hbytes, byteWritten, hstep, encodeAll_append, List.append_assoc]
      cases e with
      | event e => rfl
      | crash => rfl
      | powerLoss n m => exact (hes _ List.mem_cons_self).elim

/-- **Behind a save that was cut off** after `n` bytes, every trip that is saved is read across
two of them: the first one behind these bytes, each other one behind the end of the trip before.
The trips saved before are read as they were.  A process that loads the file within the arrays has
all these in its memory, and then what its last read leaves. -/
theorem torn_run {n : ℕ} {m : Option ℕ} {rs : List TripRecord} {es : List ByteEvent}
    {t : ByteWorld} (hfile : t.behaviorBytes = some (encodeAll tripCodec rs))
    (hrs : ∀ r ∈ rs, tripCodec.Fits r) (hn : n < tripCodec.size)
    (hloss : definedStep P L t (.powerLoss n m) = some u) (hes : ∀ e ∈ es, e.Powered)
    (hrun : run (definedStep P L) u es = some v) :
    records tripCodec (v.behaviorBytes.getD []) = rs ++
        torn tripCodec ((tripCodec.encode (lastTrip t.fileless).toTripRecord).take n)
          (byteWritten P L u es) ∧
      ∀ (raw : GaugeArrival) (ok2 : Bool) (w : ByteWorld),
        definedStep P L v (.event (.start raw true ok2)) = some w →
          w.mBehavGpsVec.map (·.toTripRecord) = rs ++
            torn tripCodec ((tripCodec.encode (lastTrip t.fileless).toTripRecord).take n)
              (byteWritten P L u es) ++
            [lastRead tripCodec L.cutTrip zeroTrip (v.behaviorBytes.getD [])] := by
  have hloss' := (definedStep_some.mp hloss).2
  obtain ⟨hu, -⟩ := behaviorBytes_step hloss'
  obtain ⟨hv, hsome⟩ := behaviorBytes_run hes (run_of_guarded hrun)
  have husome : u.behaviorBytes.isSome := by
    rw [byteStep] at hloss'
    split_ifs at hloss'
    obtain rfl := Option.some_inj.mp hloss'
    rfl
  obtain ⟨bs, hbs⟩ := Option.isSome_iff_exists.mp (hsome husome)
  have hcut : ((tripCodec.encode (lastTrip t.fileless).toTripRecord).take n).length <
      tripCodec.size := (List.length_take_le _ _).trans_lt hn
  have hrecords : records tripCodec (v.behaviorBytes.getD []) = rs ++
      torn tripCodec ((tripCodec.encode (lastTrip t.fileless).toTripRecord).take n)
        (byteWritten P L u es) := by
    rw [hv, hu, hfile, Option.getD_some, appendedBytes, List.append_assoc,
      records_encodeAll_append tripCodec hrs, records_torn tripCodec hcut]
  refine ⟨hrecords, fun raw ok2 w hstart => ?_⟩
  rw [trips_start hbs (definedStep_some.mp hstart).2, ← hrecords, hbs, Option.getD_some]

theorem torn_run_cutDrive :
    ∃ t u v w, t.behaviorBytes = some (encodeAll tripCodec [morningRecord]) ∧
      definedStep .keyed copyingLayout t (.powerLoss 12 none) = some u ∧
      run (definedStep .keyed copyingLayout) u (crashedTrip ++ crashedTrip) = some v ∧
      definedStep .keyed copyingLayout v (.event (.start blankInstance true true)) = some w ∧
      w.mBehavGpsVec.map (·.toTripRecord) = [morningRecord] ++
        torn tripCodec ((tripCodec.encode (lastTrip t.fileless).toTripRecord).take 12)
          (byteWritten .keyed copyingLayout u (crashedTrip ++ crashedTrip)) ++
        [lastRead tripCodec copyingLayout.cutTrip zeroTrip (v.behaviorBytes.getD [])] := by
  have hbytes : (run (definedStep .keyed copyingLayout) emptyDisk
      ((firstTrip ++ drive ⟨1, 2⟩).map .event)).map (·.behaviorBytes) =
        some (some (encodeAll tripCodec [morningRecord])) := by decide +kernel
  have hall : (run (definedStep .keyed copyingLayout) emptyDisk
      ((firstTrip ++ drive ⟨1, 2⟩).map .event ++ .powerLoss 12 none ::
        (crashedTrip ++ crashedTrip ++ [.event (.start blankInstance true true)]))).isSome := by
    decide +kernel
  obtain ⟨w, hw⟩ := Option.isSome_iff_exists.mp hall
  rw [run_append, Option.bind_eq_some_iff] at hw
  obtain ⟨t, ht, hw⟩ := hw
  obtain ⟨u, hu, hw⟩ := run_cons_some.mp hw
  rw [run_concat, Option.bind_eq_some_iff] at hw
  obtain ⟨v, hv, hw⟩ := hw
  rw [ht, Option.map_some, Option.some_inj] at hbytes
  exact ⟨t, u, v, w, hbytes, hu, hv, hw,
    (torn_run hbytes (fun _ => fits_morningRecord) (by decide) hu
      (by simp [crashedTrip, firstTrip, drive, ByteEvent.Powered]) hv).2 _ _ _ hw⟩

end PowerLoss

end Gauge
