import Gauge.Base.Digits
import Gauge.Base.Machine
import Gauge.Predict.Rates
import Gauge.Recorder.Files

/-!
The handlers: the GPS signal, the timer callback that ends a trip, the prediction request and
the start of a new process over the files of the last one.  Each is one step of a machine;
a callback without a timer dereferences a null pointer and has no next state.

* `signal_first`, `signal_next`: a signal that opens a trip, and one that goes on with it.
* `callback_some`: a callback keeps the trip open or saves it.
-/

namespace Gauge

/-- An accepted signal: the reading of the clock and the place. -/
structure Fix where
  clock : Clock
  pos : LatLon

/-- `sprintf` with the conversion `%0wd`, of a number that is not negative. -/
def zeroPad (w : ℕ) (n : ℤ) : List Char := Digits.padded w n.toNat

/-- `mGpsInfo`, as a signal fills it.  The minutes of its time are printed from the month. -/
def Fix.gpsInfo (fix : Fix) : GPSInfo where
  date := zeroPad 4 fix.clock.date.year ++ zeroPad 2 fix.clock.date.mon ++
    zeroPad 2 fix.clock.date.day
  time := zeroPad 2 fix.clock.time.hour ++ zeroPad 2 fix.clock.date.mon ++
    zeroPad 2 fix.clock.time.sec
  latitude := fix.pos.lat
  longitude := fix.pos.lon

/-- `GaugeArrival::onGPSDataNDRServiceIPCSignal`, from the point where the payload has been
accepted. -/
def onGPSDataNDRServiceIPCSignal (fix : Fix) (w : World) : World :=
  let w := { w with
    mGpsInfo := fix.gpsInfo
    mCurGPS := { w.mCurGPS with
      dateD := fix.clock.date.packed, timeD := fix.clock.time.packed }
    mCurLat := fix.pos.lat
    mCurLon := fix.pos.lon }
  let w :=
    if w.mGetFirstGPSSig = 0 then
      let cur := { w.mCurGPS with
        date := fix.clock.date.packed, time := fix.clock.time.packed }
      let i := searchPos w.mGpsPosVec fix.pos
      { w with
        mGetFirstGPSSig := 1
        mGpsPosVec := searchOrAppend w.mGpsPosVec fix.pos
        mCurGPS := { cur with codeS := Int16.ofNat i }
        mFirstGPS := { cur with codeS := Int16.ofNat i } }
    else w
  -- the timer is created or restarted
  { w with mLastGPSTimer := true, mGPSDataEvt := true }

/-- The trip that `lastGPSCallback` puts into `mLastGPS`. -/
def lastTrip (w : World) : BehaviorGPS :=
  { w.mCurGPS with
    codeS := w.mFirstGPS.codeS
    codeD := Int16.ofNat (searchPos w.mGpsPosVec w.curPos) }

/-- `lastGPSCallback` up to the comparison of the codes. -/
def closeTrip (w : World) : World :=
  { w with
    mLastGPSTimer := false
    mLastGPS := lastTrip w
    mGpsPosVec := searchOrAppend w.mGpsPosVec w.curPos }

/-- `GaugeArrival::lastGPSCallback`, without a next state if `mLastGPSTimer` is null. -/
def lastGPSCallback (P : Platform) (ok1 ok2 : Bool) (w : World) : Option World :=
  if w.mLastGPSTimer then
    let w := closeTrip w
    if w.mLastGPS.codeS = w.mLastGPS.codeD then some w
    else some { saveDriverBehavior P ok1 ok2 w with mGetFirstGPSSig := 0 }
  else none

/-- `GaugeArrival::predictDestinationAtStart`, from the coordinates that the validators of the
request store, `none` where they store nothing. -/
def predictDestinationAtStart (P : Platform) (clock : Clock) (lat lon : Option ℚ)
    (w : World) : World :=
  let start : LatLon := ⟨lat.getD w.mStartLat, lon.getD w.mStartLon⟩
  let arrival := { w.toGaugeArrival with
    mStartLat := start.lat
    mStartLon := start.lon
    mGpsPosVec := searchOrAppend w.mGpsPosVec start
    mFirstGPS := { w.mFirstGPS with
      codeS := Int16.ofNat (searchPos w.mGpsPosVec start)
      date := clock.date.packed
      time := clock.time.packed } }
  { w with toGaugeArrival := getDestAndRate P arrival }

/-! ### The machine -/

/-- What happens to the program. -/
inductive Event
  /-- A new process, in the memory `raw`, loads the files. -/
  | start (raw : GaugeArrival) (ok1 ok2 : Bool)
  /-- An accepted signal. -/
  | signal (fix : Fix)
  /-- The timer fires. -/
  | callback (ok1 ok2 : Bool)
  /-- A prediction is asked for. -/
  | predict (clock : Clock) (lat lon : Option ℚ)

/-- The event begins a new process. -/
def Event.IsStart : Event → Prop
  | .start _ _ _ => True
  | _ => False

/-- One event.  The handlers exclude each other, so that events do not overlap. -/
def step (P : Platform) (w : World) : Event → Option World
  | .start raw ok1 ok2 => some (loadDriverBehavior P ok1 ok2 (w.construct raw))
  | .signal fix => some (onGPSDataNDRServiceIPCSignal fix w)
  | .callback ok1 ok2 => lastGPSCallback P ok1 ok2 w
  | .predict clock lat lon => some (predictDestinationAtStart P clock lat lon w)

/-- A drive from home to `goal` in a new process, before the timer event that ends it. -/
def drive (goal : LatLon) : List Event :=
  [.start blankInstance true true, .signal ⟨.morning, ⟨1, 1⟩⟩, .signal ⟨.morning, goal⟩]

/-! ### What the handlers do -/

/-- A signal that opens a trip registers its place. -/
lemma signal_first (fix : Fix) {w : World} (h : w.mGetFirstGPSSig = 0) :
    onGPSDataNDRServiceIPCSignal fix w =
      { w with
        mGpsInfo := fix.gpsInfo
        mCurLat := fix.pos.lat
        mCurLon := fix.pos.lon
        mGetFirstGPSSig := 1
        mGpsPosVec := searchOrAppend w.mGpsPosVec fix.pos
        mCurGPS := { w.mCurGPS with
          date := fix.clock.date.packed
          time := fix.clock.time.packed
          dateD := fix.clock.date.packed
          timeD := fix.clock.time.packed
          codeS := Int16.ofNat (searchPos w.mGpsPosVec fix.pos) }
        mFirstGPS := { w.mCurGPS with
          date := fix.clock.date.packed
          time := fix.clock.time.packed
          dateD := fix.clock.date.packed
          timeD := fix.clock.time.packed
          codeS := Int16.ofNat (searchPos w.mGpsPosVec fix.pos) }
        mLastGPSTimer := true
        mGPSDataEvt := true } := by
  simp only [onGPSDataNDRServiceIPCSignal, h, if_true]

/-- A signal during a trip changes the end of the trip and the current place only. -/
lemma signal_next (fix : Fix) {w : World} (h : w.mGetFirstGPSSig ≠ 0) :
    onGPSDataNDRServiceIPCSignal fix w =
      { w with
        mGpsInfo := fix.gpsInfo
        mCurLat := fix.pos.lat
        mCurLon := fix.pos.lon
        mCurGPS := { w.mCurGPS with
          dateD := fix.clock.date.packed
          timeD := fix.clock.time.packed }
        mLastGPSTimer := true
        mGPSDataEvt := true } := by
  simp only [onGPSDataNDRServiceIPCSignal, if_neg h]

/-- Every signal leaves its sample in `mGpsInfo`. -/
@[simp] lemma signal_mGpsInfo (fix : Fix) (w : World) :
    (onGPSDataNDRServiceIPCSignal fix w).mGpsInfo = fix.gpsInfo := by
  rcases eq_or_ne w.mGetFirstGPSSig 0 with h | h
  · rw [signal_first fix h]
  · rw [signal_next fix h]

/-- No signal touches the history. -/
@[simp] lemma signal_toHistory (fix : Fix) (w : World) :
    (onGPSDataNDRServiceIPCSignal fix w).toHistory = w.toHistory := by
  rcases eq_or_ne w.mGetFirstGPSSig 0 with h | h
  · rw [signal_first fix h]
  · rw [signal_next fix h]

/-- No signal touches the behaviour file. -/
@[simp] lemma signal_behaviorFile (fix : Fix) (w : World) :
    (onGPSDataNDRServiceIPCSignal fix w).behaviorFile = w.behaviorFile := by
  rcases eq_or_ne w.mGetFirstGPSSig 0 with h | h
  · rw [signal_first fix h]
  · rw [signal_next fix h]

/-- No signal touches the position file. -/
@[simp] lemma signal_behaviorGpsFile (fix : Fix) (w : World) :
    (onGPSDataNDRServiceIPCSignal fix w).behaviorGpsFile = w.behaviorGpsFile := by
  rcases eq_or_ne w.mGetFirstGPSSig 0 with h | h
  · rw [signal_first fix h]
  · rw [signal_next fix h]

/-- **A callback keeps the trip open or saves it**; without a timer there is none. -/
lemma callback_some {P : Platform} {ok1 ok2 : Bool} {w w' : World}
    (h : lastGPSCallback P ok1 ok2 w = some w') :
    w.mLastGPSTimer = true ∧
      ((lastTrip w).codeS = (lastTrip w).codeD ∧ w' = closeTrip w ∨
        (lastTrip w).codeS ≠ (lastTrip w).codeD ∧
          w' = { saveDriverBehavior P ok1 ok2 (closeTrip w) with mGetFirstGPSSig := 0 }) := by
  rw [lastGPSCallback] at h
  split at h
  · rename_i htimer
    refine ⟨htimer, ?_⟩
    dsimp only at h
    split at h
    · exact Or.inl ⟨‹_›, (Option.some_inj.mp h).symm⟩
    · exact Or.inr ⟨‹_›, (Option.some_inj.mp h).symm⟩
  · exact absurd h (by simp)

/-- Within a process only the search loops touch the positions. -/
lemma positions_of_step {P : Platform} {w w' : World} {e : Event} (he : ¬ e.IsStart)
    (h : step P w e = some w') :
    w'.mGpsPosVec = w.mGpsPosVec ∨ ∃ q, w'.mGpsPosVec = searchOrAppend w.mGpsPosVec q := by
  cases e with
  | start raw ok1 ok2 => exact absurd trivial he
  | signal fix =>
      obtain rfl := Option.some_inj.mp h
      rcases eq_or_ne w.mGetFirstGPSSig 0 with hflag | hflag
      · rw [signal_first fix hflag]
        exact Or.inr ⟨fix.pos, rfl⟩
      · rw [signal_next fix hflag]
        exact Or.inl rfl
  | callback ok1 ok2 =>
      obtain ⟨-, ⟨-, rfl⟩ | ⟨-, rfl⟩⟩ := callback_some h
      · exact Or.inr ⟨w.curPos, rfl⟩
      · exact Or.inr ⟨w.curPos, saveDriverBehavior_mGpsPosVec P (closeTrip w) ok1 ok2⟩
  | predict clock lat lon =>
      obtain rfl := Option.some_inj.mp h
      exact Or.inr ⟨_, rfl⟩

/-- Within a process positions are only appended. -/
lemma prefix_of_step {P : Platform} {w w' : World} {e : Event} (he : ¬ e.IsStart)
    (h : step P w e = some w') : w.mGpsPosVec <+: w'.mGpsPosVec := by
  rcases positions_of_step he h with heq | ⟨q, heq⟩
  · rw [heq]
  · rw [heq]
    exact prefix_searchOrAppend _ _

end Gauge
