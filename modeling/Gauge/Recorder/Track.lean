import Gauge.Base.Mailbox
import Gauge.Recorder.Handlers

/-!
The track of GPS samples, `mGpsInfoVec`, and the worker thread `calcArrival` that collects it.

The signal handler overwrites `mGpsInfo` and sets `mGPSDataEvt`; the worker waits for the event
outside of `mGetDataMutex` and then pushes `mGpsInfo` under it.  The two threads exchange the
samples through a `Mailbox`.

* `track_iff`: when every accepted sample is pushed once and in order.
-/

namespace Gauge

open Machine

/-- The instance with its worker. -/
structure Threads where
  world : World
  mGpsInfoVec : List GPSInfo
  /-- The worker has returned from `mGPSDataEvt.wait()` and has not pushed yet. -/
  awake : Bool

/-- An atomic step of one of the two threads. -/
inductive ThreadEvent
  /-- The handler, which holds `mGetDataMutex`, accepts a signal. -/
  | signal (fix : Fix)
  /-- `mGPSDataEvt.wait()` returns, and the event resets itself. -/
  | wait
  /-- `mGpsInfoVec.push_back(mGpsInfo)`, under `mGetDataMutex`. -/
  | push

/-- One step.  Nothing ever clears `mThreadRun`, so that the worker goes back to its wait after
each push. -/
def threadStep (th : Threads) : ThreadEvent → Option Threads
  | .signal fix => some { th with world := onGPSDataNDRServiceIPCSignal fix th.world }
  | .wait =>
      if th.awake = false ∧ th.world.mGPSDataEvt = true then
        some { th with world := { th.world with mGPSDataEvt := false }, awake := true }
      else none
  | .push =>
      if th.awake = true then
        some { th with mGpsInfoVec := th.mGpsInfoVec ++ [th.world.mGpsInfo], awake := false }
      else none

/-- The accepted samples in order of arrival. -/
def samples (es : List ThreadEvent) : List GPSInfo :=
  es.filterMap fun
    | .signal fix => some fix.gpsInfo
    | .wait => none
    | .push => none

/-- The event is not set, and the worker waits for it. -/
def Threads.Waiting (th : Threads) : Prop := th.world.mGPSDataEvt = false ∧ th.awake = false

/-- A signal finds the event not set, and if the worker is about to push, it brings the very
sample that is to be pushed. -/
def InTime (th : Threads) : ThreadEvent → Prop
  | .signal fix =>
      th.world.mGPSDataEvt = false ∧ (th.awake = true → fix.gpsInfo = th.world.mGpsInfo)
  | .wait => True
  | .push => True

/-! ### The mailbox -/

/-- `mGpsInfo` and `mGPSDataEvt` as a mailbox. -/
def Threads.box (th : Threads) : Mailbox.Box GPSInfo :=
  ⟨th.world.mGpsInfo, th.world.mGPSDataEvt, th.awake, th.mGpsInfoVec⟩

def ThreadEvent.act : ThreadEvent → Mailbox.Act GPSInfo
  | .signal fix => .put fix.gpsInfo
  | .wait => .wake
  | .push => .take

lemma sent_map_act (es : List ThreadEvent) : Mailbox.sent (es.map (·.act)) = samples es := by
  rw [Mailbox.sent, samples, List.filterMap_map]
  refine List.filterMap_congr fun e _ => ?_
  cases e <;> rfl

/-- The threads are the writer and the reader of the mailbox. -/
lemma step_box (th : Threads) (e : ThreadEvent) :
    Mailbox.step th.box e.act = (threadStep th e).map (·.box) := by
  cases e with
  | signal fix =>
      have hevt : (onGPSDataNDRServiceIPCSignal fix th.world).mGPSDataEvt = true := rfl
      simp [threadStep, ThreadEvent.act, Mailbox.step, Threads.box, hevt]
  | wait =>
      rw [threadStep, ThreadEvent.act, Mailbox.step]
      split <;> rename_i h
      · rw [if_pos (show th.awake = false ∧ th.world.mGPSDataEvt = true from h)]
        rfl
      · rw [if_neg (show ¬ (th.awake = false ∧ th.world.mGPSDataEvt = true) from h)]
        rfl
  | push =>
      rw [threadStep, ThreadEvent.act, Mailbox.step]
      split <;> rename_i h
      · rw [if_pos (show th.awake = true from h)]
        rfl
      · rw [if_neg (show ¬ th.awake = true from h)]
        rfl

/-- **No sample is lost or duplicated** on the way to the track, exactly if every signal of the
run is in time. -/
theorem track_iff {th th' : Threads} {es : List ThreadEvent} (hth : th.Waiting)
    (hempty : th.mGpsInfoVec = []) (hrun : run threadStep th es = some th')
    (hth' : th'.Waiting) :
    th'.mGpsInfoVec = samples es ↔ Along threadStep InTime th es := by
  have hbox : run Mailbox.step th.box (es.map (·.act)) = some th'.box := by
    rw [run_map step_box, hrun, Option.map_some]
  have htimely : Along Mailbox.step Mailbox.Timely th.box (es.map (·.act)) ↔
      Along threadStep InTime th es := by
    rw [along_map step_box]
    refine forall₂_congr fun fs e => forall₂_congr fun t t' => ?_
    cases e <;> rfl
  rw [← htimely, ← sent_map_act]
  exact Mailbox.taken_iff_timely (b := th.box) hth hempty hbox hth'

/-- The program before its first signal. -/
def firstThreads : Threads := ⟨firstWorld blankInstance false none, [], false⟩

theorem track_iff_two_signals :
    Along threadStep InTime firstThreads
      [.signal ⟨.morning, ⟨1, 1⟩⟩, .wait, .push, .signal ⟨.morning, ⟨1, 2⟩⟩, .wait, .push] :=
  have hrun : run threadStep firstThreads
      [.signal ⟨.morning, ⟨1, 1⟩⟩, .wait, .push, .signal ⟨.morning, ⟨1, 2⟩⟩, .wait, .push] =
        some ⟨_, [Fix.gpsInfo ⟨.morning, ⟨1, 1⟩⟩, Fix.gpsInfo ⟨.morning, ⟨1, 2⟩⟩], false⟩ := rfl
  (track_iff ⟨rfl, rfl⟩ rfl hrun ⟨rfl, rfl⟩).mp rfl

/-- Of two signals that come before the worker has waited, the first one is lost. -/
theorem not_forall_track :
    ¬ ∀ (th th' : Threads) (es : List ThreadEvent), th.Waiting → th.mGpsInfoVec = [] →
      run threadStep th es = some th' → th'.Waiting → th'.mGpsInfoVec = samples es := by
  intro h
  have hvec := h firstThreads _
    [.signal ⟨.morning, ⟨1, 1⟩⟩, .signal ⟨.morning, ⟨2, 2⟩⟩, .wait, .push] ⟨rfl, rfl⟩ rfl rfl
    ⟨rfl, rfl⟩
  exact absurd (congrArg List.length hvec) (by decide)

end Gauge
