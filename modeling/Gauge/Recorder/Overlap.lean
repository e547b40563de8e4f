import Gauge.Recorder.Handlers

/-!
The timer callback, statement by statement, among signals and requests.

`lastGPSCallback` does not take the mutex of the signal handler, so that signals and requests are
handled between any two of its statements.  `Overlap` is the machine of these interleavings; a
signal or a request is one step of it, and so is each statement of the callback that reads or
writes a member.  A timer is modelled by whether it is going to fire again.

* `owned_always_iff`: when every running timer is the one that `mLastGPSTimer` points at.
* `guarded_always_iff`: when no timer runs without an open trip.
-/

namespace Gauge

open Machine

/-! ### The machine -/

/-- The next statement of `lastGPSCallback`, with the values of its local variables. -/
inductive Pc
  /-- No callback is running. -/
  | idle
  /-- `mLastGPSTimer = NULL` -/
  | clear
  /-- `mLastGPS = mCurGPS` -/
  | copy
  /-- `size = mGpsPosVec.size()` -/
  | count
  /-- `mLastGPS.code_s = mFirstGPS.code_s` -/
  | codeS (size : ℕ)
  /-- `getLatLon(curLat, curLon)` -/
  | locate (size : ℕ)
  /-- The loop over the first `size` positions.  Positions are only appended, so that it does not
  matter when it reads them. -/
  | search (size : ℕ) (cur : LatLon)
  /-- `if (i == size) mGpsPosVec.push_back(newPos)` -/
  | append (size : ℕ) (cur : LatLon) (i : ℕ)
  /-- `mLastGPS.code_d = i` -/
  | codeD (i : ℕ)
  /-- `if (mLastGPS.code_s == mLastGPS.code_d) return` -/
  | compare
  /-- `saveDriverBehavior()` -/
  | save
  /-- `mGetFirstGPSSig = 0` -/
  | reset
  deriving DecidableEq

/-- The process with its callback and its timers. -/
structure Overlap where
  world : World
  pc : Pc
  /-- The outcomes of the `fopen` calls of the callback. -/
  oks : Bool × Bool
  /-- The timer that `mLastGPSTimer` points at is going to fire. -/
  running : Bool
  /-- The number of timers that are going to fire and that nothing points at. -/
  orphans : ℕ

/-- There is a timer of this kind that is going to fire. -/
def Overlap.canFire (x : Overlap) (orphan : Bool) : Bool :=
  if orphan then decide (0 < x.orphans) else x.running

/-- What happens to the process. -/
inductive Move
  | start (raw : GaugeArrival) (ok1 ok2 : Bool)
  | signal (fix : Fix)
  | predict (clock : Clock) (lat lon : Option ℚ)
  /-- A timer fires, and the callback executes `mLastGPSTimer->restart(0)`. -/
  | fire (orphan : Bool) (ok1 ok2 : Bool)
  /-- The next statement of the callback. -/
  | next

/-- `mLastGPS = mCurGPS`. -/
def copyLast (w : World) : World := { w with mLastGPS := w.mCurGPS }

/-- `mLastGPS.code_s = mFirstGPS.code_s`. -/
def takeCodeS (w : World) : World :=
  { w with mLastGPS := { w.mLastGPS with codeS := w.mFirstGPS.codeS } }

/-- The index at which the loop of the callback stops. -/
def searchFirst (size : ℕ) (cur : LatLon) (w : World) : ℕ :=
  searchPos (w.mGpsPosVec.take size) cur

/-- `if (i == size) mGpsPosVec.push_back(newPos)`. -/
def appendPlace (size : ℕ) (cur : LatLon) (i : ℕ) (w : World) : World :=
  if i = size then { w with mGpsPosVec := w.mGpsPosVec ++ [newPos i cur] } else w

/-- `mLastGPS.code_d = i`. -/
def takeCodeD (i : ℕ) (w : World) : World :=
  { w with mLastGPS := { w.mLastGPS with codeD := Int16.ofNat i } }

/-- One statement of the callback, after the first one. -/
def nextStatement (P : Platform) (x : Overlap) : Option Overlap :=
  let w := x.world
  match x.pc with
  | .idle => none
  | .clear =>
      some { x with
        world := { w with mLastGPSTimer := false }
        pc := .copy
        -- the timer goes on without its pointer if it was restarted in between
        running := false
        orphans := if x.running then x.orphans + 1 else x.orphans }
  | .copy => some { x with world := copyLast w, pc := .count }
  | .count => some { x with pc := .codeS w.mGpsPosVec.length }
  | .codeS size => some { x with world := takeCodeS w, pc := .locate size }
  | .locate size => some { x with pc := .search size w.curPos }
  | .search size cur => some { x with pc := .append size cur (searchFirst size cur w) }
  | .append size cur i => some { x with world := appendPlace size cur i w, pc := .codeD i }
  | .codeD i => some { x with world := takeCodeD i w, pc := .compare }
  | .compare => some { x with pc := if w.mLastGPS.codeS = w.mLastGPS.codeD then .idle else .save }
  | .save => some { x with world := saveDriverBehavior P x.oks.1 x.oks.2 w, pc := .reset }
  | .reset => some { x with world := { w with mGetFirstGPSSig := 0 }, pc := .idle }

/-- One step.  A timer does not fire before the callback of the last one is over; to fire without
a pointer dereferences null. -/
def overlapStep (P : Platform) (x : Overlap) : Move → Option Overlap
  | .start raw ok1 ok2 =>
      some ⟨loadDriverBehavior P ok1 ok2 (x.world.construct raw), .idle, (ok1, ok2), false, 0⟩
  | .signal fix =>
      -- a new timer, or the one that is there restarted
      some { x with world := onGPSDataNDRServiceIPCSignal fix x.world, running := true }
  | .predict clock lat lon =>
      some { x with world := predictDestinationAtStart P clock lat lon x.world }
  | .fire orphan ok1 ok2 =>
      if x.pc = .idle ∧ x.canFire orphan = true ∧ x.world.mLastGPSTimer = true then
        some { x with pc := .clear, oks := (ok1, ok2), running := false }
      else none
  | .next => nextStatement P x

/-! ### The rest of a callback -/

/-- The callback from its comparison on. -/
def endTrip (P : Platform) (oks : Bool × Bool) (w : World) : World :=
  if w.mLastGPS.codeS = w.mLastGPS.codeD then w
  else { saveDriverBehavior P oks.1 oks.2 w with mGetFirstGPSSig := 0 }

/-- The callback from its loop on. -/
def endSearch (P : Platform) (oks : Bool × Bool) (size : ℕ) (cur : LatLon) (w : World) : World :=
  let i := searchFirst size cur w
  endTrip P oks (takeCodeD i (appendPlace size cur i w))

/-- What the callback makes of `w` from `pc` on, if nothing else happens. -/
def finish (P : Platform) (oks : Bool × Bool) : Pc → World → World
  | .idle, w => w
  | .clear, w =>
      let w := takeCodeS (copyLast { w with mLastGPSTimer := false })
      endSearch P oks w.mGpsPosVec.length w.curPos w
  | .copy, w =>
      let w := takeCodeS (copyLast w)
      endSearch P oks w.mGpsPosVec.length w.curPos w
  | .count, w =>
      let w := takeCodeS w
      endSearch P oks w.mGpsPosVec.length w.curPos w
  | .codeS size, w =>
      let w := takeCodeS w
      endSearch P oks size w.curPos w
  | .locate size, w => endSearch P oks size w.curPos w
  | .search size cur, w => endSearch P oks size cur w
  | .append size cur i, w => endTrip P oks (takeCodeD i (appendPlace size cur i w))
  | .codeD i, w => endTrip P oks (takeCodeD i w)
  | .compare, w => endTrip P oks w
  | .save, w => { saveDriverBehavior P oks.1 oks.2 w with mGetFirstGPSSig := 0 }
  | .reset, w => { w with mGetFirstGPSSig := 0 }

/-- The world after the callback, if nothing else happens. -/
def Overlap.finished (P : Platform) (x : Overlap) : World := finish P x.oks x.pc x.world

section Finish

variable {P : Platform} {x x' : Overlap}

/-- A statement of the callback does not change how it ends. -/
lemma finished_next (h : nextStatement P x = some x') : x'.finished P = x.finished P := by
  obtain ⟨w, pc, oks, running, orphans⟩ := x
  cases pc with
  | idle => exact absurd h (by simp [nextStatement])
  | compare =>
      obtain rfl := Option.some_inj.mp h
      by_cases hcode : w.mLastGPS.codeS = w.mLastGPS.codeD
      · simp [Overlap.finished, finish, endTrip, hcode]
      · simp [Overlap.finished, finish, endTrip, hcode]
  | _ =>
      obtain rfl := Option.some_inj.mp h
      rfl

/-- The loop over all positions and the `push_back` after it. -/
lemma appendPlace_searchFirst (cur : LatLon) (w : World) :
    appendPlace w.mGpsPosVec.length cur (searchFirst w.mGpsPosVec.length cur w) w =
      { w with mGpsPosVec := searchOrAppend w.mGpsPosVec cur } := by
  rw [searchFirst, List.take_length, appendPlace, searchOrAppend, FirstMatch.register]
  change (if searchPos w.mGpsPosVec cur = _ then _ else _) =
    { w with mGpsPosVec := if searchPos w.mGpsPosVec cur = _ then _ else _ }
  split <;> rfl

/-- Without anything in between the statements are the callback of `step`. -/
lemma lastGPSCallback_eq_finish (P : Platform) {w : World} (h : w.mLastGPSTimer = true)
    (ok1 ok2 : Bool) : lastGPSCallback P ok1 ok2 w = some (finish P (ok1, ok2) .clear w) := by
  set v := takeCodeS (copyLast { w with mLastGPSTimer := false }) with hv
  have hclose : closeTrip w = takeCodeD (searchFirst v.mGpsPosVec.length v.curPos v)
      (appendPlace v.mGpsPosVec.length v.curPos (searchFirst v.mGpsPosVec.length v.curPos v) v) := by
    rw [appendPlace_searchFirst, searchFirst, List.take_length]
    rfl
  rw [lastGPSCallback, if_pos h, hclose]
  dsimp only
  rw [← apply_ite some]
  rfl

end Finish

/-! ### What a move does -/

section Moves

variable {P : Platform} {x x' : Overlap}

@[simp] lemma appendPlace_mLastGPSTimer (size : ℕ) (cur : LatLon) (i : ℕ) (w : World) :
    (appendPlace size cur i w).mLastGPSTimer = w.mLastGPSTimer := by
  rw [appendPlace]
  split <;> rfl

@[simp] lemma appendPlace_mGetFirstGPSSig (size : ℕ) (cur : LatLon) (i : ℕ) (w : World) :
    (appendPlace size cur i w).mGetFirstGPSSig = w.mGetFirstGPSSig := by
  rw [appendPlace]
  split <;> rfl

@[simp] lemma appendPlace_mLastGPS (size : ℕ) (cur : LatLon) (i : ℕ) (w : World) :
    (appendPlace size cur i w).mLastGPS = w.mLastGPS := by
  rw [appendPlace]
  split <;> rfl

@[simp] lemma saveDriverBehavior_mGetFirstGPSSig (ok1 ok2 : Bool) (w : World) :
    (saveDriverBehavior P ok1 ok2 w).mGetFirstGPSSig = w.mGetFirstGPSSig := by
  cases ok1 <;> cases ok2 <;> rfl

/-- A statement after `mLastGPSTimer = NULL` leaves the timers alone. -/
lemma timers_next (h : nextStatement P x = some x') (hpc : x.pc ≠ .clear) :
    x'.running = x.running ∧ x'.orphans = x.orphans ∧ x'.pc ≠ .clear ∧
      x'.world.mLastGPSTimer = x.world.mLastGPSTimer := by
  obtain ⟨w, pc, oks, running, orphans⟩ := x
  cases pc with
  | idle => exact absurd h (by simp [nextStatement])
  | clear => exact absurd rfl hpc
  | append size cur i =>
      obtain rfl := Option.some_inj.mp h
      exact ⟨rfl, rfl, by simp, appendPlace_mLastGPSTimer size cur i w⟩
  | compare =>
      obtain rfl := Option.some_inj.mp h
      refine ⟨rfl, rfl, ?_, rfl⟩
      dsimp only
      split <;> simp
  | save =>
      obtain rfl := Option.some_inj.mp h
      exact ⟨rfl, rfl, by simp, saveDriverBehavior_mLastGPSTimer P w oks.1 oks.2⟩
  | _ =>
      obtain rfl := Option.some_inj.mp h
      exact ⟨rfl, rfl, by simp, rfl⟩

/-- `mLastGPSTimer = NULL`. -/
lemma next_clear (hpc : x.pc = .clear) (h : nextStatement P x = some x') :
    x' = { x with
      world := { x.world with mLastGPSTimer := false }
      pc := .copy
      running := false
      orphans := if x.running then x.orphans + 1 else x.orphans } := by
  obtain ⟨w, pc, oks, running, orphans⟩ := x
  obtain rfl : pc = .clear := hpc
  exact (Option.some_inj.mp h).symm

lemma next_ne_clear (h : nextStatement P x = some x') : x'.pc ≠ .clear := by
  by_cases hpc : x.pc = .clear
  · simp [next_clear hpc h]
  · exact (timers_next h hpc).2.2.1

lemma fire_some {orphan ok1 ok2 : Bool} (h : overlapStep P x (.fire orphan ok1 ok2) = some x') :
    (x.pc = .idle ∧ x.canFire orphan = true ∧ x.world.mLastGPSTimer = true) ∧
      x' = { x with pc := .clear, oks := (ok1, ok2), running := false } := by
  rw [overlapStep] at h
  split at h
  · exact ⟨‹_›, (Option.some_inj.mp h).symm⟩
  · exact absurd h (by simp)

end Moves

/-! ### Timers that nothing points at -/

/-- Every timer that is going to fire is the one that `mLastGPSTimer` points at. -/
structure Overlap.Owned (x : Overlap) : Prop where
  orphans : x.orphans = 0
  running : x.running = true → x.world.mLastGPSTimer = true

/-- A timer fires that cannot be stopped: `mLastGPSTimer->restart(0)` dereferences null. -/
def Overlap.NullFire (x : Overlap) : Prop :=
  x.pc = .idle ∧ (∃ orphan, x.canFire orphan = true) ∧ x.world.mLastGPSTimer = false

lemma Overlap.Owned.not_nullFire {x : Overlap} (hx : x.Owned) : ¬ x.NullFire := by
  rintro ⟨-, ⟨orphan, hfire⟩, hnull⟩
  cases orphan with
  | false => exact absurd (hx.running hfire) (by simp [hnull])
  | true => exact absurd hx.orphans (of_decide_eq_true hfire).ne'

/-- `mLastGPSTimer = NULL` does not find the timer restarted. -/
def ClearsStopped (x : Overlap) : Move → Prop
  | .next => x.pc = .clear → x.running = false
  | _ => True

lemma owned_step_iff (P : Platform) (x : Overlap) (m : Move) (x' : Overlap) (hx : x.Owned)
    (h : overlapStep P x m = some x') : x'.Owned ↔ ClearsStopped x m := by
  cases m with
  | start raw ok1 ok2 =>
      obtain rfl := Option.some_inj.mp h
      exact iff_of_true ⟨rfl, by simp⟩ trivial
  | signal fix =>
      obtain rfl := Option.some_inj.mp h
      exact iff_of_true ⟨hx.orphans, fun _ => rfl⟩ trivial
  | predict clock lat lon =>
      obtain rfl := Option.some_inj.mp h
      exact iff_of_true ⟨hx.orphans, hx.running⟩ trivial
  | fire orphan ok1 ok2 =>
      obtain ⟨-, rfl⟩ := fire_some h
      exact iff_of_true ⟨hx.orphans, by simp⟩ trivial
  | next =>
      by_cases hpc : x.pc = .clear
      · obtain rfl := next_clear hpc h
        rw [ClearsStopped, imp_iff_right hpc]
        constructor
        · intro hx'
          by_contra hrunning
          rw [Bool.not_eq_false] at hrunning
          have horphans := hx'.orphans
          rw [if_pos hrunning] at horphans
          exact Nat.succ_ne_zero _ horphans
        · exact fun hrunning => ⟨by simp [hrunning, hx.orphans], by simp⟩
      · obtain ⟨hrunning, horphans, -, htimer⟩ := timers_next h hpc
        refine iff_of_true ⟨horphans.trans hx.orphans, fun hr => ?_⟩ fun hclear => absurd hclear hpc
        exact htimer.trans (hx.running (hrunning ▸ hr))

/-- The statements that are left, at most. -/
def Pc.left : Pc → ℕ
  | .idle => 0
  | .clear => 11
  | .copy => 10
  | .count => 9
  | .codeS _ => 8
  | .locate _ => 7
  | .search _ _ => 6
  | .append _ _ _ => 5
  | .codeD _ => 4
  | .compare => 3
  | .save => 2
  | .reset => 1

/-- A callback that has begun goes on. -/
lemma exists_next (P : Platform) {x : Overlap} (hpc : x.pc ≠ .idle) :
    ∃ x', nextStatement P x = some x' ∧ x'.pc.left < x.pc.left := by
  obtain ⟨w, pc, oks, running, orphans⟩ := x
  cases pc with
  | idle => exact absurd rfl hpc
  | compare =>
      refine ⟨_, rfl, ?_⟩
      dsimp only
      split <;> simp [Pc.left]
  | _ => exact ⟨_, rfl, by simp [Pc.left]⟩

/-- **A callback ends**, if nothing else happens, and leaves the timers as they were after
`mLastGPSTimer = NULL`. -/
lemma run_finish (P : Platform) (x : Overlap) :
    ∃ k y, run (overlapStep P) x (List.replicate k .next) = some y ∧ y.pc = .idle ∧
      y.world = x.finished P ∧ (x.pc ≠ .clear → y.running = x.running ∧
        y.orphans = x.orphans ∧ y.world.mLastGPSTimer = x.world.mLastGPSTimer) := by
  induction hn : x.pc.left using Nat.strong_induction_on generalizing x with
  | _ n ih =>
      by_cases hpc : x.pc = .idle
      · exact ⟨0, x, rfl, hpc, by rw [Overlap.finished, hpc]; rfl, fun _ => ⟨rfl, rfl, rfl⟩⟩
      · obtain ⟨x', hnext, hleft⟩ := exists_next P hpc
        obtain ⟨k, y, hrun, hidle, hworld, htimers⟩ := ih _ (hn ▸ hleft) x' rfl
        refine ⟨k + 1, y, run_cons_some.mpr ⟨x', hnext, hrun⟩, hidle,
          hworld.trans (finished_next hnext), fun hclear => ?_⟩
        obtain ⟨hrunning, horphans, hpc', htimer⟩ := timers_next hnext hclear
        obtain ⟨h1, h2, h3⟩ := htimers hpc'
        exact ⟨h1.trans hrunning, h2.trans horphans, h3.trans htimer⟩

/-- A signal is handled between the two first statements of a callback. -/
def SignalAtClear (x : Overlap) : Move → Prop
  | .signal _ => x.pc = .clear
  | _ => False

/-- A move of the handlers. -/
def Move.Handler : Move → Prop
  | .signal _ => True
  | .predict _ _ _ => True
  | _ => False

/-- In the run of `ms` from `x`, a callback executes `mLastGPSTimer = NULL` after a signal that was
handled since `mLastGPSTimer->restart(0)`. -/
def SignalBeforeClear (P : Platform) (x : Overlap) (ms : List Move) : Prop :=
  ∃ fs t, fs ++ [.next] <+: ms ∧ run (overlapStep P) x fs = some t ∧ t.pc = .clear ∧
    Since (overlapStep P) SignalAtClear Move.Handler x fs

/-- The timer of a callback has been restarted before its second statement exactly if a signal was
handled since the first. -/
lemma restarted_step_iff (P : Platform) (x : Overlap) (m : Move) (x' : Overlap)
    (h : overlapStep P x m = some x') :
    (x'.pc = .clear ∧ x'.running = true) ↔
      SignalAtClear x m ∨ (x.pc = .clear ∧ x.running = true) ∧ m.Handler := by
  cases m with
  | start raw ok1 ok2 =>
      obtain rfl := Option.some_inj.mp h
      simp [SignalAtClear, Move.Handler]
  | signal fix =>
      obtain rfl := Option.some_inj.mp h
      simp only [SignalAtClear, Move.Handler, and_true]
      tauto
  | predict clock lat lon =>
      obtain rfl := Option.some_inj.mp h
      simp [SignalAtClear, Move.Handler]
  | fire orphan ok1 ok2 =>
      obtain ⟨-, rfl⟩ := fire_some h
      simp [SignalAtClear, Move.Handler]
  | next => simp [SignalAtClear, Move.Handler, next_ne_clear h]

/-- No callback finds its timer restarted exactly if there is no signal between its first
statements. -/
lemma along_clearsStopped_iff (P : Platform) {x : Overlap} (hpc : x.pc ≠ .clear) (ms : List Move) :
    Along (overlapStep P) ClearsStopped x ms ↔ ¬ SignalBeforeClear P x ms := by
  have hsince : ∀ {fs t}, run (overlapStep P) x fs = some t →
      ((t.pc = .clear ∧ t.running = true) ↔
        Since (overlapStep P) SignalAtClear Move.Handler x fs) := fun hrun =>
    (since_iff (restarted_step_iff P) hrun).trans (or_iff_left fun h => hpc h.1.1)
  constructor
  · rintro h ⟨fs, t, hfs, ht, hclear, hsignal⟩
    obtain ⟨t', ht', -⟩ := exists_next P (x := t) (by simp [hclear])
    have hstopped : t.running = false := h fs .next t t' hfs ht ht' hclear
    exact absurd ((hsince ht).mpr hsignal).2 (by simp [hstopped])
  · intro h fs m t t' hfs ht ht'
    cases m with
    | next =>
        intro hclear
        by_contra hrunning
        exact h ⟨fs, t, hfs, ht, hclear, (hsince ht).mp ⟨hclear, by simpa using hrunning⟩⟩
    | _ => trivial

/-- A signal right between the two first statements leaves a timer that fires at null. -/
lemma nullFire_of_signal (P : Platform) {x : Overlap} (hpc : x.pc = .clear) (fix : Fix) :
    ∃ k y, run (overlapStep P) x (.signal fix :: List.replicate k .next) = some y ∧
      y.NullFire := by
  set x₁ : Overlap :=
    { x with world := onGPSDataNDRServiceIPCSignal fix x.world, running := true } with hx₁
  set x₂ : Overlap := { x₁ with
    world := { x₁.world with mLastGPSTimer := false }
    pc := .copy
    running := false
    orphans := x.orphans + 1 } with hx₂
  have hnext : overlapStep P x₁ .next = some x₂ := by
    simp [overlapStep, nextStatement, hx₁, hx₂, hpc]
  obtain ⟨k, y, hrun, hidle, -, htimers⟩ := run_finish P x₂
  obtain ⟨-, horphans, htimer⟩ := htimers (by simp [hx₂])
  refine ⟨k + 1, y, run_cons_some.mpr ⟨x₁, rfl, run_cons_some.mpr ⟨x₂, hnext, hrun⟩⟩, hidle,
    ⟨true, decide_eq_true ?_⟩, htimer⟩
  rw [horphans]
  exact Nat.succ_pos _

/-- **No timer loses its pointer** exactly if no callback executes its second statement after a
signal that was handled since the first.  Then no callback finds a null pointer; after a signal in
between the next timer to fire does, if nothing else happens before. -/
theorem owned_always_iff (P : Platform) {x : Overlap} (hx : x.Owned) (hpc : x.pc ≠ .clear)
    (ms : List Move) :
    (Always (overlapStep P) Overlap.Owned x ms ↔ ¬ SignalBeforeClear P x ms) ∧
      (¬ SignalBeforeClear P x ms → Always (overlapStep P) (fun y => ¬ y.NullFire) x ms) ∧
      ∀ (y : Overlap) (fix : Fix), y.pc = .clear → ∃ k z,
        run (overlapStep P) y (.signal fix :: List.replicate k .next) = some z ∧ z.NullFire := by
  have hiff : Always (overlapStep P) Overlap.Owned x ms ↔ ¬ SignalBeforeClear P x ms :=
    (always_iff_along (owned_step_iff P) hx ms).trans (along_clearsStopped_iff P hpc ms)
  exact ⟨hiff, fun h fs t hfs ht => (hiff.mpr h fs t hfs ht).not_nullFire,
    fun y fix hclear => nullFire_of_signal P hclear fix⟩

/-- A process without a trip, over no files. -/
def beginning : Overlap := ⟨firstWorld blankInstance false none, .idle, (true, true), false, 0⟩

lemma owned_beginning : beginning.Owned := ⟨rfl, by simp [beginning]⟩

/-- A signal right after the timer of the last one has been stopped; the next statement drops the
pointer to the restarted timer. -/
theorem owned_always_iff_stopped_timer :
    ¬ Always (overlapStep .keyed) Overlap.Owned beginning
      [.signal ⟨.morning, ⟨1, 1⟩⟩, .fire false true true, .signal ⟨.morning, ⟨1, 1⟩⟩, .next] := by
  intro h
  refine (owned_always_iff .keyed owned_beginning (by simp [beginning]) _).1.mp h ?_
  exact ⟨[.signal ⟨.morning, ⟨1, 1⟩⟩, .fire false true true, .signal ⟨.morning, ⟨1, 1⟩⟩], _,
    List.prefix_rfl, rfl, rfl, [.signal ⟨.morning, ⟨1, 1⟩⟩, .fire false true true], _, [], _, rfl,
    rfl, rfl, by simp⟩

/-! ### Timers without a trip -/

/-- Every timer that is going to fire belongs to an open trip. -/
def Overlap.Guarded (x : Overlap) : Prop :=
  (∃ orphan, x.canFire orphan = true) → x.world.mGetFirstGPSSig ≠ 0

lemma exists_canFire_iff {x : Overlap} :
    (∃ orphan, x.canFire orphan = true) ↔ x.running = true ∨ 0 < x.orphans := by
  rw [Bool.exists_bool]
  simp [Overlap.canFire]

/-- `mGetFirstGPSSig = 0` does not find a timer that is going to fire. -/
def ClosesStopped (x : Overlap) : Move → Prop
  | .next => x.pc = .reset → ¬ ∃ orphan, x.canFire orphan = true
  | _ => True

section Guarded

variable {P : Platform} {x x' : Overlap}

/-- Only the last statement closes the trip. -/
lemma flag_next (h : nextStatement P x = some x') :
    (x.pc ≠ .reset ∧ x'.world.mGetFirstGPSSig = x.world.mGetFirstGPSSig) ∨
      x.pc = .reset ∧ x'.pc = .idle ∧ x'.world.mGetFirstGPSSig = 0 := by
  obtain ⟨w, pc, oks, running, orphans⟩ := x
  cases pc with
  | idle => exact absurd h (by simp [nextStatement])
  | append size cur i =>
      obtain rfl := Option.some_inj.mp h
      exact Or.inl ⟨by simp, appendPlace_mGetFirstGPSSig size cur i w⟩
  | save =>
      obtain rfl := Option.some_inj.mp h
      exact Or.inl ⟨by simp, saveDriverBehavior_mGetFirstGPSSig oks.1 oks.2 w⟩
  | reset =>
      obtain rfl := Option.some_inj.mp h
      exact Or.inr ⟨rfl, rfl, rfl⟩
  | _ =>
      obtain rfl := Option.some_inj.mp h
      exact Or.inl ⟨by simp, rfl⟩

/-- No statement of a callback makes a timer that fires. -/
lemma canFire_next (h : nextStatement P x = some x') :
    (∃ orphan, x'.canFire orphan = true) ↔ ∃ orphan, x.canFire orphan = true := by
  rw [exists_canFire_iff, exists_canFire_iff]
  by_cases hpc : x.pc = .clear
  · obtain rfl := next_clear hpc h
    cases hrunning : x.running <;> simp
  · obtain ⟨hrunning, horphans, -, -⟩ := timers_next h hpc
    rw [hrunning, horphans]

lemma guarded_step_iff (P : Platform) (x : Overlap) (m : Move) (x' : Overlap) (hx : x.Guarded)
    (h : overlapStep P x m = some x') : x'.Guarded ↔ ClosesStopped x m := by
  cases m with
  | start raw ok1 ok2 =>
      obtain rfl := Option.some_inj.mp h
      exact iff_of_true (fun hfire => absurd (exists_canFire_iff.mp hfire) (by simp)) trivial
  | signal fix =>
      obtain rfl := Option.some_inj.mp h
      refine iff_of_true (fun _ => ?_) trivial
      rcases eq_or_ne x.world.mGetFirstGPSSig 0 with hflag | hflag
      · simp [signal_first fix hflag]
      · rwa [signal_next fix hflag]
  | predict clock lat lon =>
      obtain rfl := Option.some_inj.mp h
      exact iff_of_true hx trivial
  | fire orphan ok1 ok2 =>
      obtain ⟨-, rfl⟩ := fire_some h
      refine iff_of_true (fun hfire => hx ?_) trivial
      rw [exists_canFire_iff] at hfire ⊢
      exact .inr (hfire.resolve_left Bool.false_ne_true)
  | next =>
      rw [Overlap.Guarded, canFire_next h]
      rcases flag_next h with ⟨hpc, hflag⟩ | ⟨hpc, -, hflag⟩
      · rw [hflag]
        exact iff_of_true hx fun hreset => absurd hreset hpc
      · rw [hflag, ClosesStopped, imp_iff_right hpc]
        exact imp_congr_right fun _ => by simp

end Guarded

/-- A signal is handled elsewhere than between the two first statements of a callback. -/
def SignalOffClear (x : Overlap) : Move → Prop
  | .signal _ => x.pc ≠ .clear
  | _ => False

/-- No process begins. -/
def Move.InProcess : Move → Prop
  | .start _ _ _ => False
  | _ => True

/-- No process begins and no timer fires. -/
def Move.InCallback : Move → Prop
  | .start _ _ _ => False
  | .fire _ _ _ => False
  | _ => True

/-- In the run of `ms` from `x`, a callback executes `mGetFirstGPSSig = 0` after a signal that was
handled in it, or between the two first statements of an earlier callback of the process. -/
def SignalBeforeReset (P : Platform) (x : Overlap) (ms : List Move) : Prop :=
  ∃ fs t, fs ++ [.next] <+: ms ∧ run (overlapStep P) x fs = some t ∧ t.pc = .reset ∧
    (Since (overlapStep P) SignalOffClear Move.InCallback x fs ∨
      Since (overlapStep P) SignalAtClear Move.InProcess x fs)

section SignalBeforeReset

variable (P : Platform) (x : Overlap) (m : Move) (x' : Overlap)

/-- The timer of the pointer runs since a signal, if the callback does not stop it. -/
lemma running_step_iff (h : overlapStep P x m = some x') :
    (x'.running = true ∧ x'.pc ≠ .clear) ↔
      SignalOffClear x m ∨ (x.running = true ∧ x.pc ≠ .clear) ∧ m.InCallback := by
  cases m with
  | start raw ok1 ok2 =>
      obtain rfl := Option.some_inj.mp h
      simp [SignalOffClear, Move.InCallback]
  | signal fix =>
      obtain rfl := Option.some_inj.mp h
      simp only [SignalOffClear, Move.InCallback, and_true, true_and]
      tauto
  | predict clock lat lon =>
      obtain rfl := Option.some_inj.mp h
      simp [SignalOffClear, Move.InCallback]
  | fire orphan ok1 ok2 =>
      obtain ⟨-, rfl⟩ := fire_some h
      simp [SignalOffClear, Move.InCallback]
  | next =>
      simp only [SignalOffClear, Move.InCallback, and_true, false_or]
      by_cases hpc : x.pc = .clear
      · obtain rfl := next_clear hpc h
        simp [hpc]
      · obtain ⟨hrunning, -, hpc', -⟩ := timers_next h hpc
        simp [hrunning, hpc, hpc']

/-- A timer without a pointer stays until the process ends. -/
lemma orphans_step_iff (h : overlapStep P x m = some x') :
    (0 < x'.orphans ∨ x'.pc = .clear ∧ x'.running = true) ↔
      SignalAtClear x m ∨
        (0 < x.orphans ∨ x.pc = .clear ∧ x.running = true) ∧ m.InProcess := by
  cases m with
  | start raw ok1 ok2 =>
      obtain rfl := Option.some_inj.mp h
      simp [SignalAtClear, Move.InProcess]
  | signal fix =>
      obtain rfl := Option.some_inj.mp h
      simp only [SignalAtClear, Move.InProcess, and_true]
      tauto
  | predict clock lat lon =>
      obtain rfl := Option.some_inj.mp h
      simp [SignalAtClear, Move.InProcess]
  | fire orphan ok1 ok2 =>
      obtain ⟨⟨hidle, -⟩, rfl⟩ := fire_some h
      simp [SignalAtClear, Move.InProcess, hidle]
  | next =>
      simp only [SignalAtClear, Move.InProcess, and_true, false_or]
      by_cases hpc : x.pc = .clear
      · obtain rfl := next_clear hpc h
        cases hrunning : x.running <;> simp [hpc]
      · obtain ⟨hrunning, horphans, hpc', -⟩ := timers_next h hpc
        simp [horphans, hpc, hpc']

end SignalBeforeReset

/-- No callback begins as long as no timer fires. -/
lemma idle_run (P : Platform) {x t : Overlap} (hpc : x.pc = .idle) {ms : List Move}
    (hms : ∀ m ∈ ms, m.InCallback) (hrun : run (overlapStep P) x ms = some t) : t.pc = .idle := by
  refine run_inv (P := fun u : Overlap => u.pc = .idle) (Q := Move.InCallback)
    (fun u m u' hm hu h => ?_) hms hpc hrun
  cases m with
  | start raw ok1 ok2 => exact hm.elim
  | fire orphan ok1 ok2 => exact hm.elim
  | signal fix =>
      obtain rfl := Option.some_inj.mp h
      exact hu
  | predict clock lat lon =>
      obtain rfl := Option.some_inj.mp h
      exact hu
  | next => exact absurd h (by simp [overlapStep, nextStatement, hu])

/-- When a trip is closed, a timer is going to fire exactly if there was such a signal. -/
lemma canFire_reset_iff (P : Platform) {x t : Overlap} (hidle : x.pc = .idle)
    (horphans : x.orphans = 0) {fs : List Move} (hrun : run (overlapStep P) x fs = some t)
    (hreset : t.pc = .reset) :
    (∃ orphan, t.canFire orphan = true) ↔
      Since (overlapStep P) SignalOffClear Move.InCallback x fs ∨
        Since (overlapStep P) SignalAtClear Move.InProcess x fs := by
  have hrunning := (since_iff (running_step_iff P) hrun).trans
    (or_iff_left fun h => by simpa [hreset] using idle_run P hidle h.2 hrun)
  have horphan := (since_iff (orphans_step_iff P) hrun).trans
    (or_iff_left fun h => by simpa [hidle, horphans] using h.1)
  rw [exists_canFire_iff, ← hrunning, ← horphan]
  simp [hreset]

/-- **No timer runs without an open trip** exactly if no callback executes `mGetFirstGPSSig = 0`
after a signal that was handled in it, or between the two first statements of an earlier callback
of the process. -/
theorem guarded_always_iff (P : Platform) {x : Overlap} (hx : x.Guarded) (hidle : x.pc = .idle)
    (horphans : x.orphans = 0) (ms : List Move) :
    Always (overlapStep P) Overlap.Guarded x ms ↔ ¬ SignalBeforeReset P x ms := by
  rw [always_iff_along (guarded_step_iff P) hx ms]
  constructor
  · rintro h ⟨fs, t, hfs, ht, hreset, hsignal⟩
    obtain ⟨t', ht', -⟩ := exists_next P (x := t) (by simp [hreset])
    exact h fs .next t t' hfs ht ht' hreset
      ((canFire_reset_iff P hidle horphans ht hreset).mpr hsignal)
  · intro h fs m t t' hfs ht ht'
    cases m with
    | next =>
        intro hreset hfire
        exact h ⟨fs, t, hfs, ht, hreset, (canFire_reset_iff P hidle horphans ht hreset).mp hfire⟩
    | _ => trivial

/-- A signal at home right after the timer of the last one has been stopped, in a callback that
keeps the trip open. -/
def stoppedAtHome : List Move :=
  [.signal ⟨.morning, ⟨1, 1⟩⟩, .fire false true true, .signal ⟨.morning, ⟨1, 1⟩⟩] ++
    List.replicate 9 .next

/-- A drive to a second place and the callback that is going to save it. -/
def savingDrive : List Move :=
  [.signal ⟨.morning, ⟨1, 1⟩⟩, .signal ⟨.morning, ⟨2, 2⟩⟩, .fire false true true] ++
    List.replicate 9 .next

/-- A signal at the first statements of a callback that does not save, and one in a callback that
does. -/
theorem guarded_always_iff_drives :
    Always (overlapStep .keyed) Overlap.Guarded beginning stoppedAtHome ∧
      ¬ Always (overlapStep .keyed) Overlap.Guarded beginning
        (savingDrive ++ [.signal ⟨.morning, ⟨2, 2⟩⟩, .next, .next]) := by
  have hguarded : beginning.Guarded := fun hfire =>
    absurd (exists_canFire_iff.mp hfire) (by simp [beginning])
  constructor
  · refine (guarded_always_iff .keyed hguarded rfl rfl _).mpr ?_
    rintro ⟨fs, t, hfs, ht, hreset, -⟩
    have hall : ∀ gs ∈ stoppedAtHome.inits,
        (run (overlapStep .keyed) beginning gs).map (·.pc) ≠ some .reset := by decide +kernel
    refine hall fs (List.mem_inits fs _ |>.mpr ((List.prefix_append _ _).trans hfs)) ?_
    rw [ht, Option.map_some, hreset]
  · intro h
    refine (guarded_always_iff .keyed hguarded rfl rfl _).mp h ?_
    obtain ⟨u, hu, hsave⟩ :
        ∃ u, run (overlapStep .keyed) beginning savingDrive = some u ∧ u.pc = .save := by
      have hpc : (run (overlapStep .keyed) beginning savingDrive).map (·.pc) = some .save := by
        decide +kernel
      exact Option.map_eq_some_iff.mp hpc
    set v : Overlap := { u with
      world := onGPSDataNDRServiceIPCSignal ⟨.morning, ⟨2, 2⟩⟩ u.world, running := true } with hv
    obtain ⟨t, hnext, -⟩ := exists_next .keyed (x := v) (by simp [hv, hsave])
    have hreset : t.pc = .reset := by
      simp only [nextStatement, hv, hsave, Option.some_inj] at hnext
      rw [← hnext]
    refine ⟨savingDrive ++ [.signal ⟨.morning, ⟨2, 2⟩⟩, .next], t, by simp, ?_, hreset, .inl ?_⟩
    · rw [run_append, hu]
      exact run_cons_some.mpr ⟨v, rfl, run_cons_some.mpr ⟨t, hnext, rfl⟩⟩
    · exact ⟨savingDrive, _, [.next], u, rfl, hu, by simp [SignalOffClear, hsave],
        by simp [Move.InCallback]⟩

end Gauge
