import Gauge.Recorder.Overlap

/-!
When an interleaved run is one of `step`, in which a callback is a single step.

Signals and requests that are handled at the right moments of a callback commute with what is left
of it, so that the callback may be taken to be over at once.

* `overlap_linearizes`: runs whose signals and requests are handled at such moments.
* `overlap_covers`: every run of `step` is an interleaved one.
-/

namespace Gauge

open Machine

/-! ### Timers and trips -/

/-- The first statements of a callback have read the number of positions. -/
def Pc.bound : Pc → ℕ
  | .codeS size => size
  | .locate size => size
  | .search size _ => size
  | _ => 0

/-- The callback has read the place and is going to save. -/
def Overlap.WillSave (x : Overlap) : Prop :=
  match x.pc with
  | .search size cur => x.world.mLastGPS.codeS ≠ Int16.ofNat (searchFirst size cur x.world)
  | .append _ _ i => x.world.mLastGPS.codeS ≠ Int16.ofNat i
  | .codeD i => x.world.mLastGPS.codeS ≠ Int16.ofNat i
  | .compare => x.world.mLastGPS.codeS ≠ x.world.mLastGPS.codeD
  | .save => True
  | .reset => True
  | _ => False

/-- No timer runs, and none is about to be left running, without an open trip. -/
structure Overlap.TripBound (x : Overlap) : Prop where
  owned : x.Owned
  stopped : x.pc = .clear → x.running = false
  bound_le : x.pc.bound ≤ x.world.mGpsPosVec.length
  opened : x.world.mGetFirstGPSSig = 0 → x.pc = .idle ∧ x.world.mLastGPSTimer = false
  saving : x.WillSave → x.world.mLastGPSTimer = false

/-- No signal is handled right after `mLastGPSTimer->restart(0)`, or after `mLastGPSTimer = NULL`
in a callback that saves. -/
def OutsideSave (x : Overlap) : Move → Prop
  | .signal _ => x.pc ≠ .clear ∧ ¬ x.WillSave
  | .next => ∀ size, x.pc = .locate size →
      Overlap.WillSave { x with pc := .search size x.world.curPos } →
        x.world.mLastGPSTimer = false
  | _ => True

section TripBound

variable {P : Platform} {x x' : Overlap}

/-- Once the place has been read, statements do not change whether the callback saves. -/
lemma willSave_next (h : nextStatement P x = some x') (hx' : x'.WillSave) :
    x.WillSave ∨ ∃ size, x.pc = .locate size ∧
      x' = { x with pc := .search size x.world.curPos } := by
  obtain ⟨w, pc, oks, running, orphans⟩ := x
  cases pc with
  | idle => exact absurd h (by simp [nextStatement])
  | locate size =>
      obtain rfl := Option.some_inj.mp h
      exact Or.inr ⟨size, rfl, rfl⟩
  | append size cur i =>
      obtain rfl := Option.some_inj.mp h
      left
      simpa [Overlap.WillSave] using hx'
  | compare =>
      obtain rfl := Option.some_inj.mp h
      left
      by_cases hcode : w.mLastGPS.codeS = w.mLastGPS.codeD
      · simp [Overlap.WillSave, hcode] at hx'
      · exact hcode
  | reset => exact Or.inl trivial
  | _ =>
      obtain rfl := Option.some_inj.mp h
      exact Or.inl hx'

/-- A signal during a trip does not change it either. -/
lemma willSave_signal (fix : Fix) (hflag : x.world.mGetFirstGPSSig ≠ 0) (running : Bool) :
    Overlap.WillSave { x with
      world := onGPSDataNDRServiceIPCSignal fix x.world, running := running } ↔ x.WillSave := by
  rw [signal_next fix hflag]
  obtain ⟨w, pc, oks, _, orphans⟩ := x
  cases pc <;> exact Iff.rfl

/-- Nor does a request. -/
lemma willSave_predict (clock : Clock) (lat lon : Option ℚ)
    (hx : x.pc.bound ≤ x.world.mGpsPosVec.length) :
    Overlap.WillSave { x with world := predictDestinationAtStart P clock lat lon x.world } ↔
      x.WillSave := by
  obtain ⟨w, pc, oks, running, orphans⟩ := x
  cases pc with
  | search size cur =>
      set start : LatLon := ⟨lat.getD w.mStartLat, lon.getD w.mStartLon⟩
      -- the positions that the loop goes through stay where they are
      obtain ⟨news, hnews⟩ := prefix_searchOrAppend w.mGpsPosVec start
      have htake : (searchOrAppend w.mGpsPosVec start).take size = w.mGpsPosVec.take size := by
        have hle : size ≤ w.mGpsPosVec.length := hx
        rw [← hnews, List.take_append_of_le_length hle]
      show w.mLastGPS.codeS ≠
          Int16.ofNat (searchPos ((searchOrAppend w.mGpsPosVec start).take size) cur) ↔ _
      rw [htake]
      exact Iff.rfl
  | _ => exact Iff.rfl

/-- The number of positions that the callback has read stays below the number there is. -/
lemma bound_next (h : nextStatement P x = some x')
    (hx : x.pc.bound ≤ x.world.mGpsPosVec.length) :
    x'.pc.bound ≤ x'.world.mGpsPosVec.length := by
  obtain ⟨w, pc, oks, running, orphans⟩ := x
  cases pc with
  | idle => exact absurd h (by simp [nextStatement])
  | count =>
      obtain rfl := Option.some_inj.mp h
      exact le_rfl
  | codeS size =>
      obtain rfl := Option.some_inj.mp h
      exact hx
  | locate size =>
      obtain rfl := Option.some_inj.mp h
      exact hx
  | compare =>
      obtain rfl := Option.some_inj.mp h
      dsimp only
      split <;> exact Nat.zero_le _
  | _ =>
      obtain rfl := Option.some_inj.mp h
      exact Nat.zero_le _

/-- A callback that is going to save is not idle. -/
lemma Overlap.WillSave.ne_idle (h : x.WillSave) : x.pc ≠ .idle := fun hpc => by
  simp [Overlap.WillSave, hpc] at h

lemma Overlap.TripBound.open_of_ne_idle (hx : x.TripBound) (hpc : x.pc ≠ .idle) :
    x.world.mGetFirstGPSSig ≠ 0 := fun h => hpc (hx.opened h).1

lemma tripBound_next (hx : x.TripBound) (h : nextStatement P x = some x')
    (hC : OutsideSave x .next) : x'.TripBound := by
  have hidle : x.pc ≠ .idle := fun hpc => absurd h (by simp [nextStatement, hpc])
  have howned : x'.Owned := (owned_step_iff P x .next x' hx.owned h).mpr hx.stopped
  refine ⟨howned, fun hclear => absurd hclear (next_ne_clear h), bound_next h hx.bound_le,
    fun hflag => ?_, fun hsave => ?_⟩
  · rcases flag_next h with ⟨-, heq⟩ | ⟨hreset, hidle', -⟩
    · exact absurd (hx.opened (heq ▸ hflag)).1 hidle
    · refine ⟨hidle', ?_⟩
      rw [(timers_next h (by simp [hreset])).2.2.2]
      exact hx.saving (by simp [Overlap.WillSave, hreset])
  · rcases willSave_next h hsave with hsave | ⟨size, hpc, rfl⟩
    · have hclear : x.pc ≠ .clear := fun hpc => by simp [Overlap.WillSave, hpc] at hsave
      rw [(timers_next h hclear).2.2.2]
      exact hx.saving hsave
    · exact hC size hpc hsave

lemma tripBound_signal (hx : x.TripBound) {fix : Fix} (hC : OutsideSave x (.signal fix)) :
    Overlap.TripBound { x with
      world := onGPSDataNDRServiceIPCSignal fix x.world, running := true } := by
  obtain ⟨hclear, hsave⟩ := hC
  have howned : Overlap.Owned { x with
      world := onGPSDataNDRServiceIPCSignal fix x.world, running := true } :=
    ⟨hx.owned.orphans, fun _ => rfl⟩
  rcases eq_or_ne x.world.mGetFirstGPSSig 0 with hflag | hflag
  · have hidle := (hx.opened hflag).1
    refine ⟨howned, fun h => absurd h hclear, by simp [hidle, Pc.bound], fun h => ?_,
      fun h => absurd hidle h.ne_idle⟩
    simp [signal_first fix hflag] at h
  · refine ⟨howned, fun h => absurd h hclear, ?_, fun h => ?_, fun h => ?_⟩
    · rw [signal_next fix hflag]
      exact hx.bound_le
    · rw [signal_next fix hflag] at h
      exact absurd h hflag
    · exact absurd ((willSave_signal fix hflag true).mp h) hsave

/-- A move outside of the rest of a callback that saves keeps the timers bound to their trips. -/
lemma tripBound_step {m : Move} (hx : x.TripBound) (hC : OutsideSave x m)
    (h : overlapStep P x m = some x') : x'.TripBound := by
  cases m with
  | start raw ok1 ok2 =>
      obtain rfl := Option.some_inj.mp h
      obtain ⟨-, -, -, htimer⟩ := loadDriverBehavior_frame P (x.world.construct raw) ok1 ok2
      exact ⟨⟨rfl, by simp⟩, fun _ => rfl, Nat.zero_le _, fun _ => ⟨rfl, htimer⟩, False.elim⟩
  | signal fix =>
      obtain rfl := Option.some_inj.mp h
      exact tripBound_signal hx hC
  | predict clock lat lon =>
      obtain rfl := Option.some_inj.mp h
      refine ⟨⟨hx.owned.orphans, hx.owned.running⟩, hx.stopped, ?_, hx.opened,
        fun hsave => hx.saving ((willSave_predict clock lat lon hx.bound_le).mp hsave)⟩
      exact hx.bound_le.trans (prefix_searchOrAppend _ _).length_le
  | fire orphan ok1 ok2 =>
      obtain ⟨⟨-, -, htimer⟩, rfl⟩ := fire_some h
      exact ⟨⟨hx.owned.orphans, by simp⟩, fun _ => rfl, Nat.zero_le _,
        fun hflag => absurd htimer (by simp [(hx.opened hflag).2]), False.elim⟩
  | next => exact tripBound_next hx h hC

end TripBound

lemma tripBound_beginning : beginning.TripBound :=
  ⟨owned_beginning, fun _ => rfl, Nat.zero_le _, fun _ => ⟨rfl, rfl⟩, False.elim⟩

/-! ### Linearization -/

/-- What a move is for the recorder of `step`. -/
def Move.event : Move → Option Event
  | .start raw ok1 ok2 => some (.start raw ok1 ok2)
  | .signal fix => some (.signal fix)
  | .predict clock lat lon => some (.predict clock lat lon)
  | .fire _ ok1 ok2 => some (.callback ok1 ok2)
  | .next => none

/-- The callback has not read the place. -/
def Pc.Early : Pc → Prop
  | .copy => True
  | .count => True
  | .codeS _ => True
  | .locate _ => True
  | _ => False

/-- The callback has read the place and not compared the codes. -/
def Pc.Located : Pc → Prop
  | .search _ _ => True
  | .append _ _ _ => True
  | .codeD _ => True
  | .compare => True
  | _ => False

/-- In addition the place is registered. -/
def Pc.Placed : Pc → Prop
  | .codeD _ => True
  | .compare => True
  | _ => False

/-- Signals are handled between callbacks, or once a callback has read the place and will not
save; requests once the place is registered too.  No process ends within a callback. -/
def Quiet (x : Overlap) : Move → Prop
  | .start _ _ _ => x.pc = .idle
  | .signal _ => x.pc = .idle ∨ x.pc.Located ∧ ¬ x.WillSave
  | .predict _ _ _ => x.pc = .idle ∨ x.pc = .reset ∨ x.pc.Placed ∧ ¬ x.WillSave
  | _ => True

/-- The states of quiet runs. -/
structure Overlap.Calm (x : Overlap) : Prop where
  tripBound : x.TripBound
  early : x.pc.Early → x.world.mLastGPSTimer = false

section Linearization

variable {P : Platform} {x x' : Overlap}

lemma Quiet.outsideSave {m : Move} (hx : x.Calm) (h : Quiet x m) : OutsideSave x m := by
  cases m with
  | signal fix =>
      rcases h with hidle | ⟨hlocated, hsave⟩
      · exact ⟨by simp [hidle], fun hsave => hsave.ne_idle hidle⟩
      · exact ⟨fun hclear => by simp [hclear, Pc.Located] at hlocated, hsave⟩
  | next => exact fun size hpc _ => hx.early (by simp [hpc, Pc.Early])
  | _ => trivial

/-- The callback reads the place without a new timer. -/
lemma early_next (h : nextStatement P x = some x') (hx : x.Calm) (hx' : x'.pc.Early) :
    x'.world.mLastGPSTimer = false := by
  obtain ⟨w, pc, oks, running, orphans⟩ := x
  cases pc with
  | idle => exact absurd h (by simp [nextStatement])
  | compare =>
      obtain rfl := Option.some_inj.mp h
      dsimp only at hx'
      split at hx' <;> exact hx'.elim
  | clear =>
      obtain rfl := Option.some_inj.mp h
      rfl
  | copy =>
      obtain rfl := Option.some_inj.mp h
      exact hx.early trivial
  | count =>
      obtain rfl := Option.some_inj.mp h
      exact hx.early trivial
  | codeS size =>
      obtain rfl := Option.some_inj.mp h
      exact hx.early trivial
  | _ =>
      obtain rfl := Option.some_inj.mp h
      exact hx'.elim

/-- A quiet move leads from a calm state to a calm state. -/
lemma calm_step {m : Move} (hx : x.Calm) (hm : Quiet x m) (h : overlapStep P x m = some x') :
    x'.Calm := by
  refine ⟨tripBound_step hx.tripBound (hm.outsideSave hx) h, fun hearly => ?_⟩
  cases m with
  | start raw ok1 ok2 =>
      obtain rfl := Option.some_inj.mp h
      exact hearly.elim
  | signal fix =>
      obtain rfl := Option.some_inj.mp h
      have hpc : x.pc.Early := hearly
      rcases hm with hidle | ⟨hlocated, -⟩
      · exact absurd hpc (by simp [hidle, Pc.Early])
      · cases hx : x.pc <;> simp_all [Pc.Early, Pc.Located]
  | predict clock lat lon =>
      obtain rfl := Option.some_inj.mp h
      exact hx.early hearly
  | fire orphan ok1 ok2 =>
      obtain ⟨-, rfl⟩ := fire_some h
      exact hearly.elim
  | next => exact early_next h hx hearly

/-- A callback that does not save ends with the code of the place. -/
lemma endTrip_takeCodeD {oks : Bool × Bool} {i : ℕ} {w : World}
    (h : w.mLastGPS.codeS = Int16.ofNat i) :
    endTrip P oks (takeCodeD i w) = takeCodeD i w := if_pos h

lemma signal_takeCodeD (fix : Fix) (i : ℕ) {w : World} (hflag : w.mGetFirstGPSSig ≠ 0) :
    onGPSDataNDRServiceIPCSignal fix (takeCodeD i w) =
      takeCodeD i (onGPSDataNDRServiceIPCSignal fix w) := by
  rw [signal_next fix hflag, signal_next fix (w := takeCodeD i w) hflag]
  rfl

lemma signal_appendPlace (fix : Fix) (size : ℕ) (cur : LatLon) (i : ℕ) {w : World}
    (hflag : w.mGetFirstGPSSig ≠ 0) :
    onGPSDataNDRServiceIPCSignal fix (appendPlace size cur i w) =
      appendPlace size cur i (onGPSDataNDRServiceIPCSignal fix w) := by
  rw [appendPlace, appendPlace]
  split
  · rw [signal_next fix hflag]
    exact signal_next fix hflag
  · rfl

/-- **A signal commutes with the rest of a callback** that has read the place and will not
save. -/
lemma finished_signal (fix : Fix) (hflag : x.world.mGetFirstGPSSig ≠ 0)
    (hlocated : x.pc.Located) (hsave : ¬ x.WillSave) (running : Bool) :
    Overlap.finished P { x with
        world := onGPSDataNDRServiceIPCSignal fix x.world, running := running } =
      onGPSDataNDRServiceIPCSignal fix (x.finished P) := by
  obtain ⟨w, pc, oks, _, orphans⟩ := x
  have hlast : (onGPSDataNDRServiceIPCSignal fix w).mLastGPS = w.mLastGPS := by
    rw [signal_next fix hflag]
  have hvec : (onGPSDataNDRServiceIPCSignal fix w).mGpsPosVec = w.mGpsPosVec := by
    rw [signal_next fix hflag]
  -- the end of the callback, from the index `i` of the place
  have hend : ∀ (size : ℕ) (cur : LatLon) (i : ℕ), w.mLastGPS.codeS = Int16.ofNat i →
      endTrip P oks (takeCodeD i (appendPlace size cur i (onGPSDataNDRServiceIPCSignal fix w))) =
        onGPSDataNDRServiceIPCSignal fix
          (endTrip P oks (takeCodeD i (appendPlace size cur i w))) := by
    intro size cur i hi
    rw [endTrip_takeCodeD (by rw [appendPlace_mLastGPS, hlast, hi]),
      endTrip_takeCodeD (by rw [appendPlace_mLastGPS, hi]),
      signal_takeCodeD fix i (by rwa [appendPlace_mGetFirstGPSSig]),
      signal_appendPlace fix size cur i hflag]
  cases pc with
  | search size cur =>
      have hi : searchFirst size cur (onGPSDataNDRServiceIPCSignal fix w) =
          searchFirst size cur w := by rw [searchFirst, searchFirst, hvec]
      show endSearch P oks size cur _ = onGPSDataNDRServiceIPCSignal fix (endSearch P oks size cur w)
      rw [endSearch, endSearch, hi]
      exact hend size cur _ (not_not.mp hsave)
  | append size cur i => exact hend size cur i (not_not.mp hsave)
  | codeD i =>
      have hi : w.mLastGPS.codeS = Int16.ofNat i := not_not.mp hsave
      show endTrip P oks (takeCodeD i _) = onGPSDataNDRServiceIPCSignal fix
        (endTrip P oks (takeCodeD i w))
      rw [endTrip_takeCodeD (by rw [hlast, hi]), endTrip_takeCodeD hi, signal_takeCodeD fix i hflag]
  | compare =>
      have hi : w.mLastGPS.codeS = w.mLastGPS.codeD := not_not.mp hsave
      show endTrip P oks _ = onGPSDataNDRServiceIPCSignal fix (endTrip P oks w)
      rw [endTrip, endTrip, hlast, if_pos hi, if_pos hi]
  | _ => exact hlocated.elim

/-- So does a request, if the place is registered too. -/
lemma finished_predict (clock : Clock) (lat lon : Option ℚ)
    (hquiet : x.pc = .reset ∨ x.pc.Placed ∧ ¬ x.WillSave) :
    Overlap.finished P { x with world := predictDestinationAtStart P clock lat lon x.world } =
      predictDestinationAtStart P clock lat lon (x.finished P) := by
  obtain ⟨w, pc, oks, running, orphans⟩ := x
  rcases hquiet with hpc | ⟨hplaced, hsave⟩
  · obtain rfl : pc = .reset := hpc
    rfl
  · cases pc with
    | codeD i =>
        have hi : w.mLastGPS.codeS = Int16.ofNat i := not_not.mp hsave
        have hi' : (predictDestinationAtStart P clock lat lon w).mLastGPS.codeS =
            Int16.ofNat i := hi
        show endTrip P oks (takeCodeD i (predictDestinationAtStart P clock lat lon w)) =
          predictDestinationAtStart P clock lat lon (endTrip P oks (takeCodeD i w))
        rw [endTrip_takeCodeD hi, endTrip_takeCodeD hi']
        rfl
    | compare =>
        have hi : w.mLastGPS.codeS = w.mLastGPS.codeD := not_not.mp hsave
        have hi' : (predictDestinationAtStart P clock lat lon w).mLastGPS.codeS =
            (predictDestinationAtStart P clock lat lon w).mLastGPS.codeD := hi
        show endTrip P oks _ = predictDestinationAtStart P clock lat lon (endTrip P oks w)
        rw [endTrip, endTrip, if_pos hi, if_pos hi']
    | _ => exact hplaced.elim

/-- A quiet move is a step of the recorder, or none, if the callback is taken to be over. -/
lemma finished_step {m : Move} (hx : x.Calm) (hm : Quiet x m)
    (h : overlapStep P x m = some x') :
    run (step P) (x.finished P) m.event.toList = some (x'.finished P) := by
  have hworld : x.pc = .idle → x.finished P = x.world := fun hidle => by
    rw [Overlap.finished, hidle]
    rfl
  cases m with
  | start raw ok1 ok2 =>
      obtain rfl := Option.some_inj.mp h
      rw [hworld hm]
      rfl
  | signal fix =>
      obtain rfl := Option.some_inj.mp h
      show some (onGPSDataNDRServiceIPCSignal fix (x.finished P)) = _
      rcases hm with hidle | ⟨hlocated, hsave⟩
      · rw [hworld hidle, Overlap.finished, hidle]
        rfl
      · have hidle : x.pc ≠ .idle := fun hpc => by simp [hpc, Pc.Located] at hlocated
        rw [finished_signal fix (hx.tripBound.open_of_ne_idle hidle) hlocated hsave]
  | predict clock lat lon =>
      obtain rfl := Option.some_inj.mp h
      show some (predictDestinationAtStart P clock lat lon (x.finished P)) = _
      rcases hm with hidle | hquiet
      · rw [hworld hidle, Overlap.finished, hidle]
        rfl
      · rw [finished_predict clock lat lon hquiet]
  | fire orphan ok1 ok2 =>
      obtain ⟨⟨hidle, -, htimer⟩, rfl⟩ := fire_some h
      rw [hworld hidle]
      show (lastGPSCallback P ok1 ok2 x.world).bind some = _
      rw [lastGPSCallback_eq_finish P htimer]
      rfl
  | next =>
      rw [finished_next h]
      rfl

end Linearization

/-- **Quiet runs are linear.**  An interleaved run whose signals and requests are all handled
between callbacks, or in a callback that has read the place and will not save, leads to what the
same events lead to when callbacks are single steps, each at the moment at which it begins. -/
theorem overlap_linearizes (P : Platform) {x y : Overlap} {ms : List Move} (hx : x.TripBound)
    (hidle : x.pc = .idle) (hquiet : Along (overlapStep P) Quiet x ms)
    (hrun : run (overlapStep P) x ms = some y) :
    run (step P) x.world (ms.filterMap Move.event) = some (y.finished P) ∧
      (y.pc = .idle → y.finished P = y.world) := by
  have hcalm : x.Calm := ⟨hx, fun hearly => by simp [hidle, Pc.Early] at hearly⟩
  have hstep : ∀ u m u', Overlap.Calm u → Quiet u m → overlapStep P u m = some u' →
      u'.Calm ∧ run (step P) (u.finished P) m.event.toList = some (u'.finished P) :=
    fun u m u' hu hm h => ⟨calm_step hu hm h, finished_step hu hm h⟩
  obtain ⟨-, hlinear⟩ := run_erase hstep hcalm hquiet hrun
  have hfinished : ∀ z : Overlap, z.pc = .idle → z.finished P = z.world := fun z hz => by
    rw [Overlap.finished, hz]
    rfl
  rw [hfinished x hidle] at hlinear
  exact ⟨hlinear, hfinished y⟩

/-- A signal at home while the callback of the last one, which keeps the trip open, has read the
place. -/
def homeSignals : List Move :=
  [.signal ⟨.morning, ⟨1, 1⟩⟩, .fire false true true, .next, .next, .next, .next, .next,
    .signal ⟨.morning, ⟨1, 1⟩⟩, .next, .next, .next, .next]

theorem overlap_linearizes_homeSignals :
    ∃ y, run (overlapStep .keyed) beginning homeSignals = some y ∧ y.pc = .idle ∧
      run (step .keyed) beginning.world (homeSignals.filterMap Move.event) = some y.world := by
  obtain ⟨y, hy, hidle⟩ :
      ∃ y, run (overlapStep .keyed) beginning homeSignals = some y ∧ y.pc = .idle := by
    have h : (run (overlapStep .keyed) beginning homeSignals).map (·.pc) = some .idle := by
      decide +kernel
    exact Option.map_eq_some_iff.mp h
  have hquiet : Along (overlapStep .keyed) Quiet beginning homeSignals := by
    refine along_cons rfl (Or.inl rfl) <| along_cons rfl trivial <| along_cons rfl trivial <|
      along_cons rfl trivial <| along_cons rfl trivial <| along_cons rfl trivial <|
      along_cons rfl trivial <| along_cons rfl (Or.inr ⟨trivial, ?_⟩) <| along_cons rfl trivial <|
      along_cons rfl trivial <| along_cons rfl trivial <| along_cons rfl trivial <| along_nil _
    exact not_not.mpr (by decide +kernel)
  obtain ⟨hlinear, hworld⟩ := overlap_linearizes .keyed tripBound_beginning rfl hquiet hy
  exact ⟨y, hy, hidle, hworld hidle ▸ hlinear⟩

/-! ### Coverage -/

section Coverage

variable {P : Platform}

/-- No callback is running, and the timer runs if there is a pointer to it. -/
def Overlap.Between (x : Overlap) : Prop :=
  x.pc = .idle ∧ x.running = x.world.mLastGPSTimer

/-- A callback without anything in between. -/
lemma covers_callback {x : Overlap} (hx : x.Between) {ok1 ok2 : Bool} {w' : World}
    (h : lastGPSCallback P ok1 ok2 x.world = some w') :
    ∃ k y, run (overlapStep P) x (.fire false ok1 ok2 :: List.replicate k .next) = some y ∧
      y.world = w' ∧ y.Between := by
  obtain ⟨hidle, hrunning⟩ := hx
  obtain ⟨htimer, -⟩ := callback_some h
  set x₁ : Overlap := { x with pc := .clear, oks := (ok1, ok2), running := false } with hx₁
  set x₂ : Overlap := { x₁ with
    world := { x.world with mLastGPSTimer := false }, pc := .copy } with hx₂
  have hfire : overlapStep P x (.fire false ok1 ok2) = some x₁ :=
    if_pos ⟨hidle, hrunning.trans htimer, htimer⟩
  obtain ⟨k, y, hrun, hidle', hworld, htimers⟩ := run_finish P x₂
  obtain ⟨hrunning', -, htimer'⟩ := htimers (by simp [hx₂])
  refine ⟨k + 1, y, run_cons_some.mpr ⟨x₁, hfire, run_cons_some.mpr ⟨x₂, rfl, hrun⟩⟩, ?_, hidle',
    hrunning'.trans htimer'.symm⟩
  rw [lastGPSCallback_eq_finish P htimer, Option.some_inj] at h
  rw [hworld, ← h]
  rfl

/-- Every run of the recorder is one of the interleaved machine, in which nothing happens during a
callback. -/
theorem overlap_covers {x : Overlap} (hx : x.Between) {es : List Event} {w' : World}
    (hrun : run (step P) x.world es = some w') :
    ∃ ms y, ms.filterMap Move.event = es ∧ run (overlapStep P) x ms = some y ∧ y.world = w' ∧
      y.Between := by
  induction es generalizing x with
  | nil => exact ⟨[], x, rfl, rfl, Option.some_inj.mp hrun, hx⟩
  | cons e es ih =>
      obtain ⟨w₁, hstep, hrest⟩ := run_cons_some.mp hrun
      obtain ⟨ms, x₁, hms, hrun₁, rfl, hx₁⟩ : ∃ ms x₁, ms.filterMap Move.event = [e] ∧
          run (overlapStep P) x ms = some x₁ ∧ x₁.world = w₁ ∧ x₁.Between := by
        cases e with
        | start raw ok1 ok2 =>
            obtain rfl := Option.some_inj.mp hstep
            obtain ⟨-, -, -, htimer⟩ := loadDriverBehavior_frame P (x.world.construct raw) ok1 ok2
            exact ⟨[.start raw ok1 ok2], _, rfl, rfl, rfl, rfl, htimer.symm⟩
        | signal fix =>
            exact ⟨[.signal fix], _, rfl, rfl, Option.some_inj.mp hstep, hx.1, rfl⟩
        | callback ok1 ok2 =>
            obtain ⟨k, x₁, hrun₁, hworld, hx₁⟩ := covers_callback hx hstep
            exact ⟨_, x₁, by simp [Move.event], hrun₁, hworld, hx₁⟩
        | predict clock lat lon =>
            exact ⟨[.predict clock lat lon], _, rfl, rfl, Option.some_inj.mp hstep, hx⟩
      obtain ⟨ms', y, hms', hrun', hy⟩ := ih hx₁ hrest
      refine ⟨ms ++ ms', y, by rw [List.filterMap_append, hms, hms']; rfl, ?_, hy⟩
      rw [run_append, hrun₁]
      exact hrun'

end Coverage

end Gauge
