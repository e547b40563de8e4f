import Gauge.Recorder.Segmentation

/-!
The recorder next to everything else that happens to a process: prediction requests, which use
the members of the open trip, and behaviour files that cannot be opened.

`Recording` is the segmentation with both.  A request moves the start of the open trip to the
place that it asks about, and the place becomes known; a trip that ends while the file cannot be
opened is lost.  `recording_refines` says that the handlers do this and nothing else.
-/

namespace Gauge

open FirstMatch Machine

/-! ### The abstract machine -/

/-- A segmentation and the place of the last request. -/
structure Recording extends Segmentation where
  asked : LatLon

namespace Recording

/-- One event of a process. -/
def step (s : Recording) : Event → Option Recording
  | .start _ _ _ => none
  | .signal fix =>
      (s.toSegmentation.step (.signal fix)).map fun t => { s with toSegmentation := t }
  | .callback ok1 ok2 =>
      (s.toSegmentation.step (.callback ok1 ok2)).map fun t =>
        { s with toSegmentation := if ok1 then t else { t with trips := s.trips } }
  | .predict _ lat lon =>
      let asked : LatLon := ⟨lat.getD s.asked.lat, lon.getD s.asked.lon⟩
      some { s.visit asked with
        trip := s.trip.map fun trip => ({ trip.1 with pos := asked }, trip.2)
        asked := asked }

end Recording

/-- The instance `w`, which had saved the trips `saved` before, is in the state `s`. -/
structure RefinesRecording (saved : List BehaviorGPS) (w : World) (s : Recording) : Prop where
  recorder : Refines saved w s.toSegmentation
  asked : w.startPos = s.asked

section Steps

variable {P : Platform} {saved : List BehaviorGPS} {w w' : World} {s : Recording}

/-- A timer event that cannot open the behaviour file ends the same trips, and keeps none. -/
lemma refines_callback_closed {ok2 : Bool} {s : Segmentation} (h : Refines saved w s)
    (hw' : lastGPSCallback P false ok2 w = some w') (hlen : w'.mGpsPosVec.length < 32768) :
    ∃ s', s.step (.callback false ok2) = some s' ∧
      Refines saved w' { s' with trips := s.trips } := by
  obtain ⟨htimer, hcases⟩ := callback_some hw'
  -- what the callback would do if it could open the file
  obtain ⟨w'', hw''⟩ : ∃ w'', lastGPSCallback P true ok2 w = some w'' := by
    rw [lastGPSCallback, if_pos htimer]
    dsimp only
    split <;> exact ⟨_, rfl⟩
  have hvec : ∀ ok1 u, lastGPSCallback P ok1 ok2 w = some u →
      u.mGpsPosVec = searchOrAppend w.mGpsPosVec w.curPos := by
    intro ok1 u hu
    obtain ⟨-, ⟨-, rfl⟩ | ⟨-, rfl⟩⟩ := callback_some hu
    · rfl
    · exact saveDriverBehavior_mGpsPosVec P (closeTrip w) ok1 ok2
  have hlen' : w''.mGpsPosVec.length < 32768 := by
    rw [hvec _ _ hw'', ← hvec _ _ hw']
    exact hlen
  obtain ⟨s', hs', href⟩ := refines_callback h hw'' hlen'
  refine ⟨s', hs', ?_⟩
  obtain ⟨recs, hsaved, hrecs⟩ := h.trips
  have hmono : List.Forall₂ (Records w'.mGpsPosVec) recs s.trips := by
    rw [hvec _ _ hw']
    exact hrecs.imp fun _ _ hr => hr.mono (prefix_searchOrAppend _ _)
  obtain ⟨-, hcases'⟩ := callback_some hw''
  rcases hcases with ⟨heq, rfl⟩ | ⟨hne, rfl⟩
  · obtain ⟨-, rfl⟩ := hcases'.resolve_right fun hno => hno.1 heq
    exact ⟨href.places, href.armed, href.closed, href.opened, recs, hsaved, hmono⟩
  · obtain ⟨-, rfl⟩ := hcases'.resolve_left fun hno => hne hno.1
    have hclosed : s'.trip = none := by
      cases htrip : s'.trip with
      | none => rfl
      | some trip => exact absurd rfl (href.opened trip.1 trip.2 htrip).flag
    refine ⟨?_, ?_, fun _ => ⟨rfl, rfl⟩, fun o l hol => ?_, recs, hsaved, hmono⟩
    · rw [← href.places]
      exact congrArg (List.map _) ((hvec _ _ hw').trans (hvec _ _ hw'').symm)
    · rw [← href.armed]
      exact (saveDriverBehavior_mLastGPSTimer P (closeTrip w) true ok2).symm
    · exact absurd (hol.symm.trans hclosed) (by simp)

/-- A request moves the start of the open trip. -/
lemma refines_predict (h : RefinesRecording saved w s) (clock : Clock) (lat lon : Option ℚ) :
    ∃ s', s.step (.predict clock lat lon) = some s' ∧
      RefinesRecording saved (predictDestinationAtStart P clock lat lon w) s' := by
  obtain ⟨⟨hplaces, harmed, hclosed, hopened, recs, hsaved, hrecs⟩, hasked⟩ := h
  have hlat : w.mStartLat = s.asked.lat := congrArg LatLon.lat hasked
  have hlon : w.mStartLon = s.asked.lon := congrArg LatLon.lon hasked
  set start : LatLon := ⟨lat.getD w.mStartLat, lon.getD w.mStartLon⟩ with hstart
  have hstart' : start = ⟨lat.getD s.asked.lat, lon.getD s.asked.lon⟩ := by
    rw [hstart, hlat, hlon]
  refine ⟨_, rfl, ?_, hstart'⟩
  rw [← hstart']
  refine ⟨?_, harmed, fun hnone => hclosed (Option.map_eq_none_iff.mp hnone), ?_, recs, hsaved, ?_⟩
  · show (searchOrAppend w.mGpsPosVec start).map (·.toLatLon) = _
    rw [map_searchOrAppend, hplaces]
    rfl
  · intro opening latest hol
    obtain ⟨⟨opening', latest'⟩, htrip, heq⟩ := Option.map_eq_some_iff.mp hol
    obtain ⟨rfl, rfl⟩ := Prod.mk.inj heq
    have hopen := hopened opening' latest' htrip
    refine ⟨hopen.flag, ?_, ?_, hopen.date, hopen.time, hopen.dateD, hopen.timeD, hopen.place⟩
    · show Int16.ofNat (searchPos w.mGpsPosVec start) =
        Int16.ofNat (searchPos (searchOrAppend w.mGpsPosVec start) start)
      rw [searchPos_searchOrAppend]
    · show searchPos (searchOrAppend w.mGpsPosVec start) start <
        (searchOrAppend w.mGpsPosVec start).length
      rw [searchPos_searchOrAppend]
      exact searchPos_lt_searchOrAppend _ _
  · exact hrecs.imp fun _ _ hr => hr.mono (prefix_searchOrAppend _ _)

/-- Every event of a process is a step of the recording. -/
lemma refinesRecording_step {e : Event} (he : ¬ e.IsStart) (h : RefinesRecording saved w s)
    (hw' : step P w e = some w') (hlen : w'.mGpsPosVec.length < 32768) :
    ∃ s', s.step e = some s' ∧ RefinesRecording saved w' s' := by
  cases e with
  | start raw ok1 ok2 => exact absurd trivial he
  | signal fix =>
      obtain rfl := Option.some_inj.mp hw'
      obtain ⟨t, ht, href⟩ := refines_signal h.recorder fix
      refine ⟨{ s with toSegmentation := t }, by rw [Recording.step, ht]; rfl, href, ?_⟩
      rw [← h.asked]
      rcases eq_or_ne w.mGetFirstGPSSig 0 with hflag | hflag
      · rw [signal_first fix hflag]
        rfl
      · rw [signal_next fix hflag]
        rfl
  | callback ok1 ok2 =>
      have hasked : w'.startPos = s.asked := by
        rw [← h.asked]
        obtain ⟨-, ⟨-, rfl⟩ | ⟨-, rfl⟩⟩ := callback_some hw'
        · rfl
        · cases ok1 <;> cases ok2 <;> rfl
      cases ok1 with
      | false =>
          obtain ⟨t, ht, href⟩ := refines_callback_closed h.recorder hw' hlen
          exact ⟨{ s with toSegmentation := { t with trips := s.trips } },
            by rw [Recording.step, ht]; rfl, href, hasked⟩
      | true =>
          obtain ⟨t, ht, href⟩ := refines_callback h.recorder hw' hlen
          exact ⟨{ s with toSegmentation := t }, by rw [Recording.step, ht]; rfl, href, hasked⟩
  | predict clock lat lon =>
      obtain rfl := Option.some_inj.mp hw'
      exact refines_predict h clock lat lon

end Steps

/-- **The recorder refines the recording.**  Whatever happens to a process without an open trip,
signals, timer events and requests in any order, with files that can be opened or not, the records
that it appends to `mBehavGpsVec` are those of the trips of the recording. -/
theorem recording_refines (P : Platform) {w t : World} {es : List Event}
    (hflag : w.mGetFirstGPSSig = 0) (htimer : w.mLastGPSTimer = false)
    (hes : ∀ e ∈ es, ¬ e.IsStart) (hrun : run (step P) w es = some t)
    (hlen : t.mGpsPosVec.length < 32768) :
    ∃ s, run Recording.step
        ⟨⟨w.mGpsPosVec.map (·.toLatLon), none, false, []⟩, w.startPos⟩ es = some s ∧
      s.places = t.mGpsPosVec.map (·.toLatLon) ∧
      ∃ recs, t.mBehavGpsVec = w.mBehavGpsVec ++ recs ∧
        List.Forall₂ (Records t.mGpsPosVec) recs s.trips := by
  have hstart : RefinesRecording w.mBehavGpsVec w
      ⟨⟨w.mGpsPosVec.map (·.toLatLon), none, false, []⟩, w.startPos⟩ :=
    ⟨refines_start hflag htimer, rfl⟩
  have hback : ∀ u e u', ¬ Event.IsStart e → step P u e = some u' →
      u'.mGpsPosVec.length < 32768 → u.mGpsPosVec.length < 32768 :=
    fun u e u' he hu hlen' => (prefix_of_step he hu).length_le.trans_lt hlen'
  have hstep : ∀ u s e u', ¬ Event.IsStart e → RefinesRecording w.mBehavGpsVec u s →
      u'.mGpsPosVec.length < 32768 → step P u e = some u' →
      ∃ s', s.step e = some s' ∧ RefinesRecording w.mBehavGpsVec u' s' :=
    fun u s e u' he href hlen' hu => refinesRecording_step he href hu hlen'
  obtain ⟨s, hs, href⟩ := run_sim hback hstep hes hstart hrun hlen
  exact ⟨s, hs, href.recorder.places.symm, href.recorder.trips⟩

/-- A trip with a request on the way: it is recorded from the place that was asked about. -/
def askedTrip : List Event :=
  [.signal ⟨.morning, ⟨1, 1⟩⟩, .predict .morning (some 3) (some 3), .signal ⟨.morning, ⟨1, 2⟩⟩,
    .callback true true]

theorem recording_refines_askedTrip :
    ∃ t s, run (step .keyed) (firstWorld blankInstance false none) askedTrip = some t ∧
      run Recording.step ⟨⟨[], none, false, []⟩, ⟨0, 0⟩⟩ askedTrip = some s ∧
      s.trips.map (fun trip => trip.1.pos) = [⟨3, 3⟩] ∧
      List.Forall₂ (Records t.mGpsPosVec) t.mBehavGpsVec s.trips := by
  have hlen : (run (step .keyed) (firstWorld blankInstance false none) askedTrip).map
      (fun t => t.mGpsPosVec.length) = some 3 := by decide +kernel
  obtain ⟨t, ht, hlen⟩ := Option.map_eq_some_iff.mp hlen
  obtain ⟨s, hs, -, recs, hrecs, hforall⟩ := recording_refines .keyed rfl rfl
    (by simp [askedTrip, Event.IsStart]) ht (by omega)
  refine ⟨t, s, ht, hs, ?_, hrecs ▸ hforall⟩
  have htrips : (run Recording.step ⟨⟨[], none, false, []⟩, ⟨0, 0⟩⟩ askedTrip).map
      (fun s => s.trips.map fun trip => trip.1.pos) = some [⟨3, 3⟩] := by decide +kernel
  obtain ⟨s', hs', hpos⟩ := Option.map_eq_some_iff.mp htrips
  exact Option.some_inj.mp (hs'.symm.trans hs) ▸ hpos

end Gauge
