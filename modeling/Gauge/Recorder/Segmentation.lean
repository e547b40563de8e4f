import Gauge.Recorder.Handlers

/-!
What the recorder is for: it cuts the stream of signals into trips.

`Segmentation` is the abstract machine.  A trip opens at a signal when none is open, goes on
with every further signal, and ends at a timer event if the place of the most recent signal
has another code than the place where it opened.  The code of a place is the index of the
first known place near it.

`recorder_refines`: the trips that the handlers append to `mBehavGpsVec` are those of the
segmentation, whatever the order of signals and timer events.  `Refines` relates the members
of the instance that the handlers spread a trip over to the open trip.
-/

namespace Gauge

open FirstMatch Machine

/-! ### Segmentation -/

/-- The known places, the opening and the most recent signal of the open trip, whether the
timer runs, and the finished trips. -/
structure Segmentation where
  places : List LatLon
  trip : Option (Fix × Fix)
  armed : Bool
  trips : List (Fix × Fix)

/-- Two places count as the same. -/
def placeNear (p q : LatLon) : Bool := posDist p q < maxDiffLatLon

namespace Segmentation

/-- The code of a place. -/
def code (s : Segmentation) (q : LatLon) : ℕ := firstMatch placeNear s.places q

/-- A place becomes known. -/
def visit (s : Segmentation) (q : LatLon) : Segmentation :=
  { s with places := register placeNear (fun _ q => q) s.places q }

/-- One event of the stream.  Other events are not part of it. -/
def step (s : Segmentation) : Event → Option Segmentation
  | .signal fix =>
      match s.trip with
      | none => some { s.visit fix.pos with trip := some (fix, fix), armed := true }
      | some (opening, _) => some { s with trip := some (opening, fix), armed := true }
  | .callback _ _ =>
      match s.armed, s.trip with
      | true, some (opening, latest) =>
          let s := s.visit latest.pos
          if s.code opening.pos = s.code latest.pos then some { s with armed := false }
          else some { s with
            trip := none
            armed := false
            trips := s.trips ++ [(opening, latest)] }
      | _, _ => none
  | _ => none

end Segmentation

/-! ### The refinement relation -/

/-- A saved record describes a trip: its dates and times are those of the opening and the
most recent signal, and its codes are the first entries of `mGpsPosVec` near their places. -/
structure Records (vec : List GPSPos) (r : BehaviorGPS) (trip : Fix × Fix) : Prop where
  date : r.date = trip.1.clock.date.packed
  time : r.time = trip.1.clock.time.packed
  dateD : r.dateD = trip.2.clock.date.packed
  timeD : r.timeD = trip.2.clock.time.packed
  codeS : r.codeS.toInt = searchPos vec trip.1.pos
  codeS_lt : searchPos vec trip.1.pos < vec.length
  codeD : r.codeD.toInt = searchPos vec trip.2.pos
  codeD_lt : searchPos vec trip.2.pos < vec.length

/-- The members of the instance during a trip. -/
structure OpenTrip (w : World) (opening latest : Fix) : Prop where
  flag : w.mGetFirstGPSSig ≠ 0
  codeS : w.mFirstGPS.codeS = Int16.ofNat (searchPos w.mGpsPosVec opening.pos)
  codeS_lt : searchPos w.mGpsPosVec opening.pos < w.mGpsPosVec.length
  date : w.mCurGPS.date = opening.clock.date.packed
  time : w.mCurGPS.time = opening.clock.time.packed
  dateD : w.mCurGPS.dateD = latest.clock.date.packed
  timeD : w.mCurGPS.timeD = latest.clock.time.packed
  place : w.curPos = latest.pos

/-- The instance `w`, which had saved the trips `saved` before, is in the state `s` of the
segmentation. -/
structure Refines (saved : List BehaviorGPS) (w : World) (s : Segmentation) : Prop where
  places : w.mGpsPosVec.map (·.toLatLon) = s.places
  armed : w.mLastGPSTimer = s.armed
  closed : s.trip = none → w.mGetFirstGPSSig = 0 ∧ w.mLastGPSTimer = false
  opened : ∀ opening latest, s.trip = some (opening, latest) → OpenTrip w opening latest
  trips : ∃ recs, w.mBehavGpsVec = saved ++ recs ∧
    List.Forall₂ (Records w.mGpsPosVec) recs s.trips

section Codes

/-- The codes of the segmentation are the indexes of the handlers. -/
lemma firstMatch_toLatLon (vec : List GPSPos) (q : LatLon) :
    firstMatch placeNear (vec.map (·.toLatLon)) q = searchPos vec q :=
  firstMatch_map (fun _ _ => rfl) vec q

lemma map_searchOrAppend (vec : List GPSPos) (q : LatLon) :
    (searchOrAppend vec q).map (·.toLatLon) =
      register placeNear (fun _ q => q) (vec.map (·.toLatLon)) q := by
  rw [searchOrAppend]
  refine map_register ?_ ?_ vec q <;> exact fun _ _ => rfl

/-- More positions do not change what a record says. -/
lemma Records.mono {vec vec' : List GPSPos} {r : BehaviorGPS} {trip : Fix × Fix}
    (h : Records vec r trip) (hvec : vec <+: vec') : Records vec' r trip where
  date := h.date
  time := h.time
  dateD := h.dateD
  timeD := h.timeD
  codeS := by rw [searchPos_stable h.codeS_lt hvec, h.codeS]
  codeS_lt := by
    rw [searchPos_stable h.codeS_lt hvec]
    exact h.codeS_lt.trans_le hvec.length_le
  codeD := by rw [searchPos_stable h.codeD_lt hvec, h.codeD]
  codeD_lt := by
    rw [searchPos_stable h.codeD_lt hvec]
    exact h.codeD_lt.trans_le hvec.length_le

end Codes

/-! ### The simulation -/

/-- The signals and the timer events of runs in which the behaviour file can be opened. -/
def RecorderEvent : Event → Prop
  | .signal _ => True
  | .callback ok1 _ => ok1 = true
  | _ => False

section Steps

variable {P : Platform} {saved : List BehaviorGPS} {w w' : World} {s : Segmentation}

/-- A signal is a step of the segmentation. -/
lemma refines_signal (h : Refines saved w s) (fix : Fix) :
    ∃ s', s.step (.signal fix) = some s' ∧
      Refines saved (onGPSDataNDRServiceIPCSignal fix w) s' := by
  obtain ⟨recs, hsaved, hrecs⟩ := h.trips
  cases htrip : s.trip with
  | none =>
      refine ⟨{ s.visit fix.pos with trip := some (fix, fix), armed := true }, ?_, ?_⟩
      · simp only [Segmentation.step, htrip]
      · rw [signal_first fix (h.closed htrip).1]
        refine ⟨?_, rfl, fun hnone => absurd hnone (by simp), ?_, recs, hsaved, ?_⟩
        · rw [map_searchOrAppend, h.places]
          rfl
        · rintro _ _ ⟨⟩
          refine ⟨one_ne_zero, ?_, ?_, rfl, rfl, rfl, rfl, rfl⟩
          · rw [searchPos_searchOrAppend]
          · rw [searchPos_searchOrAppend]
            exact searchPos_lt_searchOrAppend _ _
        · exact hrecs.imp fun _ _ hr => hr.mono (prefix_searchOrAppend _ _)
  | some trip =>
      obtain ⟨opening, latest⟩ := trip
      have hopen := h.opened opening latest htrip
      refine ⟨{ s with trip := some (opening, fix), armed := true }, ?_, ?_⟩
      · simp only [Segmentation.step, htrip]
      · rw [signal_next fix hopen.flag]
        refine ⟨h.places, rfl, fun hnone => absurd hnone (by simp), ?_, recs, hsaved, hrecs⟩
        rintro _ _ ⟨⟩
        exact ⟨hopen.flag, hopen.codeS, hopen.codeS_lt, hopen.date, hopen.time, rfl, rfl, rfl⟩

/-- The codes of a trip differ as numbers if and only if they differ as indexes. -/
lemma codeS_eq_codeD_iff {opening latest : Fix} (hopen : OpenTrip w opening latest)
    (hlen : (searchOrAppend w.mGpsPosVec w.curPos).length < 32768) :
    (lastTrip w).codeS = (lastTrip w).codeD ↔
      searchPos w.mGpsPosVec opening.pos = searchPos w.mGpsPosVec latest.pos := by
  have hS : searchPos w.mGpsPosVec opening.pos < 2 ^ 15 :=
    hopen.codeS_lt.trans (by
      have := (prefix_searchOrAppend w.mGpsPosVec w.curPos).length_le
      omega)
  have hD : searchPos w.mGpsPosVec w.curPos < 2 ^ 15 :=
    (searchPos_lt_searchOrAppend _ _).trans (by omega)
  rw [← Int16.toInt_inj, lastTrip, hopen.codeS, Int16.toInt_ofNat_of_lt hS,
    Int16.toInt_ofNat_of_lt hD, hopen.place, Nat.cast_inj]

/-- The record of a trip that ends. -/
lemma records_lastTrip {opening latest : Fix} (hopen : OpenTrip w opening latest)
    (hlen : (searchOrAppend w.mGpsPosVec w.curPos).length < 32768) :
    Records (searchOrAppend w.mGpsPosVec w.curPos) (lastTrip w) (opening, latest) := by
  have hpre := prefix_searchOrAppend w.mGpsPosVec w.curPos
  have hlt := searchPos_lt_searchOrAppend w.mGpsPosVec w.curPos
  have hS := hopen.codeS_lt
  have hle := hpre.length_le
  refine ⟨hopen.date, hopen.time, hopen.dateD, hopen.timeD, ?_, ?_, ?_, ?_⟩
  · rw [searchPos_stable hS hpre, lastTrip, hopen.codeS, Int16.toInt_ofNat_of_lt (by omega)]
  · rw [searchPos_stable hS hpre]
    exact hS.trans_le hle
  · rw [← hopen.place, searchPos_searchOrAppend, lastTrip, Int16.toInt_ofNat_of_lt (by omega)]
  · rw [← hopen.place, searchPos_searchOrAppend]
    exact hlt

/-- What the callback does before it compares the codes keeps the trip open. -/
lemma OpenTrip.closeTrip {opening latest : Fix} (hopen : OpenTrip w opening latest) :
    OpenTrip (closeTrip w) opening latest := by
  have hpre := prefix_searchOrAppend w.mGpsPosVec w.curPos
  have hcode : searchPos (searchOrAppend w.mGpsPosVec w.curPos) opening.pos =
      searchPos w.mGpsPosVec opening.pos := searchPos_stable hopen.codeS_lt hpre
  refine ⟨hopen.flag, hopen.codeS.trans ?_, ?_, hopen.date, hopen.time, hopen.dateD, hopen.timeD,
    hopen.place⟩
  · rw [Gauge.closeTrip, hcode]
  · rw [Gauge.closeTrip, hcode]
    exact hopen.codeS_lt.trans_le hpre.length_le

/-- The places that are known after the callback has looked at the most recent one. -/
lemma places_closeTrip {opening latest : Fix} (h : Refines saved w s)
    (hopen : OpenTrip w opening latest) :
    (searchOrAppend w.mGpsPosVec w.curPos).map (·.toLatLon) = (s.visit latest.pos).places := by
  rw [map_searchOrAppend, h.places, hopen.place]
  rfl

/-- The segmentation and the callback compare the same codes. -/
lemma code_eq_code_iff {opening latest : Fix} (h : Refines saved w s)
    (hopen : OpenTrip w opening latest)
    (hlen : (searchOrAppend w.mGpsPosVec w.curPos).length < 32768) :
    (s.visit latest.pos).code opening.pos = (s.visit latest.pos).code latest.pos ↔
      (lastTrip w).codeS = (lastTrip w).codeD := by
  have hcode : ∀ q, (s.visit latest.pos).code q =
      searchPos (searchOrAppend w.mGpsPosVec w.curPos) q := fun q => by
    rw [Segmentation.code, ← places_closeTrip h hopen, firstMatch_toLatLon]
  rw [codeS_eq_codeD_iff hopen hlen, hcode, hcode,
    searchPos_stable hopen.codeS_lt (prefix_searchOrAppend _ _), ← hopen.place,
    searchPos_searchOrAppend]

/-- A timer event is a step of the segmentation. -/
lemma refines_callback {ok2 : Bool} (h : Refines saved w s)
    (hw' : lastGPSCallback P true ok2 w = some w') (hlen : w'.mGpsPosVec.length < 32768) :
    ∃ s', s.step (.callback true ok2) = some s' ∧ Refines saved w' s' := by
  obtain ⟨htimer, hcases⟩ := callback_some hw'
  have hvec : w'.mGpsPosVec = searchOrAppend w.mGpsPosVec w.curPos := by
    rcases hcases with ⟨-, rfl⟩ | ⟨-, rfl⟩
    · rfl
    · exact saveDriverBehavior_mGpsPosVec P (closeTrip w) true ok2
  rw [hvec] at hlen
  obtain ⟨recs, hsaved, hrecs⟩ := h.trips
  have hpre := prefix_searchOrAppend w.mGpsPosVec w.curPos
  have harmed : s.armed = true := h.armed ▸ htimer
  cases htrip : s.trip with
  | none => exact absurd htimer (by simp [(h.closed htrip).2])
  | some trip =>
      obtain ⟨opening, latest⟩ := trip
      have hopen := h.opened opening latest htrip
      have hplaces := places_closeTrip h hopen
      have hsame := code_eq_code_iff h hopen hlen
      rcases hcases with ⟨heq, rfl⟩ | ⟨hne, rfl⟩
      · -- the trip stays open
        refine ⟨{ s.visit latest.pos with armed := false }, ?_, hplaces, rfl, ?_, ?_, recs, hsaved,
          hrecs.imp fun _ _ hr => hr.mono hpre⟩
        · simp only [Segmentation.step, harmed, htrip, if_pos (hsame.mpr heq)]
        · exact fun hnone => absurd (htrip.symm.trans hnone) (by simp)
        · intro o l hol
          obtain ⟨rfl, rfl⟩ : opening = o ∧ latest = l := by
            simpa [Segmentation.visit, htrip] using hol
          exact hopen.closeTrip
      · -- the trip is saved
        refine ⟨{ s.visit latest.pos with
          trip := none, armed := false, trips := s.trips ++ [(opening, latest)] }, ?_, ?_, ?_,
          fun _ => ⟨rfl, ?_⟩, fun _ _ hol => absurd hol (by simp), recs ++ [lastTrip w], ?_, ?_⟩
        · simp only [Segmentation.step, harmed, htrip, if_neg fun h' => hne (hsame.mp h')]
          rfl
        · exact hvec ▸ hplaces
        · exact saveDriverBehavior_mLastGPSTimer P (closeTrip w) true ok2
        · exact saveDriverBehavior_mLastGPSTimer P (closeTrip w) true ok2
        · rw [saveDriverBehavior_toHistory, recordTrip_mBehavGpsVec]
          exact (congrArg (· ++ [lastTrip w]) hsaved).trans (List.append_assoc _ _ _)
        · rw [hvec]
          refine List.rel_append (hrecs.imp fun _ _ hr => hr.mono hpre) ?_
          exact List.Forall₂.cons (records_lastTrip hopen hlen) List.Forall₂.nil

/-- The signals and timer events of a process go as in the segmentation. -/
lemma refines_run {es : List Event} (h : Refines saved w s) (hes : ∀ e ∈ es, RecorderEvent e)
    (hrun : run (step P) w es = some w') (hlen : w'.mGpsPosVec.length < 32768) :
    ∃ s', run Segmentation.step s es = some s' ∧ Refines saved w' s' := by
  have hback : ∀ u e u', RecorderEvent e → step P u e = some u' →
      u'.mGpsPosVec.length < 32768 → u.mGpsPosVec.length < 32768 := by
    intro u e u' he hu hlen'
    have hnot : ¬ e.IsStart := by cases e <;> simp_all [RecorderEvent, Event.IsStart]
    exact (prefix_of_step hnot hu).length_le.trans_lt hlen'
  refine run_sim hback (fun u v e u' he href hlen' hu => ?_) hes h hrun hlen
  cases e with
  | start raw ok1 ok2 => exact he.elim
  | signal fix =>
      obtain rfl := Option.some_inj.mp hu
      exact refines_signal href fix
  | callback ok1 ok2 =>
      obtain rfl : ok1 = true := he
      exact refines_callback href hu hlen'
  | predict clock lat lon => exact he.elim

/-- A process without an open trip begins like the segmentation of its places. -/
lemma refines_start (hflag : w.mGetFirstGPSSig = 0) (htimer : w.mLastGPSTimer = false) :
    Refines w.mBehavGpsVec w ⟨w.mGpsPosVec.map (·.toLatLon), none, false, []⟩ :=
  ⟨rfl, htimer, fun _ => ⟨hflag, htimer⟩, fun _ _ h => absurd h (by simp), [], by simp,
    List.Forall₂.nil⟩

end Steps

/-- **The recorder refines the segmentation.**  In a process that starts without an open trip,
whatever signals and timer events follow, the records appended to `mBehavGpsVec` are those of
the trips of the segmentation, in the same order. -/
theorem recorder_refines (P : Platform) {w t : World} {es : List Event}
    (hflag : w.mGetFirstGPSSig = 0) (htimer : w.mLastGPSTimer = false)
    (hes : ∀ e ∈ es, RecorderEvent e) (hrun : run (step P) w es = some t)
    (hlen : t.mGpsPosVec.length < 32768) :
    ∃ s, run Segmentation.step ⟨w.mGpsPosVec.map (·.toLatLon), none, false, []⟩ es = some s ∧
      s.places = t.mGpsPosVec.map (·.toLatLon) ∧
      ∃ recs, t.mBehavGpsVec = w.mBehavGpsVec ++ recs ∧
        List.Forall₂ (Records t.mGpsPosVec) recs s.trips := by
  obtain ⟨s, hs, href⟩ := refines_run (refines_start hflag htimer) hes hrun hlen
  exact ⟨s, hs, href.places.symm, href.trips⟩

/-- Home, the office, and the clock of the morning at both. -/
def commute : List Event :=
  [.signal ⟨.morning, ⟨1, 1⟩⟩, .callback true true, .signal ⟨.morning, ⟨1, 2⟩⟩,
    .callback true true]

theorem recorder_refines_commute :
    ∃ t s, run (step .keyed) (firstWorld blankInstance false none) commute = some t ∧
      run Segmentation.step ⟨[], none, false, []⟩ commute = some s ∧
      t.mBehavGpsVec.length = 1 ∧
      List.Forall₂ (Records t.mGpsPosVec) t.mBehavGpsVec s.trips := by
  have hsome : (run (step .keyed) (firstWorld blankInstance false none) commute).map
      (fun t => (t.mGpsPosVec.length, t.mBehavGpsVec.length)) = some (2, 1) := by decide +kernel
  obtain ⟨t, ht, hlen⟩ := Option.map_eq_some_iff.mp hsome
  obtain ⟨hpos, htrips⟩ := Prod.mk.inj hlen
  obtain ⟨s, hs, -, recs, hrecs, hforall⟩ := recorder_refines .keyed rfl rfl
    (by simp [commute, RecorderEvent]) ht (by omega)
  exact ⟨t, s, ht, hs, htrips, hrecs ▸ hforall⟩

end Gauge
