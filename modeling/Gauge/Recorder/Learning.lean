import Gauge.Calendar.Days
import Gauge.Predict.Fading
import Gauge.Predict.Origin
import Gauge.Recorder.Ledger

/-!
What the program learns for its predictions, and what it stops to learn, over any number of
processes.

* `arrivals_on_disk`: each arrival that a prediction shows is the one of a trip in the file, the
  oldest to this destination in the first drawer that offers it.
* `learning_stops`: once what the drawers offer for a place and a time is saturated, the
  destinations that are predicted there and then stay the same for ever with their times of arrival,
  whatever is driven, and however often the program is started again.
* `habits_fade`: a destination that none of the drawers has offered first never becomes likely: its
  rate is at most 4 over the number of trips from the place.
-/

namespace Gauge

open Firsts Machine

/-- A process that starts can open its behaviour file. -/
def Event.Loads : Event → Prop
  | .start _ ok1 _ => ok1 = true
  | _ => True

/-- The process knows the trips of the behaviour file from `c`, and has the structures for them. -/
structure Knows (P : Platform) (c : Int16) (w : World) : Prop where
  fromTrips : w.FromTrips P
  records : recordsFrom c w.mBehavGpsVec = (w.behaviorFile.getD []).filter fun r => r.codeS = c

section Steps

variable {P : Platform} {c : Int16} {w w' : World}

lemma knows_start {raw : GaugeArrival} {ok2 : Bool} (hc : c ≠ 0)
    (h : step P w (.start raw true ok2) = some w') : Knows P c w' := by
  have hrun : run (step P) w [.start raw true ok2] = some w' := run_cons_some.mpr ⟨w', h, rfl⟩
  exact ⟨(ledger_start h).fromTrips, recordsFrom_of_loaded (by simp) hrun hc⟩

lemma knows_step {e : Event} (hc : c ≠ 0) (he : e.Loads) (hw : Knows P c w)
    (h : step P w e = some w') : Knows P c w' := by
  by_cases hstart : e.IsStart
  · cases e with
    | start raw ok1 ok2 =>
        obtain rfl : ok1 = true := he
        exact knows_start hc h
    | signal fix => exact hstart.elim
    | callback ok1 ok2 => exact hstart.elim
    | predict clock lat lon => exact hstart.elim
  · refine ⟨fromTrips_step hstart h hw.fromTrips, ?_⟩
    have hrecords := hw.records
    rw [recordsFrom] at hrecords
    rw [recordsFrom, mBehavGpsVec_step hstart h, behaviorFile_step h, List.filter_append,
      List.filter_append, hrecords]

lemma knows_run {es : List Event} (hc : c ≠ 0) (hes : ∀ e ∈ es, e.Loads) (hw : Knows P c w)
    (hrun : run (step P) w es = some w') : Knows P c w' :=
  run_inv (fun _ _ _ he hv hstep => knows_step hc he hv hstep) hes hw hrun

/-- A process knows them after any events, once it has loaded its file. -/
lemma knows_process {w₁ : World} {fs : List Event} {raw : GaugeArrival} {ok2 : Bool} (hc : c ≠ 0)
    (hfs : ∀ e ∈ fs, e.Loads) (hw : run (step P) w₁ (.start raw true ok2 :: fs) = some w) :
    Knows P c w := by
  obtain ⟨w₂, hw₂, hrest⟩ := run_cons_some.mp hw
  exact knows_run hc hfs (knows_start hc hw₂) hrest

/-- A request returns the first three destinations that its drawers offer. -/
lemma codes_predict (clock : Clock) (lat lon : Option ℚ) :
    ((predictDestinationAtStart P clock lat lon w).mGpsRetLst.map (·.code)).Perm
      (firsts 3 []
        (offered P (predictDestinationAtStart P clock lat lon w).toGaugeArrival).flatten) :=
  codes_getDestAndRate P _

/-- The drawers offer what they would after the trips in the vector. -/
lemma offered_withTrips_predict (hw : w.FromTrips P) (clock : Clock) (lat lon : Option ℚ) :
    offered P ((predictDestinationAtStart P clock lat lon w).withTrips P w.mBehavGpsVec) =
      offered P (predictDestinationAtStart P clock lat lon w).toGaugeArrival := by
  set s := (predictDestinationAtStart P clock lat lon w).toGaugeArrival with hs
  have hdrawers : s.drawers = (s.withTrips P w.mBehavGpsVec).drawers := hw.drawers
  have hcate : ∀ a, vecCate P (s.withTrips P w.mBehavGpsVec) a = vecCate P s a := fun a => by
    rw [vecCate, ← hdrawers]
    rfl
  rw [offered, offered]
  simp only [hcate]

/-- They offer what they would after the records of the file. -/
lemma offered_predict (hw : Knows P c w) {clock : Clock} {lat lon : Option ℚ}
    (hcode : (predictDestinationAtStart P clock lat lon w).mFirstGPS.codeS = c) :
    offered P (predictDestinationAtStart P clock lat lon w).toGaugeArrival =
      categories.map fun a => offers c a
        (drawerIdx (predictDestinationAtStart P clock lat lon w).mFirstGPS.toTripRecord a)
        (w.behaviorFile.getD []) := by
  rw [← offered_withTrips_predict hw.fromTrips, offered_withTrips]
  refine List.map_congr_left fun a _ => ?_
  rw [hcode, ← offers_filter c a _ (w.behaviorFile.getD []), ← hw.records, recordsFrom,
    offers_filter]

/-- For each destination it shows the arrival of the trip `origin` among the records of the
file. -/
lemma arrival_predict (hw : Knows P c w) {clock : Clock} {lat lon : Option ℚ}
    (hcode : (predictDestinationAtStart P clock lat lon w).mFirstGPS.codeS = c) {e : GPSPosResRate}
    (he : e ∈ (predictDestinationAtStart P clock lat lon w).mGpsRetLst) :
    ∃ r, origin c
        (drawerIdx (predictDestinationAtStart P clock lat lon w).mFirstGPS.toTripRecord)
        (w.behaviorFile.getD []) e.code = some r ∧
      (e.dateD, e.timeD) =
        arrivalOf P r (predictDestinationAtStart P clock lat lon w).mFirstGPS := by
  rw [predict_eq_withTrips hw.fromTrips] at he
  obtain ⟨r, hr, harrival⟩ := arrival_of_mem P w.mBehavGpsVec _ he
  refine ⟨r, ?_, harrival⟩
  rw [← origin_filter, ← hw.records, recordsFrom, origin_filter, ← hcode]
  exact hr

/-- So the times of arrival are a function of the destinations. -/
lemma map_arrivals_predict (hw : Knows P c w) {clock : Clock} {lat lon : Option ℚ}
    (hcode : (predictDestinationAtStart P clock lat lon w).mFirstGPS.codeS = c) :
    (predictDestinationAtStart P clock lat lon w).mGpsRetLst.map (fun e => (e.code, e.timeD)) =
      ((predictDestinationAtStart P clock lat lon w).mGpsRetLst.map (·.code)).map fun d =>
        (d, (origin c
          (drawerIdx (predictDestinationAtStart P clock lat lon w).mFirstGPS.toTripRecord)
          (w.behaviorFile.getD []) d).elim 0 (·.timeD)) := by
  rw [List.map_map]
  refine List.map_congr_left fun e he => ?_
  obtain ⟨r, hr, harrival⟩ := arrival_predict hw hcode he
  rw [Function.comp_apply, hr]
  exact congrArg (Prod.mk e.code) (congrArg Prod.snd harrival)

/-- What is known when a request is made, and what is known later. -/
lemma knows_later {w₁ v : World} {fs es : List Event} {raw : GaugeArrival} {ok2 : Bool}
    {clock : Clock} {lat lon : Option ℚ} (hc : c ≠ 0) (hfs : ∀ e ∈ fs, e.Loads)
    (hes : ∀ e ∈ es, e.Loads) (hw : run (step P) w₁ (.start raw true ok2 :: fs) = some w)
    (hw' : step P w (.predict clock lat lon) = some w') (hv : run (step P) w' es = some v) :
    Knows P c w ∧ Knows P c v ∧
      v.behaviorFile.getD [] = w.behaviorFile.getD [] ++ written P w' es := by
  have hknows : Knows P c w := knows_process hc hfs hw
  refine ⟨hknows, ?_, ?_⟩
  · exact knows_run hc hes (knows_step (e := .predict clock lat lon) hc trivial hknows hw') hv
  · rw [behaviorFile_run hv, behaviorFile_step hw']
    exact congrArg (· ++ _) (List.append_nil _)

end Steps

/-- **Arrivals are those of trips on disk.**  In every state of every run of processes that load
their file, what a request at a place whose code is not 0 shows for a destination is the arrival of
one trip of the file from this place to this destination: the oldest one in the first drawer that
offers it. -/
theorem arrivals_on_disk (P : Platform) {w₁ w w' : World} {fs : List Event} {raw : GaugeArrival}
    {ok2 : Bool} (hfs : ∀ e ∈ fs, e.Loads)
    (hw : run (step P) w₁ (.start raw true ok2 :: fs) = some w) {clock : Clock}
    {lat lon : Option ℚ} (hw' : step P w (.predict clock lat lon) = some w')
    (hzero : w'.mFirstGPS.codeS ≠ 0) {e : GPSPosResRate} (he : e ∈ w'.mGpsRetLst) :
    ∃ r ∈ w.behaviorFile.getD [], r.route = (w'.mFirstGPS.codeS, e.code) ∧
      origin w'.mFirstGPS.codeS (drawerIdx w'.mFirstGPS.toTripRecord) (w.behaviorFile.getD [])
        e.code = some r ∧
      (e.dateD, e.timeD) = arrivalOf P r w'.mFirstGPS := by
  have hknows : Knows P w'.mFirstGPS.codeS w := knows_process hzero hfs hw
  obtain rfl := Option.some_inj.mp hw'
  obtain ⟨r, hr, harrival⟩ := arrival_predict hknows rfl he
  exact ⟨r, (mem_of_origin hr).1, (mem_of_origin hr).2, hr, harrival⟩

/-- A trip from home to `goal`, and its end. -/
def trip (goal : LatLon) : List Event :=
  [.signal ⟨.morning, ⟨1, 1⟩⟩, .signal ⟨.morning, goal⟩, .callback true true]

/-- Nine o'clock on that morning. -/
def Clock.nine : Clock := ⟨Clock.morning.date, DayTime.ofSecs 32400⟩

/-- Two trips to a place, after a request that registers another one with the code 0.  The second
trip takes half an hour. -/
def slowerTrip : List Event :=
  .start blankInstance true true :: .predict .morning (some 9) (some 9) :: (trip ⟨1, 2⟩ ++
    [.signal ⟨.morning, ⟨1, 1⟩⟩, .signal ⟨.nine, ⟨1, 2⟩⟩, .callback true true])

/-- A request from home. -/
def askHome (w : World) : World := predictDestinationAtStart .keyed .morning (some 1) (some 1) w

theorem arrivals_on_disk_slowerTrip :
    ∃ w e r, run (step .keyed) (firstWorld blankInstance false none) slowerTrip = some w ∧
      w.behaviorFile = some [⟨1, 2, 20140109, 83000, 20140109, 83000⟩,
        ⟨1, 2, 20140109, 83000, 20140109, 90000⟩] ∧
      e ∈ (askHome w).mGpsRetLst ∧
      origin 1 (drawerIdx (askHome w).mFirstGPS.toTripRecord) (w.behaviorFile.getD []) e.code =
        some r ∧
      (e.dateD, e.timeD) = arrivalOf .keyed r (askHome w).mFirstGPS := by
  have hwSome : (run (step .keyed) (firstWorld blankInstance false none) slowerTrip).map
      (fun w => (w.behaviorFile, (askHome w).mFirstGPS.codeS, (askHome w).mGpsRetLst.length)) =
        some (some [⟨1, 2, 20140109, 83000, 20140109, 83000⟩,
          ⟨1, 2, 20140109, 83000, 20140109, 90000⟩], 1, 1) := by decide +kernel
  obtain ⟨w, hw, heq⟩ := Option.map_eq_some_iff.mp hwSome
  obtain ⟨hfile, heq⟩ := Prod.mk.inj heq
  obtain ⟨hcode, hlen⟩ := Prod.mk.inj heq
  obtain ⟨e, he⟩ := List.length_eq_one_iff.mp hlen
  have hmem : e ∈ (askHome w).mGpsRetLst := by
    rw [he]
    exact List.mem_singleton_self e
  have hask : step .keyed w (.predict .morning (some 1) (some 1)) = some (askHome w) := rfl
  obtain ⟨r, -, -, horigin, harrival⟩ := arrivals_on_disk .keyed (by simp [trip, Event.Loads])
    hw hask (by rw [hcode]; decide) hmem
  exact ⟨w, e, r, hw, hfile, hmem, hcode ▸ horigin, harrival⟩

/-- **Learning stops.**  A request at a place whose code is not 0, in a process that has loaded its
file, is answered with the same destinations and times of arrival as an earlier one at this place
and in the same drawers, if what these offered then was saturated; whatever has been driven in
between, in any number of processes that load the file. -/
theorem learning_stops (P : Platform) {w₁ w w' v v' : World} {fs es : List Event}
    {raw : GaugeArrival} {ok2 : Bool} (hfs : ∀ e ∈ fs, e.Loads) (hes : ∀ e ∈ es, e.Loads)
    (hw : run (step P) w₁ (.start raw true ok2 :: fs) = some w) {clock clock' : Clock}
    {lat lon lat' lon' : Option ℚ} (hw' : step P w (.predict clock lat lon) = some w')
    (hv : run (step P) w' es = some v) (hv' : step P v (.predict clock' lat' lon') = some v')
    (hcode : v'.mFirstGPS.codeS = w'.mFirstGPS.codeS) (hzero : w'.mFirstGPS.codeS ≠ 0)
    (hdrawers : ∀ a, drawerIdx v'.mFirstGPS.toTripRecord a = drawerIdx w'.mFirstGPS.toTripRecord a)
    (hsat : Saturated 5 3 [] (offered P w'.toGaugeArrival)) :
    (v'.mGpsRetLst.map fun e => (e.code, e.timeD)).Perm
      (w'.mGpsRetLst.map fun e => (e.code, e.timeD)) := by
  obtain ⟨hknows, hknows', hfile⟩ := knows_later hzero hfs hes hw hw' hv
  obtain rfl := Option.some_inj.mp hw'
  obtain rfl := Option.some_inj.mp hv'
  have hidx := funext hdrawers
  have hknown := offered_predict hknows rfl
  have hlater := offered_predict hknows' hcode
  rw [hidx, hfile] at hlater
  have hcodes := codes_predict (P := P) (w := w) clock lat lon
  rw [map_arrivals_predict hknows rfl, map_arrivals_predict hknows' hcode, hidx, hfile]
  rw [hknown] at hsat hcodes
  -- the destinations
  have hsame : ((predictDestinationAtStart P clock' lat' lon' v).mGpsRetLst.map (·.code)).Perm
      ((predictDestinationAtStart P clock lat lon w).mGpsRetLst.map (·.code)) := by
    refine (codes_predict clock' lat' lon').trans (List.Perm.trans ?_ hcodes.symm)
    rw [hlater, firsts_flatten_of_saturated (by norm_num) hsat]
    exact List.forall₂_map_left_iff.mpr (List.forall₂_map_right_iff.mpr
      (List.forall₂_same.mpr fun a _ => ⟨prefix_offers _ _, length_offers_le _⟩))
  refine (hsame.map _).trans (List.Perm.of_eq (List.map_congr_left fun d hd => ?_))
  rw [origin_append _ hsat (hcodes.subset hd)]

/-- Three trips to different places, after a request that registers the place with the code 0. -/
def threeTrips : List Event :=
  .start blankInstance true true :: .predict .morning (some 9) (some 9) ::
    (trip ⟨1, 2⟩ ++ trip ⟨1, 3⟩ ++ trip ⟨1, 4⟩)

/-- A new habit, and a restart. -/
def newHabit : List Event :=
  trip ⟨1, 5⟩ ++ trip ⟨1, 5⟩ ++ trip ⟨1, 5⟩ ++ [.start blankInstance true true]

theorem learning_stops_newHabit :
    ∃ w v, run (step .keyed) (firstWorld blankInstance false none) threeTrips = some w ∧
      run (step .keyed) (askHome w) newHabit = some v ∧ v.behaviorFile.map List.length = some 6 ∧
      ((askHome v).mGpsRetLst.map fun e => (e.code, e.timeD)).Perm
        ((askHome w).mGpsRetLst.map fun e => (e.code, e.timeD)) := by
  have hwSome : (run (step .keyed) (firstWorld blankInstance false none) threeTrips).map
      (fun w => ((askHome w).mFirstGPS.codeS,
        decide (Saturated 5 3 [] (offered .keyed (askHome w).toGaugeArrival)))) =
        some (1, true) := by decide +kernel
  have hvSome : ((run (step .keyed) (firstWorld blankInstance false none) threeTrips).bind
      fun w => run (step .keyed) (askHome w) newHabit).map
        (fun v => (v.behaviorFile.map List.length, (askHome v).mFirstGPS.codeS)) =
        some (some 6, 1) := by decide +kernel
  obtain ⟨w, hw, heq⟩ := Option.map_eq_some_iff.mp hwSome
  obtain ⟨hcode, hsat⟩ := Prod.mk.inj heq
  obtain ⟨v, hv, heq'⟩ := Option.map_eq_some_iff.mp hvSome
  rw [hw, Option.bind_some] at hv
  obtain ⟨hlen, hcode'⟩ := Prod.mk.inj heq'
  have hsame : (askHome v).mFirstGPS.codeS = (askHome w).mFirstGPS.codeS := hcode'.trans hcode.symm
  refine ⟨w, v, hw, hv, hlen, learning_stops .keyed ?_ ?_ hw rfl hv rfl hsame
    (by rw [hcode]; decide) (sameQuery_predict hsame).drawerIdx_eq (of_decide_eq_true hsat)⟩
  · simp [trip, Event.Loads]
  · simp [newHabit, trip, Event.Loads]

/-- **New habits fade.**  Where each drawer has offered another destination first, the rate of a
destination is at most 4 over the number of trips from the place that the file holds at the time of
the later request, however many of these go there; whatever has been driven in between, in any
number of processes that load the file. -/
theorem habits_fade (P : Platform) (hP : P.endIsNull = true) {w₁ w w' v v' : World}
    {fs es : List Event} {raw : GaugeArrival} {ok2 : Bool} (hfs : ∀ e ∈ fs, e.Loads)
    (hes : ∀ e ∈ es, e.Loads) (hw : run (step P) w₁ (.start raw true ok2 :: fs) = some w)
    {clock clock' : Clock} {lat lon lat' lon' : Option ℚ}
    (hw' : step P w (.predict clock lat lon) = some w') (hv : run (step P) w' es = some v)
    (hv' : step P v (.predict clock' lat' lon') = some v')
    (hcode : v'.mFirstGPS.codeS = w'.mFirstGPS.codeS) (hzero : w'.mFirstGPS.codeS ≠ 0)
    (hdrawers : ∀ a, drawerIdx v'.mFirstGPS.toTripRecord a = drawerIdx w'.mFirstGPS.toTripRecord a)
    {e : GPSPosResRate} (he : e ∈ v'.mGpsRetLst)
    (hfirst : ∀ ds ∈ offered P w'.toGaugeArrival, ∃ d, ds.head? = some d ∧ d ≠ e.code) :
    e.rate ≤
      4 / ((v.behaviorFile.getD []).filter fun r => r.codeS = w'.mFirstGPS.codeS).length := by
  obtain ⟨hknows, hknows', hfile⟩ := knows_later hzero hfs hes hw hw' hv
  obtain rfl := Option.some_inj.mp hw'
  obtain rfl := Option.some_inj.mp hv'
  have hknown := offered_predict hknows rfl
  have hlater := offered_predict hknows' hcode
  rw [funext hdrawers, hfile] at hlater
  have hother : ∀ ds ∈ offered P (predictDestinationAtStart P clock' lat' lon' v).toGaugeArrival,
      ds.head? ≠ some e.code := by
    rw [hlater]
    intro ds hds
    obtain ⟨a, ha, rfl⟩ := List.mem_map.mp hds
    obtain ⟨d, hd, hne⟩ := hfirst _ (by rw [hknown]; exact List.mem_map_of_mem ha)
    rw [head?_offers_append _ hd]
    exact fun heq => hne (Option.some_inj.mp heq)
  have hcount : startCount v.mBehavGpsVec
      (predictDestinationAtStart P clock' lat' lon' v).mFirstGPS.codeS.toInt =
        ((v.behaviorFile.getD []).filter fun r =>
          r.codeS = (predictDestinationAtStart P clock lat lon w).mFirstGPS.codeS).length := by
    rw [hcode, ← hknows'.records, recordsFrom, List.filter_map, List.length_map, startCount,
      List.countP_eq_length_filter]
    simp only [Int16.toInt_inj]
    rfl
  rw [predict_eq_withTrips hknows'.fromTrips] at he
  rw [← hcount]
  refine rate_le_of_not_first P hP v.mBehavGpsVec
    (predictDestinationAtStart P clock' lat' lon' v).toGaugeArrival he ?_
  rwa [offered_withTrips_predict hknows'.fromTrips]

/-- Five more trips to the second destination, and a restart. -/
def secondHabit : List Event :=
  (List.replicate 5 (trip ⟨1, 3⟩)).flatten ++ [.start blankInstance true true]

theorem habits_fade_secondHabit :
    ∃ w v e, run (step .keyed) (firstWorld blankInstance false none) threeTrips = some w ∧
      run (step .keyed) (askHome w) secondHabit = some v ∧ e ∈ (askHome v).mGpsRetLst ∧
      e.code = 3 ∧ e.rate ≤ 4 / (8 : ℕ) := by
  have hwSome : (run (step .keyed) (firstWorld blankInstance false none) threeTrips).map
      (fun w => ((askHome w).mFirstGPS.codeS, offered .keyed (askHome w).toGaugeArrival)) =
        some (1, List.replicate 4 [2, 3, 4]) := by decide +kernel
  have hvSome : ((run (step .keyed) (firstWorld blankInstance false none) threeTrips).bind
      fun w => run (step .keyed) (askHome w) secondHabit).map
        (fun v => ((askHome v).mFirstGPS.codeS,
          ((v.behaviorFile.getD []).filter fun r => r.codeS = 1).length,
          (askHome v).mGpsRetLst.any fun e => e.code = 3)) = some (1, 8, true) := by
    decide +kernel
  obtain ⟨w, hw, heq⟩ := Option.map_eq_some_iff.mp hwSome
  obtain ⟨hcode, hoffered⟩ := Prod.mk.inj heq
  obtain ⟨v, hv, heq'⟩ := Option.map_eq_some_iff.mp hvSome
  rw [hw, Option.bind_some] at hv
  obtain ⟨hcode', heq'⟩ := Prod.mk.inj heq'
  obtain ⟨hlen, hany⟩ := Prod.mk.inj heq'
  obtain ⟨e, he, hthree⟩ := List.any_eq_true.mp hany
  have hsame : (askHome v).mFirstGPS.codeS = (askHome w).mFirstGPS.codeS := hcode'.trans hcode.symm
  refine ⟨w, v, e, hw, hv, he, of_decide_eq_true hthree, ?_⟩
  have hask : step .keyed w (.predict .morning (some 1) (some 1)) = some (askHome w) := rfl
  have hfade := habits_fade .keyed rfl (by simp [trip, Event.Loads])
    (by simp [secondHabit, trip, Event.Loads]) hw hask hv rfl hsame (by rw [hcode]; decide)
    (sameQuery_predict hsame).drawerIdx_eq he fun ds hds => ⟨2, ?_, ?_⟩
  · rwa [hcode, hlen] at hfade
  · rw [hoffered] at hds
    rw [List.eq_of_mem_replicate hds]
    rfl
  · rw [of_decide_eq_true hthree]
    decide

end Gauge
