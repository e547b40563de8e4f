import Gauge.Recorder.Aliasing
import Gauge.Recorder.Restart

/-!
The place that `getLatLonByCode` reports for a code, and the places that `printResult` puts into
the list of destinations.

The loop of `getLatLonByCode` searches with the variable that it returns, so that the zeros it
starts from are lost in the first round.

* `placeRight_iff`: when the reported place is the one of the code, or zeros if it has none.
* `printsPlaces_iff`: when all places of a printed prediction are those of their codes.
* `printsPlaces_run`: within a process they are, if its destinations are registered at the start.
* `knownDestinations_start_iff`: when they are after a load.  The two files may have come apart
  (`not_forall_printsPlaces`).
-/

namespace Gauge

open Machine

/-- Some entry has the code. -/
def Registered (vec : List GPSPos) (code : ℤ) : Prop := ∃ p ∈ vec, p.code.toInt = code

/-- The `GPS_POS pos = {0}` that the loop starts from. -/
def zeroRecord : GPSPos := ⟨zeroPos, 0⟩

/-- The first entry with the code, and zeros if there is none. -/
def placeOf (vec : List GPSPos) (code : ℤ) : GPSPos :=
  (vec.find? fun p => p.code.toInt = code).getD zeroRecord

/-- `getLatLonByCode` reports no wrong place.  The zeros of a code without an entry are not
the coordinates of another position, even if one lies there. -/
structure PlaceRight (vec : List GPSPos) (code : ℤ) : Prop where
  first : ∀ p, vec.find? (fun p => p.code.toInt = code) = some p → getLatLonByCode vec code = p
  zeros : ¬ Registered vec code → getLatLonByCode vec code = zeroRecord
  apart : ¬ Registered vec code → ∀ p ∈ vec, p.toLatLon ≠ zeroPos →
    (getLatLonByCode vec code).toLatLon ≠ p.toLatLon

/-! ### One code -/

lemma Registered.mono {vec vec' : List GPSPos} {code : ℤ} (h : Registered vec code)
    (hvec : vec <+: vec') : Registered vec' code := by
  obtain ⟨p, hp, hcode⟩ := h
  exact ⟨p, hvec.subset hp, hcode⟩

lemma find?_eq_none_iff {vec : List GPSPos} {code : ℤ} :
    vec.find? (fun p => p.code.toInt = code) = none ↔ ¬ Registered vec code := by
  rw [List.find?_eq_none, Registered]
  simp only [decide_eq_true_eq, not_exists, not_and]

/-- The result agrees with `placeOf`, as far as `f` tells, exactly for a registered code or if
the last entry agrees with the zeros. -/
lemma map_getLatLonByCode_eq_iff {γ : Type*} (f : GPSPos → γ) (vec : List GPSPos) (code : ℤ) :
    f (getLatLonByCode vec code) = f (placeOf vec code) ↔
      Registered vec code ∨ f (vec.getLastD zeroRecord) = f zeroRecord := by
  have h := FirstMatch.map_searchVar_eq_iff (fun p : GPSPos => p.code.toInt = code) f zeroRecord vec
  rw [← latLonLoop_eq_searchVar] at h
  simp only [decide_eq_true_eq] at h
  exact h

/-- No wrong place is reported exactly if `placeOf` is. -/
lemma placeRight_iff_eq_placeOf {vec : List GPSPos} {code : ℤ} :
    PlaceRight vec code ↔ getLatLonByCode vec code = placeOf vec code := by
  constructor
  · intro h
    cases hfind : vec.find? (fun p => p.code.toInt = code) with
    | some p => rw [h.first p hfind, placeOf, hfind, Option.getD_some]
    | none => rw [h.zeros (find?_eq_none_iff.mp hfind), placeOf, hfind, Option.getD_none]
  · intro h
    have hzeros : ¬ Registered vec code → getLatLonByCode vec code = zeroRecord := fun hno => by
      rw [h, placeOf, find?_eq_none_iff.mpr hno, Option.getD_none]
    refine ⟨fun p hfind => ?_, hzeros, fun hno p _ hp => ?_⟩
    · rw [h, placeOf, hfind, Option.getD_some]
    · rw [hzeros hno]
      exact hp.symm

/-- **When no wrong place is reported**: for a code that an entry has, and for every other code
if there is no entry or the last one is the record of zeros. -/
theorem placeRight_iff (vec : List GPSPos) (code : ℤ) :
    PlaceRight vec code ↔
      Registered vec code ∨ vec = [] ∨ vec.getLast? = some zeroRecord := by
  have hlast : vec.getLastD zeroRecord = zeroRecord ↔
      vec = [] ∨ vec.getLast? = some zeroRecord := by
    induction vec using List.reverseRecOn with
    | nil => simp
    | append_singleton ps p _ => simp
  rw [placeRight_iff_eq_placeOf, ← hlast]
  exact map_getLatLonByCode_eq_iff id vec code

/-- With one registered position, a code that no entry has is reported to be there. -/
theorem not_placeRight_one : ¬ PlaceRight [newPos 0 ⟨1, 1⟩] 1 := by
  intro h
  have hno : ¬ Registered [newPos 0 ⟨1, 1⟩] 1 := by
    rintro ⟨p, hp, hcode⟩
    rw [List.mem_singleton.mp hp] at hcode
    exact absurd hcode (by decide)
  exact h.apart hno _ (List.mem_singleton.mpr rfl) (by decide) rfl

/-! ### A printed prediction -/

/-- The loop of `printResult`, which puts a place into each entry of the result list. -/
def putPlaces (vec : List GPSPos) (l : List GPSPosResRate) : List GPSPosResRate :=
  l.map fun e =>
    let pos := getLatLonByCode vec e.code.toInt
    { e with lat := pos.lat, lon := pos.lon }

/-- `GaugeArrival::printResult`. -/
def printResult (P : Platform) (s : GaugeArrival) : GaugeArrival :=
  let s := getDestAndRate P s
  { s with mGpsRetLst := putPlaces s.mGpsPosVec s.mGpsRetLst }

/-- The place of an entry of the result list. -/
def GPSPosResRate.toLatLon (e : GPSPosResRate) : LatLon := ⟨e.lat, e.lon⟩

/-- Every destination is printed with the place of its code. -/
def PrintsPlaces (P : Platform) (s : GaugeArrival) : Prop :=
  ∀ e ∈ (printResult P s).mGpsRetLst,
    e.toLatLon = (placeOf s.mGpsPosVec e.code.toInt).toLatLon

instance (P : Platform) (s : GaugeArrival) : Decidable (PrintsPlaces P s) :=
  inferInstanceAs (Decidable (∀ e ∈ (printResult P s).mGpsRetLst, _))

/-- **When the places of a printed prediction are right**: if every destination has been
registered, or the last position is at the zeros. -/
theorem printsPlaces_iff (P : Platform) (s : GaugeArrival) :
    PrintsPlaces P s ↔
      (∀ e ∈ (getDestAndRate P s).mGpsRetLst, Registered s.mGpsPosVec e.code.toInt) ∨
        (s.mGpsPosVec.getLastD zeroRecord).toLatLon = zeroPos := by
  have hentry : PrintsPlaces P s ↔ ∀ e ∈ (getDestAndRate P s).mGpsRetLst,
      (getLatLonByCode s.mGpsPosVec e.code.toInt).toLatLon =
        (placeOf s.mGpsPosVec e.code.toInt).toLatLon :=
    List.forall_mem_map
  have hiff := map_getLatLonByCode_eq_iff GPSPos.toLatLon s.mGpsPosVec
  rw [hentry]
  constructor
  · intro h
    by_cases hlast : (s.mGpsPosVec.getLastD zeroRecord).toLatLon = zeroPos
    · exact Or.inr hlast
    · exact Or.inl fun e he => ((hiff e.code.toInt).mp (h e he)).resolve_right hlast
  · rintro (h | hlast) e he
    · exact (hiff e.code.toInt).mpr (Or.inl (h e he))
    · exact (hiff e.code.toInt).mpr (Or.inr hlast)

/-! ### Destinations within a process -/

/-- Every destination in a drawer has been registered. -/
structure KnownDestinations (w : World) : Prop where
  indexed : Indexed w.mGpsPosVec
  codeD : ∀ a i, ∀ e ∈ w.drawers a i, Registered w.mGpsPosVec e.codeD.toInt

/-- The code of a search is registered by the handler that made the search. -/
lemma registered_search {vec : List GPSPos} (h : Indexed vec) (q : LatLon) :
    Registered (searchOrAppend vec q) (Int16.ofNat (searchPos vec q)).toInt := by
  have hlt := searchPos_lt_searchOrAppend vec q
  refine ⟨_, List.getElem_mem hlt, ?_⟩
  rw [indexed_searchOrAppend h q _ hlt]

/-- An entry of a drawer has the destination of the recorded trip or of an older entry. -/
lemma codeD_of_mem_recordTrip {P : Platform} {h : History} {b e : BehaviorGPS}
    {a : DrawerArray} {i : ℤ} (he : e ∈ (recordTrip P h b).drawers a i) :
    e.codeD = b.codeD ∨ ∃ f ∈ h.drawers a i, f.codeD = e.codeD := by
  rw [recordTrip_drawers] at he
  split at he
  · refine (route_of_mem_put he).imp (congrArg Prod.snd) ?_
    rintro ⟨f, hf, hroute⟩
    exact ⟨f, hf, congrArg Prod.snd hroute⟩
  · exact Or.inr ⟨e, he, rfl⟩

/-- A save puts the destination of `mLastGPS` into drawers, if anything. -/
lemma codeD_of_mem_save {P : Platform} {ok1 ok2 : Bool} {w : World} {e : BehaviorGPS}
    {a : DrawerArray} {i : ℤ} (he : e ∈ (saveDriverBehavior P ok1 ok2 w).drawers a i) :
    e.codeD = w.mLastGPS.codeD ∨ ∃ f ∈ w.drawers a i, f.codeD = e.codeD := by
  cases ok1 with
  | false => exact Or.inr ⟨e, he, rfl⟩
  | true =>
      rw [saveDriverBehavior_toHistory] at he
      exact codeD_of_mem_recordTrip he

/-- A step of the process registers every destination that it puts into a drawer. -/
lemma knownDestinations_step {P : Platform} {w w' : World} {e : Event} (he : ¬ e.IsStart)
    (hw : KnownDestinations w) (h : step P w e = some w') : KnownDestinations w' := by
  have hgrow := prefix_of_step he h
  have hindexed := indexed_of_step he hw.indexed h
  -- what was in a drawer before the step stays registered
  have hold : w'.drawers = w.drawers → KnownDestinations w' := fun heq =>
    ⟨hindexed, fun a i f hf => (hw.codeD a i f (heq ▸ hf)).mono hgrow⟩
  cases e with
  | start raw ok1 ok2 => exact absurd trivial he
  | signal fix =>
      obtain rfl := Option.some_inj.mp h
      exact hold (congrArg History.drawers (signal_toHistory fix w))
  | callback ok1 ok2 =>
      obtain ⟨-, ⟨-, rfl⟩ | ⟨-, rfl⟩⟩ := callback_some h
      · exact hold rfl
      · refine ⟨hindexed, fun a i f hf => ?_⟩
        rcases codeD_of_mem_save hf with hnew | ⟨g, hg, hcode⟩
        · show Registered (saveDriverBehavior P ok1 ok2 (closeTrip w)).mGpsPosVec _
          rw [saveDriverBehavior_mGpsPosVec, hnew]
          exact registered_search hw.indexed w.curPos
        · rw [← hcode]
          exact (hw.codeD a i g hg).mono hgrow
  | predict clock lat lon =>
      obtain rfl := Option.some_inj.mp h
      exact hold rfl

/-- A predicted destination is one of a drawer. -/
lemma exists_of_mem_getDestAndRate {P : Platform} {s : GaugeArrival} {e : GPSPosResRate}
    (he : e ∈ (getDestAndRate P s).mGpsRetLst) :
    ∃ a i, ∃ f ∈ s.drawers a i, f.codeD = e.code := by
  obtain ⟨cw, hcw, hcode⟩ := List.mem_map.mp (code_mem_destinations he)
  obtain ⟨aw, -, hcw⟩ := List.mem_flatMap.mp hcw
  obtain ⟨c, hc, rfl⟩ := List.mem_map.mp hcw
  obtain ⟨f, hf, -, rfl⟩ := exists_of_mem_getDestRateFromDraw P hc
  exact ⟨aw.1, _, f, hf, hcode⟩

/-- **The places of a printed prediction** are right after any run of a process that begins with
registered destinations only. -/
theorem printsPlaces_run (P : Platform) {w w' : World} {es : List Event}
    (hw : KnownDestinations w) (hes : ∀ e ∈ es, ¬ e.IsStart)
    (hrun : run (step P) w es = some w') : PrintsPlaces P w'.toGaugeArrival := by
  have hknown : KnownDestinations w' :=
    run_inv (fun _ _ _ he hv hstep => knownDestinations_step he hv hstep) hes hw hrun
  refine (printsPlaces_iff P w'.toGaugeArrival).mpr (Or.inl fun e he => ?_)
  obtain ⟨a, i, f, hf, hcode⟩ := exists_of_mem_getDestAndRate he
  rw [← hcode]
  exact hknown.codeD a i f hf

/-! ### Destinations of earlier processes -/

/-- **A new process knows its destinations** exactly if those of the file have been loaded as
positions too. -/
theorem knownDestinations_start_iff {P : Platform} {w w' : World} {raw : GaugeArrival}
    {ok1 ok2 : Bool} (h : step P w (.start raw ok1 ok2) = some w') :
    KnownDestinations w' ↔
      ∀ t ∈ loadedTrips ok1 w.behaviorFile, Registered w'.mGpsPosVec t.codeD.toInt := by
  have hhist : w'.toHistory = recordTrips P .empty (loadedTrips ok1 w.behaviorFile) := by
    rw [← Option.some_inj.mp h]
    exact reload_toHistory P raw ok1 ok2 w
  have hiff := forall_codeD_recordTrips_iff P (loadedTrips ok1 w.behaviorFile)
    (p := fun c => Registered w'.mGpsPosVec c.toInt)
  rw [← hhist] at hiff
  exact ⟨fun hw => hiff.mp hw.codeD, fun hcodes => ⟨(closed_of_start h).1, hiff.mpr hcodes⟩⟩

/-- If a trip is saved and its positions are not, then the next process prints the start of a
prediction for its destination. -/
lemma not_forall_printsPlaces :
    ¬ ∀ (P : Platform) (raw : GaugeArrival) (es : List Event) (w' : World),
      run (step P) (firstWorld raw false none) es = some w' →
        PrintsPlaces P w'.toGaugeArrival := by
  intro hall
  have hrun : ((run (step .keyed) (firstWorld blankInstance false none)
      (drive ⟨3, 3⟩ ++ [.callback true false, .start blankInstance true true,
        .predict .morning (some 5) (some 5)])).map fun w =>
          decide (PrintsPlaces .keyed w.toGaugeArrival)) = some false := by decide +kernel
  obtain ⟨w', hw', hprints⟩ := Option.map_eq_some_iff.mp hrun
  exact of_decide_eq_false hprints (hall .keyed blankInstance _ w' hw')

end Gauge
