import Gauge.Recorder.Failures
import Gauge.Recorder.JsonHandler

/-!
The two handlers whose argument is a JSON text, from the text on: the GPS signal and the
prediction request.  The parser of `jsoncpp` is a parameter, `none` where it fails.

* `unusable_iff`: when a signal that cannot be used changes nothing.
* `malformed_iff`: when a prediction request that cannot be used changes nothing.
-/

namespace Gauge

open Json

/-- How a handler ends. -/
inductive Exit
  | returned
  /-- By an exception or a failed assertion of `jsoncpp`. -/
  | thrown
  deriving DecidableEq

namespace Payload

/-- `GaugeArrival::onGPSDataNDRServiceIPCSignal`, with the reading of the clock. -/
def onGPSDataNDRServiceIPCSignal (parse : String → Option Value) (sigName data : String)
    (clock : Clock) (w : World) : World × Exit :=
  if sigName = "GPSInfo" then
    match parse data with
    | none => (w, .returned)
    | some mParms =>
        -- `mGpsInfo` is cleared, and its date and time are printed
        let w := { w with mGpsInfo := Fix.gpsInfo ⟨clock, ⟨0, 0⟩⟩ }
        match mParms.memberAsDouble "latitude" with
        | none => (w, .thrown)
        | some latitude =>
            let w := { w with mGpsInfo := Fix.gpsInfo ⟨clock, ⟨latitude, 0⟩⟩ }
            match mParms.memberAsDouble "longitude" with
            | none => (w, .thrown)
            | some longitude =>
                (Gauge.onGPSDataNDRServiceIPCSignal ⟨clock, ⟨latitude, longitude⟩⟩ w, .returned)
  else (w, .returned)

/-- `GaugeArrival::predictDestinationAtStart`, with the reading of the clock.  The values that
the validators return are not looked at. -/
def predictDestinationAtStart (P : Platform) (parse : String → Option Value) (parms : String)
    (clock : Clock) (w : World) : World × Exit :=
  match parseJsonString parse parms with
  | none => (Gauge.predictDestinationAtStart P clock none none w, .returned)
  | some jsonMsg =>
      match validateJsonDouble "latitude" jsonMsg w.mStartLat with
      | none => (w, .thrown)
      | some (_, lat) =>
          let w := { w with mStartLat := lat }
          match validateJsonDouble "longitude" jsonMsg w.mStartLon with
          | none => (w, .thrown)
          | some (_, lon) =>
              let w := { w with mStartLon := lon }
              (Gauge.predictDestinationAtStart P clock none none w, .returned)

end Payload

/-! ### Signals -/

/-- The members that a signal may change are as before. -/
structure RecorderUnchanged (w w' : World) : Prop where
  mGpsInfo : w'.mGpsInfo = w.mGpsInfo
  mCurGPS : w'.mCurGPS = w.mCurGPS
  mFirstGPS : w'.mFirstGPS = w.mFirstGPS
  mGetFirstGPSSig : w'.mGetFirstGPSSig = w.mGetFirstGPSSig
  curPos : w'.curPos = w.curPos
  mGpsPosVec : w'.mGpsPosVec = w.mGpsPosVec
  mLastGPSTimer : w'.mLastGPSTimer = w.mLastGPSTimer

/-- The text is not JSON, or an object without a number as latitude or as longitude. -/
def Unusable (parse : String → Option Value) (data : String) : Prop :=
  ∀ v, parse data = some v → ∃ members, v = .objectValue members ∧
    (((members.lookup "latitude").getD .nullValue).isNumber = false ∨
      ((members.lookup "longitude").getD .nullValue).isNumber = false)

/-- What a signal stores before it stops is there already: its time stamp and the coordinates
that could be converted, and if it is accepted, also the current place, the end of the trip, an
open trip and a timer. -/
def Restores (clock : Clock) (w : World) : Option ℚ → Option ℚ → Prop
  | none, _ => w.mGpsInfo = Fix.gpsInfo ⟨clock, ⟨0, 0⟩⟩
  | some lat, none => w.mGpsInfo = Fix.gpsInfo ⟨clock, ⟨lat, 0⟩⟩
  | some lat, some lon =>
      w.mGpsInfo = Fix.gpsInfo ⟨clock, ⟨lat, lon⟩⟩ ∧ w.curPos = ⟨lat, lon⟩ ∧
        w.mCurGPS.dateD = clock.date.packed ∧ w.mCurGPS.timeD = clock.time.packed ∧
        w.mGetFirstGPSSig ≠ 0 ∧ w.mLastGPSTimer = true

/-- An accepted signal changes nothing if it is one more of the same. -/
lemma recorderUnchanged_signal_iff (clock : Clock) (lat lon : ℚ) (w : World) :
    RecorderUnchanged w (onGPSDataNDRServiceIPCSignal ⟨clock, ⟨lat, lon⟩⟩ w) ↔
      Restores clock w (some lat) (some lon) := by
  rcases eq_or_ne w.mGetFirstGPSSig 0 with hflag | hflag
  · refine iff_of_false (fun h => ?_) fun h => h.2.2.2.2.1 hflag
    have hone := h.mGetFirstGPSSig
    rw [signal_first _ hflag, hflag] at hone
    exact one_ne_zero hone
  · rw [signal_next _ hflag]
    refine ⟨fun h => ?_, fun ⟨hinfo, hpos, hdate, htime, _, htimer⟩ => ?_⟩
    · have hcur := h.mCurGPS
      refine ⟨h.mGpsInfo.symm, h.curPos.symm, ?_, ?_, hflag, h.mLastGPSTimer.symm⟩
      · rw [← hcur]
      · rw [← hcur]
    · refine ⟨hinfo.symm, ?_, rfl, rfl, hpos.symm, rfl, htimer.symm⟩
      show { w.mCurGPS with dateD := clock.date.packed, timeD := clock.time.packed } = w.mCurGPS
      rw [← hdate, ← htime]

/-- A signal that stops after it has written to `mGpsInfo` only. -/
lemma recorderUnchanged_mGpsInfo_iff (w : World) (info : GPSInfo) :
    RecorderUnchanged w { w with mGpsInfo := info } ↔ w.mGpsInfo = info :=
  ⟨fun h => h.mGpsInfo.symm, fun h => ⟨h.symm, rfl, rfl, rfl, rfl, rfl, rfl⟩⟩

/-- What any signal changes. -/
lemma recorderUnchanged_iff (parse : String → Option Value) (data : String) (clock : Clock)
    (w : World) :
    RecorderUnchanged w
        (Payload.onGPSDataNDRServiceIPCSignal parse "GPSInfo" data clock w).1 ↔
      ∀ v, parse data = some v →
        Restores clock w (v.memberAsDouble "latitude") (v.memberAsDouble "longitude") := by
  rw [Payload.onGPSDataNDRServiceIPCSignal, if_pos rfl]
  cases parse data with
  | none => exact iff_of_true ⟨rfl, rfl, rfl, rfl, rfl, rfl, rfl⟩ (by simp)
  | some v =>
      simp only [Option.some.injEq, forall_eq']
      cases v.memberAsDouble "latitude" with
      | none => exact recorderUnchanged_mGpsInfo_iff w _
      | some lat =>
          cases v.memberAsDouble "longitude" with
          | none => exact recorderUnchanged_mGpsInfo_iff w _
          | some lon => exact recorderUnchanged_signal_iff clock lat lon w

/-- **A signal that cannot be used changes nothing**, exactly if the text cannot be parsed or
what is stored until the handler stops is there already. -/
theorem unusable_iff (parse : String → Option Value) (data : String) (clock : Clock)
    (w : World) (h : Unusable parse data) :
    RecorderUnchanged w
        (Payload.onGPSDataNDRServiceIPCSignal parse "GPSInfo" data clock w).1 ↔
      ∀ members, parse data = some (.objectValue members) →
        Restores clock w (((members.lookup "latitude").getD .nullValue).asDouble)
          (((members.lookup "longitude").getD .nullValue).asDouble) := by
  rw [recorderUnchanged_iff]
  refine ⟨fun hall members hv => hall _ hv, fun hall v hv => ?_⟩
  obtain ⟨members, rfl, -⟩ := h v hv
  exact hall members hv

/-- A second empty object at the same time changes nothing in the trip that the first one has
opened. -/
theorem unusable_iff_second_signal :
    RecorderUnchanged
      (onGPSDataNDRServiceIPCSignal ⟨.morning, ⟨0, 0⟩⟩ (firstWorld blankInstance false none))
      (Payload.onGPSDataNDRServiceIPCSignal (fun _ => some (.objectValue [])) "GPSInfo"
        "\x7b\x7d" .morning
        (onGPSDataNDRServiceIPCSignal ⟨.morning, ⟨0, 0⟩⟩
          (firstWorld blankInstance false none))).1 := by
  have hun : Unusable (fun _ => some (.objectValue [])) "\x7b\x7d" := fun v hv =>
    ⟨[], (Option.some_inj.mp hv).symm, .inl rfl⟩
  refine (unusable_iff _ _ .morning _ hun).mpr fun members hmembers => ?_
  obtain rfl := Value.objectValue.inj (Option.some_inj.mp hmembers)
  exact ⟨rfl, rfl, rfl, rfl, by decide, rfl⟩

/-- The empty object opens a trip at the place with the coordinates zero. -/
theorem not_forall_unusable :
    ¬ ∀ (P : Platform) (parse : String → Option Value) (data : String) (clock : Clock)
      (w : World), Reachable P w → Unusable parse data →
        RecorderUnchanged w
          (Payload.onGPSDataNDRServiceIPCSignal parse "GPSInfo" data clock w).1 := by
  intro h
  have hun : Unusable (fun _ => some (.objectValue [])) "\x7b\x7d" := by
    intro v hv
    exact ⟨[], (Option.some_inj.mp hv).symm, Or.inl rfl⟩
  have hone := (h .keyed _ _ .morning _
    ⟨firstWorld blankInstance false none, blankInstance, true, true, [], rfl⟩ hun).mGetFirstGPSSig
  revert hone
  decide

/-- A signal with numbers as coordinates is accepted. -/
lemma signal_of_numbers {parse : String → Option Value} {data : String} (clock : Clock) (w : World)
    {members : List (String × Value)} (h : parse data = some (.objectValue members))
    (hlat : ((members.lookup "latitude").getD .nullValue).isNumber = true)
    (hlon : ((members.lookup "longitude").getD .nullValue).isNumber = true) :
    ∃ pos, Payload.onGPSDataNDRServiceIPCSignal parse "GPSInfo" data clock w =
      (onGPSDataNDRServiceIPCSignal ⟨clock, pos⟩ w, .returned) := by
  obtain ⟨lat, hlat⟩ := Option.isSome_iff_exists.mp (Value.isSome_asDouble_of_isNumber hlat)
  obtain ⟨lon, hlon⟩ := Option.isSome_iff_exists.mp (Value.isSome_asDouble_of_isNumber hlon)
  refine ⟨⟨lat, lon⟩, ?_⟩
  rw [Payload.onGPSDataNDRServiceIPCSignal, if_pos rfl, h]
  simp only [Value.memberAsDouble, Value.member, Option.bind_some, hlat, hlon]
  rfl

/-! ### Prediction requests -/

/-- The members that a prediction request may change are as before. -/
structure RequestIgnored (w w' : World) : Prop where
  mStartLat : w'.mStartLat = w.mStartLat
  mStartLon : w'.mStartLon = w.mStartLon
  mGpsPosVec : w'.mGpsPosVec = w.mGpsPosVec
  mFirstGPS : w'.mFirstGPS = w.mFirstGPS
  mGpsRetLst : w'.mGpsRetLst = w.mGpsRetLst

/-- The member of an object, if it is a double. -/
def doubleMember (members : List (String × Value)) (name : String) : Option ℚ :=
  match members.lookup name with
  | some (.realValue x) => some x
  | _ => none

/-- The text cannot be parsed, or it is an object without a double as latitude or as
longitude. -/
def Malformed (parse : String → Option Value) (parms : String) : Prop :=
  ∀ v, Payload.parseJsonString parse parms = some v → ∃ members, v = .objectValue members ∧
    (doubleMember members "latitude" = none ∨ doubleMember members "longitude" = none)

/-- The trip start is the one that a request from the stored place would set, and the result list
is what it predicts. -/
structure UpToDate (P : Platform) (clock : Clock) (w : World) : Prop where
  registered : searchPos w.mGpsPosVec w.startPos < w.mGpsPosVec.length
  codeS : w.mFirstGPS.codeS = Int16.ofNat (searchPos w.mGpsPosVec w.startPos)
  date : w.mFirstGPS.date = clock.date.packed
  time : w.mFirstGPS.time = clock.time.packed
  predicted : (getDestAndRate P w.toGaugeArrival).mGpsRetLst = w.mGpsRetLst

/-- The validator stores a double and nothing else. -/
lemma validateJsonDouble_object (name : String) (members : List (String × Value)) (out : ℚ) :
    (Payload.validateJsonDouble name (.objectValue members) out).map (·.2) =
      some ((doubleMember members name).getD out) := by
  rw [Payload.validateJsonDouble, Payload.validateJson, doubleMember]
  cases members with
  | nil => rfl
  | cons m ms =>
      simp only [Value.empty, List.isEmpty_cons, if_true, Value.get, Value.member]
      cases (m :: ms).lookup name with
      | none => rfl
      | some v => cases v <;> rfl

/-- A request that brings no new coordinates changes nothing if everything is up to date. -/
lemma requestIgnored_none_iff (P : Platform) (clock : Clock) (w : World) :
    RequestIgnored w (predictDestinationAtStart P clock none none w) ↔ UpToDate P clock w := by
  set first : BehaviorGPS := { w.mFirstGPS with
    codeS := Int16.ofNat (searchPos w.mGpsPosVec w.startPos)
    date := clock.date.packed
    time := clock.time.packed } with hfirstdef
  have hpredict : predictDestinationAtStart P clock none none w =
      { w with
        toGaugeArrival := getDestAndRate P
          { w.toGaugeArrival with
            mGpsPosVec := searchOrAppend w.mGpsPosVec w.startPos
            mFirstGPS := first } } := rfl
  have hsame : searchOrAppend w.mGpsPosVec w.startPos = w.mGpsPosVec →
      first = w.mFirstGPS → predictDestinationAtStart P clock none none w =
        { w with toGaugeArrival := getDestAndRate P w.toGaugeArrival } := by
    intro hvec hfirst
    rw [hpredict, hvec, hfirst]
  refine ⟨fun h => ?_, fun h => ?_⟩
  · have hvec : searchOrAppend w.mGpsPosVec w.startPos = w.mGpsPosVec :=
      h.mGpsPosVec
    have hfirst : first = w.mFirstGPS := h.mFirstGPS
    have hlist := h.mGpsRetLst
    rw [hsame hvec hfirst] at hlist
    refine ⟨searchOrAppend_eq_self_iff.mp hvec, ?_, ?_, ?_, hlist⟩ <;> rw [← hfirst]
  · have hvec := searchOrAppend_eq_self_iff.mpr h.registered
    have hfirst : first = w.mFirstGPS := by rw [hfirstdef, ← h.codeS, ← h.date, ← h.time]
    rw [hsame hvec hfirst]
    exact ⟨rfl, rfl, rfl, rfl, h.predicted⟩

/-- What a request with an object as argument does. -/
lemma predict_object (P : Platform) (parse : String → Option Value) (parms : String)
    (clock : Clock) (w : World) {members : List (String × Value)}
    (h : Payload.parseJsonString parse parms = some (.objectValue members)) :
    Payload.predictDestinationAtStart P parse parms clock w =
      (predictDestinationAtStart P clock none none
        { w with
          mStartLat := (doubleMember members "latitude").getD w.mStartLat
          mStartLon := (doubleMember members "longitude").getD w.mStartLon }, .returned) := by
  obtain ⟨⟨_, lat⟩, hlat, hlat'⟩ := Option.map_eq_some_iff.mp
    (validateJsonDouble_object "latitude" members w.mStartLat)
  obtain ⟨⟨_, lon⟩, hlon, hlon'⟩ := Option.map_eq_some_iff.mp
    (validateJsonDouble_object "longitude" members w.mStartLon)
  rw [Payload.predictDestinationAtStart, h]
  simp only [hlat, hlon, ← hlat', ← hlon']

lemma getD_eq_iff (o : Option ℚ) (x : ℚ) : o.getD x = x ↔ ∀ y ∈ o, y = x := by
  cases o <;> simp

/-- **A request that cannot be used changes nothing**, exactly if everything is up to date and
the coordinate that it brings, if any, is the stored one. -/
theorem malformed_iff (P : Platform) (parse : String → Option Value) (parms : String)
    (clock : Clock) (w : World) (h : Malformed parse parms) :
    RequestIgnored w (Payload.predictDestinationAtStart P parse parms clock w).1 ↔
      UpToDate P clock w ∧
        ∀ members, Payload.parseJsonString parse parms = some (.objectValue members) →
          (∀ lat ∈ doubleMember members "latitude", lat = w.mStartLat) ∧
            ∀ lon ∈ doubleMember members "longitude", lon = w.mStartLon := by
  cases hparse : Payload.parseJsonString parse parms with
  | none =>
      rw [Payload.predictDestinationAtStart, hparse]
      simpa using requestIgnored_none_iff P clock w
  | some v =>
      obtain ⟨members, rfl, -⟩ := h v hparse
      rw [predict_object P parse parms clock w hparse]
      simp only [Option.some.injEq, Value.objectValue.injEq, forall_eq', ← getD_eq_iff]
      refine ⟨fun hign => ?_, fun ⟨hup, hlat, hlon⟩ => ?_⟩
      · have hlat : (doubleMember members "latitude").getD w.mStartLat = w.mStartLat :=
          hign.mStartLat
        have hlon : (doubleMember members "longitude").getD w.mStartLon = w.mStartLon :=
          hign.mStartLon
        rw [hlat, hlon] at hign
        exact ⟨(requestIgnored_none_iff P clock w).mp hign, hlat, hlon⟩
      · rw [hlat, hlon]
        exact (requestIgnored_none_iff P clock w).mpr hup

/-- After a request everything is up to date, as long as the clock shows the same time. -/
lemma upToDate_predict (P : Platform) (clock : Clock) (lat lon : Option ℚ) (w : World) :
    UpToDate P clock (predictDestinationAtStart P clock lat lon w) := by
  have hfound := searchPos_searchOrAppend w.mGpsPosVec
    ⟨lat.getD w.mStartLat, lon.getD w.mStartLon⟩
  exact ⟨hfound.trans_lt (searchPos_lt_searchOrAppend _ _), congrArg Int16.ofNat hfound.symm, rfl,
    rfl, mGpsRetLst_getDestAndRate P _⟩

theorem malformed_iff_second_request :
    RequestIgnored
      (predictDestinationAtStart .keyed .morning none none (firstWorld blankInstance false none))
      (Payload.predictDestinationAtStart .keyed (fun _ => none) "" .morning
        (predictDestinationAtStart .keyed .morning none none
          (firstWorld blankInstance false none))).1 :=
  (malformed_iff .keyed (fun _ => none) "" .morning _
    (by simp [Malformed, Payload.parseJsonString])).mpr
      ⟨upToDate_predict .keyed .morning none none _, by simp [Payload.parseJsonString]⟩

/-- A request with a latitude only is answered for this latitude and the old longitude. -/
theorem not_forall_malformed :
    ¬ ∀ (P : Platform) (parse : String → Option Value) (parms : String) (clock : Clock)
      (w : World), Malformed parse parms →
        RequestIgnored w (Payload.predictDestinationAtStart P parse parms clock w).1 := by
  intro h
  have hmal : Malformed (fun _ => some (.objectValue [("latitude", .realValue (3 / 2))]))
      "\x7b\"latitude\":1.5\x7d" := by
    intro v hv
    refine ⟨_, (Option.some_inj.mp hv).symm, Or.inr ?_⟩
    decide
  have hlat := (h .keyed _ _ .morning (firstWorld blankInstance false none) hmal).mStartLat
  revert hlat
  decide +kernel

end Gauge
