import Gauge.Base.FirstMatch
import Gauge.History.Record

/-!
The instance of the class `GaugeArrival`, as far as the trip recorder and the prediction use
it, the two files that outlive it, and the places that the position codes stand for.

Coordinates are exact rationals.  `mLastGPSTimer` is modelled by whether the pointer is set.
-/

namespace Gauge

/-! ### Positions -/

/-- The 16 bytes of a `GPS_POS` that are written to the position file. -/
structure LatLon where
  lat : ℚ
  lon : ℚ
  deriving DecidableEq

/-- `GPS_POS`. -/
structure GPSPos extends LatLon where
  code : Int16
  deriving DecidableEq

/-- `MAX_DIFF_LAT_LON`. -/
def maxDiffLatLon : ℚ := 6 / 10000

/-- The distance `|dlat| + |dlon|`. -/
def posDist (p q : LatLon) : ℚ := |p.lat - q.lat| + |p.lon - q.lon|

/-- The test of the loops that search `mGpsPosVec`. -/
def posNear (posi : GPSPos) (q : LatLon) : Bool := posDist posi.toLatLon q < maxDiffLatLon

/-- The entry `newPos` that is appended with `code = i`, a `short`. -/
def newPos (i : ℕ) (q : LatLon) : GPSPos := { q with code := Int16.ofNat i }

/-- The index at which the search loop of a handler stops. -/
def searchPos (vec : List GPSPos) (q : LatLon) : ℕ := FirstMatch.firstMatch posNear vec q

/-- The search loop of a handler with the `push_back` that follows it. -/
def searchOrAppend (vec : List GPSPos) (q : LatLon) : List GPSPos :=
  FirstMatch.register posNear newPos vec q

lemma posDist_self (p : LatLon) : posDist p p = 0 := by simp [posDist]

lemma posDist_comm (p q : LatLon) : posDist p q = posDist q p := by
  rw [posDist, posDist, abs_sub_comm p.lat, abs_sub_comm p.lon]

@[simp] lemma posNear_newPos (i : ℕ) (q : LatLon) : posNear (newPos i q) q = true := by
  have h : posDist (newPos i q).toLatLon q = 0 := posDist_self q
  simp [posNear, h, maxDiffLatLon]

/-! ### Searching and appending -/

lemma searchPos_stable {vec vec' : List GPSPos} {q : LatLon} (hq : searchPos vec q < vec.length)
    (hvec : vec <+: vec') : searchPos vec' q = searchPos vec q :=
  FirstMatch.firstMatch_stable hq hvec

lemma prefix_searchOrAppend (vec : List GPSPos) (q : LatLon) : vec <+: searchOrAppend vec q :=
  FirstMatch.prefix_register vec q

@[simp] lemma searchPos_searchOrAppend (vec : List GPSPos) (q : LatLon) :
    searchPos (searchOrAppend vec q) q = searchPos vec q :=
  FirstMatch.firstMatch_register posNear_newPos vec q

lemma searchPos_lt_searchOrAppend (vec : List GPSPos) (q : LatLon) :
    searchPos vec q < (searchOrAppend vec q).length :=
  FirstMatch.firstMatch_lt_register vec q

/-- A new place is appended only if no entry is near it. -/
lemma searchOrAppend_cases (vec : List GPSPos) (q : LatLon) :
    searchOrAppend vec q = vec ∨
      (∀ p ∈ vec, posNear p q = false) ∧ searchOrAppend vec q = vec ++ [newPos vec.length q] :=
  FirstMatch.register_cases vec q

/-- A search leaves the registry alone exactly if it finds an entry. -/
lemma searchOrAppend_eq_self_iff {vec : List GPSPos} {q : LatLon} :
    searchOrAppend vec q = vec ↔ searchPos vec q < vec.length := by
  refine ⟨fun h => ?_, fun h => if_neg h.ne⟩
  have hlt := searchPos_lt_searchOrAppend vec q
  rwa [h] at hlt

/-! ### The instance -/

/-- `GPSInfo`, with the strings in its character fields. -/
structure GPSInfo where
  date : List Char
  time : List Char
  latitude : ℚ
  longitude : ℚ
  deriving DecidableEq

/-- `GPS_Pos_Res_Rate`. -/
structure GPSPosResRate where
  code : Int16
  lat : ℚ
  lon : ℚ
  dateD : ℤ
  timeD : ℤ
  rate : ℚ
  deriving DecidableEq

/-- The members of the class that the recorder and the prediction use. -/
structure GaugeArrival extends History where
  mGpsInfo : GPSInfo
  mGpsPosVec : List GPSPos
  mCurGPS : BehaviorGPS
  mFirstGPS : BehaviorGPS
  mLastGPS : BehaviorGPS
  mGpsRetLst : List GPSPosResRate
  mCurLat : ℚ
  mCurLon : ℚ
  mStartLat : ℚ
  mStartLon : ℚ
  mInitPosVecSize : ℤ
  mGetFirstGPSSig : ℤ
  mLastGPSTimer : Bool
  mGPSDataEvt : Bool

/-- An instance together with the behaviour file and the behaviour-GPS position file, which
exist from the first time they are opened for appending. -/
structure World extends GaugeArrival where
  behaviorFile : Option (List TripRecord)
  behaviorGpsFile : Option (List LatLon)

/-- An instance on the morning of `Clock.morning`, asked at the code 0, whose start counter
and drawers are given. -/
def morningInstance (m : StartCountMap) (drawers : DrawerArray → ℤ → List BehaviorGPS) :
    GaugeArrival where
  mBehavGpsVec := []
  mStCntMap := m
  drawers := drawers
  accesses := []
  mGpsInfo := ⟨[], [], 0, 0⟩
  mGpsPosVec := []
  mCurGPS := morningTrip 0 0
  mFirstGPS := morningTrip 0 0
  mLastGPS := morningTrip 0 0
  mGpsRetLst := []
  mCurLat := 0
  mCurLon := 0
  mStartLat := 0
  mStartLon := 0
  mInitPosVecSize := 0
  mGetFirstGPSSig := 0
  mLastGPSTimer := false
  mGPSDataEvt := false

/-- The instance of that morning before its first trip. -/
def blankInstance : GaugeArrival := morningInstance (fun _ => none) fun _ _ => []

/-- The current place. -/
def GaugeArrival.curPos (s : GaugeArrival) : LatLon := ⟨s.mCurLat, s.mCurLon⟩

/-- The place of the last prediction request. -/
def GaugeArrival.startPos (s : GaugeArrival) : LatLon := ⟨s.mStartLat, s.mStartLon⟩

/-- The loop of `getLatLonByCode`.  Its variable `pos` is also the result, so that a loop
that finds nothing leaves the last entry in it. -/
def latLonLoop (code : ℤ) (pos : GPSPos) : List GPSPos → GPSPos
  | [] => pos
  | p :: ps => if p.code.toInt = code then p else latLonLoop code p ps

/-- `GaugeArrival::getLatLonByCode`. -/
def getLatLonByCode (vec : List GPSPos) (code : ℤ) : GPSPos := latLonLoop code ⟨⟨0, 0⟩, 0⟩ vec

end Gauge
