import Gauge.Recorder.Handlers
import Gauge.Recorder.Numbering

/-!
The registry of positions within a process: `mGpsPosVec`, the loops that search it and append to
it, and the two functions `getCodeByLatLon` and `getLatLonByCode`.

* `Registry.searchOrAppend`: the three loops keep the codes equal to the indexes and the
  positions apart.
* `Registry.code_search`: where `getCodeByLatLon` finds a position, so do the loops.
* `Registry.getCodeByLatLon_getLatLonByCode`: the two functions are inverse on the codes.
* `registry_run`: all this after any number of signals, callbacks and predictions.
-/

namespace Gauge

open Machine

/-- `GaugeArrival::getCodeByLatLon`. -/
def getCodeByLatLon : List GPSPos → LatLon → Int16
  | [], _ => -1
  | pos :: ps, q => if posDist q pos.toLatLon < maxDiffLatLon then pos.code else getCodeByLatLon ps q

/-- The codes are the indexes, and the positions are apart from each other. -/
structure Registry (vec : List GPSPos) : Prop where
  code_eq : ∀ i (hi : i < vec.length), vec[i].code.toInt = i
  far : vec.Pairwise fun p q => Far p.toLatLon q.toLatLon

lemma registry_nil : Registry [] := ⟨fun _ hi => absurd hi (by simp), List.Pairwise.nil⟩

/-! ### The loops -/

/-- `getCodeByLatLon` returns the code of the entry at which a search stops. -/
lemma getCodeByLatLon_eq (vec : List GPSPos) (q : LatLon) :
    getCodeByLatLon vec q = (vec[searchPos vec q]?.map (·.code)).getD (-1) := by
  induction vec with
  | nil => rfl
  | cons pos ps ih =>
      rw [getCodeByLatLon, searchPos, FirstMatch.firstMatch, List.findIdx_cons, posNear,
        posDist_comm]
      rcases lt_or_ge (posDist pos.toLatLon q) maxDiffLatLon with h | h
      · simp [h]
      · rw [if_neg (not_lt.mpr h), ih]
        simp [not_lt.mpr h, searchPos, FirstMatch.firstMatch]

lemma separated_iff_far (vec : List GPSPos) :
    FirstMatch.Separated posNear (·.toLatLon) vec ↔
      vec.Pairwise fun p q => Far p.toLatLon q.toLatLon := by
  rw [FirstMatch.Separated]
  simp only [posNear_eq_false_iff]

namespace Registry

variable {vec : List GPSPos} (h : Registry vec)
include h

lemma length_le : vec.length ≤ 32768 := by
  rcases Nat.eq_zero_or_pos vec.length with h0 | hpos
  · omega
  · have hcode := h.code_eq (vec.length - 1) (by omega)
    have hlt := Int16.toInt_lt vec[vec.length - 1].code
    norm_num at hlt
    omega

lemma indexed : Indexed vec := fun i hi => by
  have hlen := h.length_le
  rw [← Int16.toInt_inj, h.code_eq i hi, Int16.toInt_ofNat_of_lt (show i < 2 ^ 15 by omega)]

/-- A loop keeps the registry, if the new code fits into a `short`. -/
lemma searchOrAppend (q : LatLon) (hlen : (searchOrAppend vec q).length ≤ 32768) :
    Registry (searchOrAppend vec q) := by
  refine ⟨fun i hi => ?_, (separated_iff_far _).mp
    (FirstMatch.separated_register (fun _ _ => rfl) ((separated_iff_far vec).mpr h.far) q)⟩
  rw [indexed_searchOrAppend h.indexed q i hi,
    Int16.toInt_ofNat_of_lt (show i < 2 ^ 15 by omega)]

/-- **The loops choose the code of `getCodeByLatLon`**, where it finds one. -/
lemma code_search {q : LatLon} (hfound : getCodeByLatLon vec q ≠ -1) :
    Int16.ofNat (searchPos vec q) = getCodeByLatLon vec q := by
  rw [getCodeByLatLon_eq] at hfound ⊢
  rcases Nat.lt_or_ge (searchPos vec q) vec.length with hlt | hge
  · rw [List.getElem?_eq_getElem hlt, Option.map_some, Option.getD_some, h.indexed _ hlt]
  · rw [List.getElem?_eq_none hge] at hfound
    exact absurd rfl hfound

/-- **From a code to a place and back.** -/
lemma getCodeByLatLon_getLatLonByCode {c : Int16} (hc : c ∈ vec.map (·.code)) :
    getCodeByLatLon vec (getLatLonByCode vec c.toInt).toLatLon = c := by
  obtain ⟨i, hi, hic⟩ := List.getElem_of_mem hc
  rw [List.length_map] at hi
  rw [List.getElem_map] at hic
  have hplace : (getLatLonByCode vec c.toInt).toLatLon = vec[i].toLatLon := by
    have hlen := h.length_le
    rw [← hic, h.indexed i hi, getLatLonByCode_of_indexed h.indexed hi (by omega)]
  have hself : ∀ p : GPSPos, posNear p p.toLatLon = true := fun p => by
    simp [posNear, posDist_self, maxDiffLatLon]
  have hfind : searchPos vec vec[i].toLatLon = i :=
    FirstMatch.firstMatch_of_separated hself ((separated_iff_far vec).mpr h.far) hi
  rw [hplace, getCodeByLatLon_eq, hfind, List.getElem?_eq_getElem hi]
  exact hic

end Registry

/-! ### The handlers -/

/-- Where `getCodeByLatLon` finds a code, the loops of the three handlers choose it too. -/
structure SearchesAgree (P : Platform) (w : World) : Prop where
  signal : ∀ fix, w.mGetFirstGPSSig = 0 → getCodeByLatLon w.mGpsPosVec fix.pos ≠ -1 →
    (onGPSDataNDRServiceIPCSignal fix w).mFirstGPS.codeS = getCodeByLatLon w.mGpsPosVec fix.pos
  callback : ∀ ok1 ok2 w', lastGPSCallback P ok1 ok2 w = some w' →
    getCodeByLatLon w.mGpsPosVec w.curPos ≠ -1 →
      w'.mLastGPS.codeD = getCodeByLatLon w.mGpsPosVec w.curPos
  predict : ∀ clock lat lon w', predictDestinationAtStart P clock lat lon w = w' →
    getCodeByLatLon w.mGpsPosVec w'.startPos ≠ -1 →
      w'.mFirstGPS.codeS = getCodeByLatLon w.mGpsPosVec w'.startPos

lemma searchesAgree_of_registry (P : Platform) {w : World} (h : Registry w.mGpsPosVec) :
    SearchesAgree P w where
  signal fix hflag hfound := by
    rw [signal_first fix hflag]
    exact h.code_search hfound
  callback ok1 ok2 w' hw' hfound := by
    have hcode : w'.mLastGPS.codeD = Int16.ofNat (searchPos w.mGpsPosVec w.curPos) := by
      obtain ⟨-, ⟨-, rfl⟩ | ⟨-, rfl⟩⟩ := callback_some hw'
      · rfl
      · rw [saveDriverBehavior_mLastGPS]
        rfl
    rw [hcode, h.code_search hfound]
  predict clock lat lon w' hw' hfound := by
    subst hw'
    exact h.code_search hfound

/-- A step of the process keeps the codes equal to the indexes modulo `2 ^ 16`. -/
lemma indexed_of_step {P : Platform} {w w' : World} {e : Event} (he : ¬ e.IsStart)
    (hw : Indexed w.mGpsPosVec) (h : step P w e = some w') : Indexed w'.mGpsPosVec := by
  rcases positions_of_step he h with heq | ⟨q, heq⟩
  · exact heq ▸ hw
  · exact heq ▸ indexed_searchOrAppend hw q

/-- A step of the process keeps the registry. -/
lemma registry_step {P : Platform} {w w' : World} {e : Event} (he : ¬ e.IsStart)
    (hw : Registry w.mGpsPosVec) (h : step P w e = some w')
    (hlen : w'.mGpsPosVec.length ≤ 32768) : Registry w'.mGpsPosVec := by
  rcases positions_of_step he h with heq | ⟨q, heq⟩
  · rwa [heq]
  · rw [heq] at hlen ⊢
    exact hw.searchOrAppend q hlen

/-- **The registry of positions**, after any run of a process whose codes fit into a `short`. -/
theorem registry_run (P : Platform) {w w' : World} {es : List Event} (hw : Registry w.mGpsPosVec)
    (hes : ∀ e ∈ es, ¬ e.IsStart) (hrun : run (step P) w es = some w')
    (hlen : w'.mGpsPosVec.length ≤ 32768) :
    Registry w'.mGpsPosVec ∧ w.mGpsPosVec <+: w'.mGpsPosVec ∧ SearchesAgree P w' ∧
      ∀ c ∈ w'.mGpsPosVec.map (·.code),
        getCodeByLatLon w'.mGpsPosVec (getLatLonByCode w'.mGpsPosVec c.toInt).toLatLon = c := by
  have hgrow : w.mGpsPosVec <+: w'.mGpsPosVec ∧
      (w'.mGpsPosVec.length ≤ 32768 → Registry w'.mGpsPosVec) := by
    refine run_inv (P := fun v : World => w.mGpsPosVec <+: v.mGpsPosVec ∧
      (v.mGpsPosVec.length ≤ 32768 → Registry v.mGpsPosVec)) ?_ hes
      ⟨List.prefix_rfl, fun _ => hw⟩ hrun
    intro v e v' he hv hstep
    have hgrow' := prefix_of_step he hstep
    refine ⟨hv.1.trans hgrow', fun hle => ?_⟩
    exact registry_step he (hv.2 (hgrow'.length_le.trans hle)) hstep hle
  have hreg := hgrow.2 hlen
  exact ⟨hreg, hgrow.1, searchesAgree_of_registry P hreg, fun c hc =>
    hreg.getCodeByLatLon_getLatLonByCode hc⟩

/-- A drive to a second place, a request near the first one and one at a third place. -/
def errands : List Event :=
  [.signal ⟨.morning, ⟨1, 1⟩⟩, .signal ⟨.morning, ⟨1, 2⟩⟩, .callback true true,
    .predict .morning (some (1 + 1 / 10000)) (some 1), .predict .morning (some 3) (some 3)]

theorem registry_run_errands :
    ∃ w, run (step .keyed) (firstWorld blankInstance false none) errands = some w ∧
      w.mGpsPosVec.length = 3 ∧ Registry w.mGpsPosVec ∧
      ∀ c ∈ w.mGpsPosVec.map (·.code),
        getCodeByLatLon w.mGpsPosVec (getLatLonByCode w.mGpsPosVec c.toInt).toLatLon = c := by
  have hsome : (run (step .keyed) (firstWorld blankInstance false none) errands).map
      (·.mGpsPosVec.length) = some 3 := by decide +kernel
  obtain ⟨w, hw, hlen⟩ := Option.map_eq_some_iff.mp hsome
  obtain ⟨hreg, -, -, hinv⟩ :=
    registry_run .keyed registry_nil (by simp [errands, Event.IsStart]) hw (by omega)
  exact ⟨w, hw, hlen, hreg, hinv⟩

end Gauge
