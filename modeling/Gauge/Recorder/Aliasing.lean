import Gauge.Recorder.Registry

/-!
Position codes are indexes that are stored in a `short`, and nothing bounds the registry.

The recorder runs here next to a log of the indexes at which the searches of each saved trip
stopped, which the program does not keep.

* `noAlias_iff_length`: codes are distinct, none is `-1`, and each leads back to the entry of the
  log, exactly as long as the registry has at most 65535 entries.
* `noAlias_run_iff`: this over whole runs.
-/

namespace Gauge

open Machine

/-! ### The index 65535 -/

/-- The answer of `getCodeByLatLon` for no entry is the code of the index 65535. -/
lemma ofNat_65535 : Int16.ofNat 65535 = -1 := by decide

/-- Room for the place `q` in a registry of at most 65535 entries. -/
def Fits (vec : List GPSPos) (q : LatLon) : Prop :=
  searchPos vec q < vec.length ∨ vec.length < 65535

lemma length_searchOrAppend_le_iff {vec : List GPSPos} (hvec : vec.length ≤ 65535) (q : LatLon) :
    (searchOrAppend vec q).length ≤ 65535 ↔ Fits vec q := by
  rw [Fits]
  rcases Nat.lt_or_ge (searchPos vec q) vec.length with hlt | hge
  · rw [searchOrAppend_eq_self_iff.mpr hlt]
    exact iff_of_true hvec (.inl hlt)
  · rcases searchOrAppend_cases vec q with heq | ⟨-, heq⟩
    · exact absurd (searchOrAppend_eq_self_iff.mp heq) (by omega)
    · rw [heq, List.length_append, List.length_singleton]
      omega

/-! ### The log -/

/-- A saved trip and the indexes of the entries that were matched or appended for it. -/
structure SavedTrip where
  trip : BehaviorGPS
  start : ℕ
  dest : ℕ

/-- The program, the index of the entry for the last opening signal, and the trips saved so
far. -/
structure Logged where
  world : World
  start : ℕ
  saved : List SavedTrip

/-- What a callback adds to the log: its trip, if it saves one. -/
def loggedTrips (ok1 : Bool) (x : Logged) : List SavedTrip :=
  if ok1 = true ∧ (lastTrip x.world).codeS ≠ (lastTrip x.world).codeD then
    [⟨lastTrip x.world, x.start, searchPos x.world.mGpsPosVec x.world.curPos⟩]
  else []

/-- A signal or a callback, with the log.  Other events are not part of the runs. -/
def loggedStep (P : Platform) (x : Logged) : Event → Option Logged
  | .signal fix => some { x with
      world := onGPSDataNDRServiceIPCSignal fix x.world
      start := if x.world.mGetFirstGPSSig = 0 then searchPos x.world.mGpsPosVec fix.pos
        else x.start }
  | .callback ok1 ok2 => (lastGPSCallback P ok1 ok2 x.world).map fun w =>
      { x with world := w, saved := x.saved ++ loggedTrips ok1 x }
  | _ => none

/-- The codes of different entries are different, none is the answer for no entry, and those of
each saved trip lead back to its entries. -/
structure NoAlias (x : Logged) : Prop where
  distinct : (x.world.mGpsPosVec.map (·.code)).Nodup
  found : ∀ p ∈ x.world.mGpsPosVec, p.code ≠ -1
  trips : ∀ t ∈ x.saved,
    x.world.mGpsPosVec[t.start]? = some (getLatLonByCode x.world.mGpsPosVec t.trip.codeS.toInt) ∧
    x.world.mGpsPosVec[t.dest]? = some (getLatLonByCode x.world.mGpsPosVec t.trip.codeD.toInt)

/-- The codes of the saved trip are the indexes of its entries. -/
structure SavedTrip.Sound (vec : List GPSPos) (t : SavedTrip) : Prop where
  codeS : t.trip.codeS = Int16.ofNat t.start
  start_lt : t.start < vec.length
  codeD : t.trip.codeD = Int16.ofNat t.dest
  dest_lt : t.dest < vec.length

/-- All codes are indexes, and the timer runs only during a trip. -/
structure Logged.Sound (x : Logged) : Prop where
  indexed : Indexed x.world.mGpsPosVec
  opened : x.world.mLastGPSTimer = true → x.world.mGetFirstGPSSig ≠ 0
  codeS : x.world.mGetFirstGPSSig ≠ 0 → x.world.mFirstGPS.codeS = Int16.ofNat x.start
  start_lt : x.world.mGetFirstGPSSig ≠ 0 → x.start < x.world.mGpsPosVec.length
  saved : ∀ t ∈ x.saved, t.Sound x.world.mGpsPosVec

/-- **Every process begins without an open trip**, and with a registry whose codes are
indexes. -/
lemma closed_of_start {P : Platform} {w w' : World} {raw : GaugeArrival} {ok1 ok2 : Bool}
    (h : step P w (.start raw ok1 ok2) = some w') :
    Indexed w'.mGpsPosVec ∧ w'.mGetFirstGPSSig = 0 ∧ w'.mLastGPSTimer = false := by
  obtain rfl := Option.some_inj.mp h
  obtain ⟨-, -, hflag, htimer⟩ := loadDriverBehavior_frame P (w.construct raw) ok1 ok2
  refine ⟨?_, hflag, htimer⟩
  rw [loadDriverBehavior]
  split
  · exact indexed_nil
  · split
    · exact indexed_nil
    · rename_i fp1 hopen1
      obtain ⟨file1, -, rfl⟩ := Stdio.fopenRead_some hopen1
      show Indexed (loadPositions [] (Stdio.fopen file1))
      rw [loadPositions_fopen]
      exact indexed_numbered _

/-- A process without an open trip has a sound empty log. -/
lemma sound_of_closed {w : World} (hw : Indexed w.mGpsPosVec) (hflag : w.mGetFirstGPSSig = 0)
    (htimer : w.mLastGPSTimer = false) : Logged.Sound ⟨w, 0, []⟩ where
  indexed := hw
  opened h := absurd (htimer.symm.trans h) Bool.false_ne_true
  codeS h := absurd hflag h
  start_lt h := absurd hflag h
  saved _ ht := absurd ht List.not_mem_nil

lemma SavedTrip.Sound.mono {vec vec' : List GPSPos} {t : SavedTrip} (h : t.Sound vec)
    (hvec : vec <+: vec') : t.Sound vec' :=
  ⟨h.codeS, h.start_lt.trans_le hvec.length_le, h.codeD, h.dest_lt.trans_le hvec.length_le⟩

/-- **Codes do not alias exactly up to 65535 entries**: the entry at the index 65535 has the code
`-1`, and from there on the codes start again. -/
lemma noAlias_iff_length {x : Logged} (hx : x.Sound) :
    NoAlias x ↔ x.world.mGpsPosVec.length ≤ 65535 := by
  refine ⟨fun h => ?_, fun hlen => ?_⟩
  · by_contra hlong
    have hlt : 65535 < x.world.mGpsPosVec.length := by omega
    exact h.found _ (List.getElem_mem hlt) ((hx.indexed 65535 hlt).trans ofNat_65535)
  · have hcode : ∀ i (hi : i < x.world.mGpsPosVec.length), x.world.mGpsPosVec[i]? =
        some (getLatLonByCode x.world.mGpsPosVec (Int16.ofNat i).toInt) := fun i hi => by
      rw [getLatLonByCode_of_indexed hx.indexed hi hlen, List.getElem?_eq_getElem hi]
    refine ⟨?_, fun p hp => ?_, fun t ht => ⟨?_, ?_⟩⟩
    · rw [List.Nodup, List.pairwise_iff_getElem]
      intro i j hi hj hij heq
      rw [List.length_map] at hi hj
      rw [List.getElem_map, List.getElem_map, hx.indexed i hi, hx.indexed j hj,
        ofNat_inj_of_lt (by omega) (by omega)] at heq
      omega
    · obtain ⟨i, hi, rfl⟩ := List.getElem_of_mem hp
      rw [hx.indexed i hi, ← ofNat_65535]
      exact (ofNat_inj_of_lt (by omega) (by omega)).not.mpr (by omega)
    · rw [(hx.saved t ht).codeS]
      exact hcode _ (hx.saved t ht).start_lt
    · rw [(hx.saved t ht).codeD]
      exact hcode _ (hx.saved t ht).dest_lt

/-! ### Steps -/

section Steps

variable {P : Platform} {x x' : Logged} {e : Event}

/-- A step of the logged program is one of the program. -/
lemma step_of_loggedStep (h : loggedStep P x e = some x') : step P x.world e = some x'.world := by
  cases e with
  | start raw ok1 ok2 => cases h
  | signal fix =>
      obtain rfl := Option.some_inj.mp h
      rfl
  | callback ok1 ok2 =>
      obtain ⟨w, hw, rfl⟩ := Option.map_eq_some_iff.mp h
      exact hw
  | predict clock lat lon => cases h

/-- The trips of the log are those that the program appends to `mBehavGpsVec`. -/
lemma saved_of_loggedStep (h : loggedStep P x e = some x') :
    ∃ ts, x'.saved = x.saved ++ ts ∧
      x'.world.mBehavGpsVec = x.world.mBehavGpsVec ++ ts.map (·.trip) := by
  cases e with
  | start raw ok1 ok2 => cases h
  | signal fix =>
      obtain rfl := Option.some_inj.mp h
      refine ⟨[], (List.append_nil _).symm, ?_⟩
      rw [List.map_nil, List.append_nil]
      exact congrArg History.mBehavGpsVec (signal_toHistory fix x.world)
  | callback ok1 ok2 =>
      obtain ⟨w, hw, rfl⟩ := Option.map_eq_some_iff.mp h
      refine ⟨loggedTrips ok1 x, rfl, ?_⟩
      rw [loggedTrips]
      obtain ⟨-, ⟨heq, rfl⟩ | ⟨hne, rfl⟩⟩ := callback_some hw
      · rw [if_neg fun h => h.2 heq]
        exact (List.append_nil _).symm
      · cases ok1 with
        | false =>
            rw [saveDriverBehavior_closed, if_neg fun h => Bool.false_ne_true h.1]
            exact (List.append_nil _).symm
        | true =>
            have hvec : (saveDriverBehavior P true ok2 (closeTrip x.world)).mBehavGpsVec =
                (closeTrip x.world).mBehavGpsVec ++ [(closeTrip x.world).mLastGPS] := by
              rw [saveDriverBehavior_toHistory, recordTrip_mBehavGpsVec]
            rw [if_pos ⟨rfl, hne⟩]
            exact hvec
  | predict clock lat lon => cases h

lemma positions_of_loggedStep (h : loggedStep P x e = some x') :
    x.world.mGpsPosVec <+: x'.world.mGpsPosVec ∧
      (Indexed x.world.mGpsPosVec → Indexed x'.world.mGpsPosVec) := by
  have hstart : ¬ e.IsStart := by
    cases e with
    | start raw ok1 ok2 => cases h
    | signal fix => exact id
    | callback ok1 ok2 => exact id
    | predict clock lat lon => exact id
  have hstep := step_of_loggedStep h
  exact ⟨prefix_of_step hstart hstep, fun hx => indexed_of_step hstart hx hstep⟩

/-- Every step keeps the log sound. -/
lemma sound_step (hx : x.Sound) (h : loggedStep P x e = some x') : x'.Sound := by
  obtain ⟨hgrow, hindexed⟩ := positions_of_loggedStep h
  have hsaved := fun t ht => (hx.saved t ht).mono hgrow
  have hvec := hindexed hx.indexed
  cases e with
  | start raw ok1 ok2 => cases h
  | signal fix =>
      obtain rfl := Option.some_inj.mp h
      rcases eq_or_ne x.world.mGetFirstGPSSig 0 with hflag | hflag
      · have hlt := searchPos_lt_searchOrAppend x.world.mGpsPosVec fix.pos
        simp only [signal_first fix hflag, if_pos hflag] at hvec hsaved ⊢
        exact ⟨hvec, fun _ => one_ne_zero, fun _ => rfl, fun _ => hlt, hsaved⟩
      · simp only [signal_next fix hflag, if_neg hflag] at hvec hsaved ⊢
        exact ⟨hvec, fun _ => hflag, fun _ => hx.codeS hflag, fun _ => hx.start_lt hflag, hsaved⟩
  | callback ok1 ok2 =>
      obtain ⟨w, hw, rfl⟩ := Option.map_eq_some_iff.mp h
      obtain ⟨htimer, hend⟩ := callback_some hw
      have hopen := hx.opened htimer
      have hdest := searchPos_lt_searchOrAppend x.world.mGpsPosVec x.world.curPos
      have hw' : w.mGpsPosVec = searchOrAppend x.world.mGpsPosVec x.world.curPos := by
        rcases hend with ⟨-, rfl⟩ | ⟨-, rfl⟩
        · rfl
        · exact saveDriverBehavior_mGpsPosVec P (closeTrip x.world) ok1 ok2
      refine ⟨hvec, ?_, ?_, ?_, fun t ht => ?_⟩
      · rcases hend with ⟨-, rfl⟩ | ⟨-, rfl⟩
        · exact fun _ => hopen
        · intro htimer'
          rw [saveDriverBehavior_mLastGPSTimer] at htimer'
          exact absurd htimer' Bool.false_ne_true
      · rcases hend with ⟨-, rfl⟩ | ⟨-, rfl⟩
        · exact hx.codeS
        · exact fun hne => absurd rfl hne
      · rcases hend with ⟨-, rfl⟩ | ⟨-, rfl⟩
        · exact fun hne => (hx.start_lt hne).trans_le hgrow.length_le
        · exact fun hne => absurd rfl hne
      · rcases List.mem_append.mp ht with hold | hnew
        · exact hsaved t hold
        · rw [loggedTrips] at hnew
          split_ifs at hnew
          · rw [List.mem_singleton.mp hnew]
            exact ⟨hx.codeS hopen, (hx.start_lt hopen).trans_le hgrow.length_le, rfl,
              by rw [hw']; exact hdest⟩
          · exact absurd hnew List.not_mem_nil
  | predict clock lat lon => cases h

/-- A step that registers a place has room for it. -/
def HasRoom (x : Logged) : Event → Prop
  | .signal fix => x.world.mGetFirstGPSSig = 0 → Fits x.world.mGpsPosVec fix.pos
  | .callback _ _ => Fits x.world.mGpsPosVec x.world.curPos
  | _ => True

lemma length_step_iff (hlen : x.world.mGpsPosVec.length ≤ 65535)
    (h : loggedStep P x e = some x') :
    x'.world.mGpsPosVec.length ≤ 65535 ↔ HasRoom x e := by
  cases e with
  | start raw ok1 ok2 => cases h
  | signal fix =>
      obtain rfl := Option.some_inj.mp h
      rw [HasRoom]
      rcases eq_or_ne x.world.mGetFirstGPSSig 0 with hflag | hflag
      · rw [signal_first fix hflag, length_searchOrAppend_le_iff hlen]
        simp [hflag]
      · rw [signal_next fix hflag]
        exact iff_of_true hlen fun h0 => absurd h0 hflag
  | callback ok1 ok2 =>
      obtain ⟨w, hw, rfl⟩ := Option.map_eq_some_iff.mp h
      rw [HasRoom, ← length_searchOrAppend_le_iff hlen]
      obtain ⟨-, ⟨-, rfl⟩ | ⟨-, rfl⟩⟩ := callback_some hw
      · rfl
      · rw [saveDriverBehavior_mGpsPosVec]
        rfl
  | predict clock lat lon => cases h

end Steps

/-! ### Runs -/

/-- The trips of the log, after any run, are those that the process has saved. -/
lemma saved_run {P : Platform} {w : World} {x : Logged} {es : List Event}
    (hrun : run (loggedStep P) ⟨w, 0, []⟩ es = some x) :
    x.world.mBehavGpsVec = w.mBehavGpsVec ++ x.saved.map (·.trip) := by
  refine run_inv (Q := fun _ => True)
    (P := fun x : Logged => x.world.mBehavGpsVec = w.mBehavGpsVec ++ x.saved.map (·.trip))
    ?_ (fun _ _ => trivial) (List.append_nil _).symm hrun
  intro x e x' _ hx h
  obtain ⟨ts, hsaved, hvec⟩ := saved_of_loggedStep h
  rw [hvec, hx, hsaved, List.map_append, List.append_assoc]

/-- **Codes never alias**, in all states of a run of signals and callbacks, exactly if the
registry begins with at most 65535 entries and every place that is registered has room. -/
theorem noAlias_run_iff (P : Platform) {w : World} (hw : Indexed w.mGpsPosVec)
    (hflag : w.mGetFirstGPSSig = 0) (htimer : w.mLastGPSTimer = false) (es : List Event) :
    Always (loggedStep P) NoAlias ⟨w, 0, []⟩ es ↔
      w.mGpsPosVec.length ≤ 65535 ∧ Along (loggedStep P) HasRoom ⟨w, 0, []⟩ es := by
  have hsound : Logged.Sound ⟨w, 0, []⟩ := sound_of_closed hw hflag htimer
  have hlength : Always (loggedStep P) NoAlias ⟨w, 0, []⟩ es ↔
      Always (loggedStep P) (fun x => x.Sound ∧ x.world.mGpsPosVec.length ≤ 65535)
        ⟨w, 0, []⟩ es := by
    refine forall₂_congr fun fs x => forall₂_congr fun _ hrun => ?_
    have hx : x.Sound := run_inv (Q := fun _ => True) (fun _ _ _ _ hx h => sound_step hx h)
      (fun _ _ => trivial) hsound hrun
    exact (noAlias_iff_length hx).trans (and_iff_right hx).symm
  rw [hlength]
  by_cases hlen : w.mGpsPosVec.length ≤ 65535
  · rw [and_iff_right hlen]
    refine always_iff_along (fun x e x' hx h => ?_) ⟨hsound, hlen⟩ es
    rw [and_iff_right (sound_step hx.1 h), length_step_iff hx.2 h]
  · refine iff_of_false (fun h => hlen ?_) fun h => hlen h.1
    exact (h [] ⟨w, 0, []⟩ (List.nil_prefix) rfl).2

/-- Two trips between three places. -/
def twoTrips : List Event :=
  [.signal ⟨.morning, ⟨1, 1⟩⟩, .signal ⟨.morning, ⟨1, 2⟩⟩, .callback true true,
    .signal ⟨.morning, ⟨1, 2⟩⟩, .signal ⟨.morning, ⟨1, 3⟩⟩, .callback true true]

theorem noAlias_run_twoTrips :
    Always (loggedStep .keyed) NoAlias ⟨firstWorld blankInstance false none, 0, []⟩ twoTrips := by
  refine (noAlias_run_iff .keyed indexed_nil rfl rfl _).mpr ⟨Nat.zero_le _, ?_⟩
  have hplaces : ∀ fs ∈ twoTrips.inits, (run (loggedStep .keyed)
      ⟨firstWorld blankInstance false none, 0, []⟩ fs).all
        fun x => x.world.mGpsPosVec.length ≤ 3 := by decide +kernel
  intro fs e t t' hfs ht _
  have hle := hplaces fs ((List.mem_inits fs _).mpr ((List.prefix_append _ _).trans hfs))
  rw [ht, Option.all_some, decide_eq_true_eq] at hle
  cases e with
  | signal fix => exact fun _ => .inr (by omega)
  | callback ok1 ok2 => exact .inr (by omega)
  | _ => trivial

/-- Places on a line. -/
def linePlaces (n : ℕ) : List LatLon := (List.range n).map fun i : ℕ => ⟨(i : ℚ), 0⟩

/-- A process that knows `n` places on a line. -/
def manyPlaces (n : ℕ) : World :=
  { firstWorld blankInstance false none with mGpsPosVec := numbered (linePlaces n) }

lemma length_manyPlaces (n : ℕ) : (manyPlaces n).mGpsPosVec.length = n := by
  rw [manyPlaces, length_numbered, linePlaces, List.length_map, List.length_range]

lemma indexed_manyPlaces (n : ℕ) : Indexed (manyPlaces n).mGpsPosVec :=
  indexed_numbered (linePlaces n)

/-- A place before the line is near none of them. -/
lemma searchPos_manyPlaces (n : ℕ) : searchPos (manyPlaces n).mGpsPosVec ⟨-1, 0⟩ = n := by
  conv_rhs => rw [← length_manyPlaces n]
  refine FirstMatch.firstMatch_eq_length_iff.mpr fun p hp => ?_
  have hplace : p.toLatLon ∈ linePlaces n := by
    rw [← map_toLatLon_numbered (linePlaces n)]
    exact List.mem_map_of_mem hp
  obtain ⟨i, -, hi⟩ := List.mem_map.mp hplace
  have hi0 : (0 : ℚ) ≤ i := Nat.cast_nonneg i
  have hdist : posDist p.toLatLon ⟨-1, 0⟩ = (i : ℚ) + 1 := by
    rw [← hi, posDist]
    norm_num
    linarith
  rw [posNear_eq_false_iff, Far, hdist, maxDiffLatLon]
  linarith

/-- The place that is registered behind 65535 others gets the code `-1`. -/
theorem not_forall_noAlias_run :
    ¬ ∀ (P : Platform) (w : World), Indexed w.mGpsPosVec → w.mGetFirstGPSSig = 0 →
      w.mLastGPSTimer = false → ∀ es : List Event,
        Always (loggedStep P) NoAlias ⟨w, 0, []⟩ es := by
  intro h
  obtain ⟨n, hn⟩ : ∃ n, n = 65535 := ⟨_, rfl⟩
  obtain ⟨x, hstep⟩ : ∃ x, loggedStep .keyed ⟨manyPlaces n, 0, []⟩
      (.signal ⟨.morning, ⟨-1, 0⟩⟩) = some x := ⟨_, rfl⟩
  have hrun : run (loggedStep .keyed) ⟨manyPlaces n, 0, []⟩ [.signal ⟨.morning, ⟨-1, 0⟩⟩] =
      some x := by rw [run_cons, hstep, Option.bind_some, run_nil]
  have hafter := h .keyed (manyPlaces n) (indexed_manyPlaces n) rfl rfl _ _ _ List.prefix_rfl hrun
  have hsound := sound_step (sound_of_closed (indexed_manyPlaces n) rfl rfl) hstep
  have hroom : Fits (manyPlaces n).mGpsPosVec ⟨-1, 0⟩ :=
    (length_step_iff ((length_manyPlaces n).trans hn).le hstep).mp
      ((noAlias_iff_length hsound).mp hafter) rfl
  rw [Fits, searchPos_manyPlaces, length_manyPlaces, hn] at hroom
  omega

end Gauge
