import Gauge.Recorder.Handlers
import Gauge.Recorder.Numbering

/-!
Position codes across sessions.

`InSession G news k` describes a process that was started over the position file `G`: its
positions are those of the file, the zeros of the load and the positions `news`, the first `k`
of which it has appended to the file.  Every step keeps the description
(`inSession_step`), and so does the start of the next process over the file as it is then
(`inSession_start`).  Since the zeros are counted in `mInitPosVecSize` but never written,
`news` stands one place further back in memory than in the file.

`codesKeepMeaning_iff` says which codes of a saved trip mean the same after a later load.
-/

namespace Gauge

open Machine

/-! ### Runs in which every file can be opened -/

/-- Every file can be opened, and `mInitPosVecSize` is 0 in a process that finds no file. -/
def AllOpen (w : World) : Event → Prop
  | .start raw ok1 ok2 =>
      ok1 = true ∧ ok2 = true ∧ (w.behaviorFile = none → raw.mInitPosVecSize = 0)
  | .callback ok1 ok2 => ok1 = true ∧ ok2 = true
  | .signal _ => True
  | .predict _ _ _ => True

instance : ∀ w e, Decidable (AllOpen w e)
  | _, .start _ _ _ => inferInstanceAs (Decidable (_ ∧ _ ∧ (_ → _)))
  | _, .callback _ _ => inferInstanceAs (Decidable (_ ∧ _))
  | _, .signal _ => inferInstanceAs (Decidable True)
  | _, .predict _ _ _ => inferInstanceAs (Decidable True)

/-- One event of such a run. -/
def openStep (P : Platform) : World → Event → Option World := guarded AllOpen (step P)

/-! ### One session -/

/-- The positions of a session that began over the file `G` and has added `news`. -/
structure Grown (G : Option (List LatLon)) (news : List LatLon) (vec : List GPSPos) : Prop where
  vec_eq : vec = numbered (base G ++ news)
  far_news : news.Pairwise Far
  far_base : ∀ p ∈ base G, ∀ q ∈ news, Far p q

/-- The files and the members of an instance in such a session, when the first `k` positions
of `news` have been written. -/
structure InSession (G : Option (List LatLon)) (news : List LatLon) (k : ℕ) (w : World) :
    Prop where
  grown : Grown G news w.mGpsPosVec
  init : w.mInitPosVecSize = ((base G).length + k : ℕ)
  written_le : k ≤ news.length
  file : w.behaviorGpsFile.getD [] = G.getD [] ++ news.take k
  file_isSome : w.behaviorFile.isSome = w.behaviorGpsFile.isSome
  isSome_of_base : G.isSome = true → w.behaviorGpsFile.isSome = true
  far_file : (G.getD []).Pairwise Far
  code : w.mGetFirstGPSSig ≠ 0 ∨ w.mLastGPSTimer = true →
    ∃ i < w.mGpsPosVec.length, w.mFirstGPS.codeS = Int16.ofNat i

section Session

variable {P : Platform} {G : Option (List LatLon)} {news : List LatLon} {k : ℕ} {w w' : World}

lemma take_stable {news' : List LatLon} (hpre : news <+: news')
    (hk : k ≤ news.length) : news.take k = news'.take k := by
  obtain ⟨t, rfl⟩ := hpre
  exact (List.take_append_of_le_length hk).symm

/-- A place that is visited is one of the positions, or is added to them. -/
lemma Grown.visit {vec : List GPSPos} (h : Grown G news vec) (q : LatLon) :
    ∃ news', news <+: news' ∧ Grown G news' (searchOrAppend vec q) := by
  obtain ⟨rfl, hnews, hbase⟩ := h
  rcases searchOrAppend_numbered (base G ++ news) q with heq | ⟨hfar, happ⟩
  · exact ⟨news, List.prefix_rfl, heq, hnews, hbase⟩
  · rw [List.forall_mem_append] at hfar
    refine ⟨news ++ [q], List.prefix_append _ _, by rw [happ, List.append_assoc], ?_, ?_⟩
    · refine List.pairwise_append.mpr ⟨hnews, List.pairwise_singleton _ _, fun p hp q' hq' => ?_⟩
      rw [List.mem_singleton.mp hq']
      exact hfar.2 p hp
    · intro p hp q' hq'
      rcases List.mem_append.mp hq' with hq' | hq'
      · exact hbase p hp q' hq'
      · rw [List.mem_singleton.mp hq']
        exact hfar.1 p hp

/-- The positions in the file are far from each other. -/
lemma InSession.pairwise (h : InSession G news k w) :
    (w.behaviorGpsFile.getD []).Pairwise Far := by
  rw [h.file]
  refine List.pairwise_append.mpr
    ⟨h.far_file, h.grown.far_news.sublist (List.take_sublist _ _), fun p hp q hq => ?_⟩
  refine h.grown.far_base p ?_ q (List.mem_of_mem_take hq)
  cases G with
  | none => simp at hp
  | some file => exact List.mem_append_left _ hp

/-- A signal keeps the session. -/
lemma inSession_signal (h : InSession G news k w) (fix : Fix) :
    ∃ news', news <+: news' ∧ InSession G news' k (onGPSDataNDRServiceIPCSignal fix w) := by
  rcases eq_or_ne w.mGetFirstGPSSig 0 with hflag | hflag
  · obtain ⟨news', hpre, hgrown⟩ := h.grown.visit fix.pos
    rw [signal_first fix hflag]
    refine ⟨news', hpre, hgrown, h.init, h.written_le.trans hpre.length_le, ?_, h.file_isSome,
      h.isSome_of_base, h.far_file, fun _ => ?_⟩
    · rw [h.file, take_stable hpre h.written_le]
    · exact ⟨_, searchPos_lt_searchOrAppend _ _, rfl⟩
  · rw [signal_next fix hflag]
    exact ⟨news, List.prefix_rfl, h.grown, h.init, h.written_le, h.file, h.file_isSome,
      h.isSome_of_base, h.far_file, fun _ => h.code (Or.inl hflag)⟩

/-- A prediction keeps the session. -/
lemma inSession_predict (h : InSession G news k w) (clock : Clock) (lat lon : Option ℚ) :
    ∃ news', news <+: news' ∧
      InSession G news' k (predictDestinationAtStart P clock lat lon w) := by
  obtain ⟨news', hpre, hgrown⟩ := h.grown.visit ⟨lat.getD w.mStartLat, lon.getD w.mStartLon⟩
  refine ⟨news', hpre, hgrown, h.init, h.written_le.trans hpre.length_le, ?_, h.file_isSome,
    h.isSome_of_base, h.far_file, fun _ => ?_⟩
  · exact h.file.trans (by rw [take_stable hpre h.written_le])
  · exact ⟨_, searchPos_lt_searchOrAppend _ _, rfl⟩

/-- The end of a trip keeps the session, and the codes of the trip are codes of positions. -/
lemma inSession_closeTrip (h : InSession G news k w) (htimer : w.mLastGPSTimer = true) :
    ∃ news', news <+: news' ∧ InSession G news' k (closeTrip w) ∧
      (∃ i < (closeTrip w).mGpsPosVec.length, (lastTrip w).codeS = Int16.ofNat i) ∧
      ∃ i < (closeTrip w).mGpsPosVec.length, (lastTrip w).codeD = Int16.ofNat i := by
  obtain ⟨news', hpre, hgrown⟩ := h.grown.visit w.curPos
  obtain ⟨i, hi, hcode⟩ := h.code (Or.inr htimer)
  have hi' : i < (closeTrip w).mGpsPosVec.length :=
    hi.trans_le (prefix_searchOrAppend _ _).length_le
  refine ⟨news', hpre, ⟨hgrown, h.init, h.written_le.trans hpre.length_le, ?_, h.file_isSome,
    h.isSome_of_base, h.far_file, fun _ => ⟨i, hi', hcode⟩⟩, ⟨i, hi', hcode⟩,
    ⟨_, searchPos_lt_searchOrAppend _ _, rfl⟩⟩
  exact h.file.trans (by rw [take_stable hpre h.written_le])

/-- A save writes all positions that are new. -/
lemma inSession_save (h : InSession G news k w) (htimer : w.mLastGPSTimer = false) :
    InSession G news news.length
        { saveDriverBehavior P true true w with mGetFirstGPSSig := 0 } ∧
      (saveDriverBehavior P true true w).behaviorGpsFile.isSome = true := by
  have hlen : w.mGpsPosVec.length = (base G).length + news.length := by
    rw [h.grown.vec_eq, length_numbered, List.length_append]
  have hk : (base G).length + k ≤ w.mGpsPosVec.length := by
    rw [hlen]
    exact Nat.add_le_add_left h.written_le _
  have hwritten : (w.mGpsPosVec.drop ((base G).length + k)).map (·.toLatLon) = news.drop k := by
    calc (w.mGpsPosVec.drop ((base G).length + k)).map (·.toLatLon)
        = (base G ++ news).drop ((base G).length + k) := by
          rw [List.map_drop, h.grown.vec_eq, map_toLatLon_numbered]
      _ = news.drop k := by simp [List.drop_append]
  have happ : appendPositions w.mGpsPosVec w.mInitPosVecSize (w.behaviorGpsFile.getD []) =
      ((w.mGpsPosVec.length : ℤ), G.getD [] ++ news) := by
    calc appendPositions w.mGpsPosVec w.mInitPosVecSize (w.behaviorGpsFile.getD [])
        = ((w.mGpsPosVec.length : ℤ), w.behaviorGpsFile.getD [] ++ news.drop k) := by
          rw [h.init, appendPositions_eq _ hk, hwritten]
      _ = ((w.mGpsPosVec.length : ℤ), G.getD [] ++ news) := by
          rw [h.file, List.append_assoc, List.take_append_drop]
  rw [saveDriverBehavior_both, happ]
  refine ⟨⟨h.grown, ?_, le_rfl, ?_, rfl, fun _ => rfl, h.far_file, fun hopen => ?_⟩, rfl⟩
  · exact congrArg Nat.cast hlen
  · rw [List.take_length]
    rfl
  · simp [htimer] at hopen

/-- **A step within a process keeps the session**, and only adds to it. -/
lemma inSession_step {e : Event} (h : InSession G news k w) (he : ¬ e.IsStart)
    (hw' : openStep P w e = some w') :
    ∃ news' k', news <+: news' ∧ k ≤ k' ∧ InSession G news' k' w' ∧
      (w.behaviorGpsFile.isSome = true → w'.behaviorGpsFile.isSome = true) := by
  obtain ⟨hopen, hstep⟩ := guarded_some.mp hw'
  cases e with
  | start raw ok1 ok2 => exact absurd trivial he
  | signal fix =>
      obtain rfl := Option.some_inj.mp hstep
      obtain ⟨news', hpre, h'⟩ := inSession_signal h fix
      exact ⟨news', k, hpre, le_rfl, h', fun hsome => by rwa [signal_behaviorGpsFile]⟩
  | callback ok1 ok2 =>
      obtain ⟨rfl, rfl⟩ := hopen
      obtain ⟨htimer, hcases⟩ := callback_some hstep
      obtain ⟨news', hpre, h', -⟩ := inSession_closeTrip h htimer
      rcases hcases with ⟨-, rfl⟩ | ⟨-, rfl⟩
      · exact ⟨news', k, hpre, le_rfl, h', id⟩
      · obtain ⟨h'', hsome⟩ := inSession_save (P := P) h' rfl
        exact ⟨news', news'.length, hpre, h'.written_le, h'', fun _ => hsome⟩
  | predict clock lat lon =>
      obtain rfl := Option.some_inj.mp hstep
      obtain ⟨news', hpre, h'⟩ := inSession_predict (P := P) h clock lat lon
      exact ⟨news', k, hpre, le_rfl, h', id⟩

/-- **The start of a process** over files that go together begins a session. -/
lemma inSession_start {raw : GaugeArrival} {ok1 ok2 : Bool}
    (hfiles : w.behaviorFile.isSome = w.behaviorGpsFile.isSome)
    (hfar : (w.behaviorGpsFile.getD []).Pairwise Far)
    (hw' : openStep P w (.start raw ok1 ok2) = some w') :
    InSession w.behaviorGpsFile [] 0 w' ∧ w'.behaviorGpsFile = w.behaviorGpsFile := by
  obtain ⟨⟨rfl, rfl, hraw⟩, hstep⟩ := guarded_some.mp hw'
  obtain rfl := Option.some_inj.mp hstep
  cases hfile : w.behaviorFile with
  | none =>
      have hgps : w.behaviorGpsFile = none := by
        rw [hfile] at hfiles
        exact Option.not_isSome_iff_eq_none.mp (by simp [← hfiles])
      rw [loadDriverBehavior_closed P (w := w.construct raw) (Or.inr hfile)]
      refine ⟨⟨⟨?_, List.Pairwise.nil, by simp⟩, ?_, le_rfl, ?_, hfiles, id, hfar, ?_⟩, rfl⟩
      · rw [hgps]
        rfl
      · rw [hgps]
        exact hraw hfile
      · rw [hgps]
        exact congrArg (Option.getD · []) hgps
      · rintro (h | h)
        · exact absurd rfl h
        · exact absurd h Bool.false_ne_true
  | some file =>
      rw [hfile] at hfiles
      obtain ⟨file1, hgps⟩ := Option.isSome_iff_exists.mp hfiles.symm
      rw [loadDriverBehavior_both P (w := w.construct raw) hfile hgps rfl]
      refine ⟨⟨⟨?_, List.Pairwise.nil, by simp⟩, ?_, le_rfl, ?_, ?_, id, hfar, ?_⟩, rfl⟩
      · rw [hgps, List.append_nil]
        rfl
      · rw [hgps]
        simp [base]
      · rw [List.take_nil, List.append_nil]
        rfl
      · exact (congrArg Option.isSome hfile).trans hfiles
      · rintro (h | h)
        · exact absurd rfl h
        · exact absurd h Bool.false_ne_true

end Session

/-! ### Runs of sessions -/

section Runs

variable {P : Platform} {w w' : World}

/-- Some session is going on. -/
def Running (w : World) : Prop := ∃ G news k, InSession G news k w

/-- The files go together, and the positions on disk are far from each other. -/
def FilesSound (w : World) : Prop :=
  w.behaviorFile.isSome = w.behaviorGpsFile.isSome ∧
    (w.behaviorGpsFile.getD []).Pairwise Far

lemma Running.filesSound (h : Running w) : FilesSound w := by
  obtain ⟨G, news, k, h⟩ := h
  exact ⟨h.file_isSome, h.pairwise⟩

/-- Every event keeps a session going, or begins one. -/
lemma running_step {e : Event} (hw : Running w ∨ e.IsStart ∧ FilesSound w)
    (h : openStep P w e = some w') : Running w' := by
  have hfiles : FilesSound w := hw.elim Running.filesSound And.right
  cases e with
  | start raw ok1 ok2 =>
      exact ⟨_, _, _, (inSession_start hfiles.1 hfiles.2 h).1⟩
  | signal | callback | predict =>
      obtain ⟨G, news, k, hw⟩ := hw.resolve_right fun h => h.1
      obtain ⟨news', k', -, -, hw', -⟩ := inSession_step hw id h
      exact ⟨G, news', k', hw'⟩

/-- After a run of sessions that found no files at first the files go together. -/
lemma filesSound_of_run {w₀ u : World} {es : List Event} (hno : w₀.behaviorFile = none)
    (hno' : w₀.behaviorGpsFile = none) (hes : ∀ e ∈ es.head?, e.IsStart)
    (hrun : run (openStep P) w₀ es = some u) : FilesSound u := by
  have hsound : FilesSound w₀ := by
    rw [FilesSound, hno, hno']
    exact ⟨rfl, List.Pairwise.nil⟩
  cases es with
  | nil =>
      rw [run_nil, Option.some_inj] at hrun
      exact hrun ▸ hsound
  | cons e es =>
      obtain ⟨w₁, hw₁, hrest⟩ := run_cons_some.mp hrun
      have hrunning := running_step (Or.inr ⟨hes e rfl, hsound⟩) hw₁
      exact (run_inv (Q := fun _ => True)
        (fun u e u' _ hu hstep => running_step (Or.inl hu) hstep) (fun _ _ => trivial)
        hrunning hrest).filesSound

/-- Within a process the session goes on. -/
lemma inSession_run {G : Option (List LatLon)} {u : World} {es : List Event}
    (hu : InSession G [] 0 u) (hes : ∀ e ∈ es, ¬ e.IsStart)
    (hrun : run (openStep P) u es = some w) : ∃ news k, InSession G news k w := by
  refine run_inv (P := fun w => ∃ news k, InSession G news k w) (fun w e w' he hw hstep => ?_)
    hes ⟨[], 0, hu⟩ hrun
  obtain ⟨news, k, hw⟩ := hw
  obtain ⟨news', k', -, -, hw', -⟩ := inSession_step hw he hstep
  exact ⟨news', k', hw'⟩

/-- The position file has grown from `file`, if `zeros` by positions that are far from the
zeros of the loads. -/
structure Later (file : List LatLon) (zeros : Prop) (x : World) : Prop where
  session : ∃ G news k, InSession G news k x ∧ (zeros → G.isSome = true)
  isSome : x.behaviorGpsFile.isSome = true
  file_eq : ∃ later, x.behaviorGpsFile.getD [] = file ++ later ∧
    (zeros → ∀ p ∈ later, Far zeroPos p)

/-- In a session that began over a file the new positions are far from the zeros. -/
lemma Grown.far_zero {G : Option (List LatLon)} {news : List LatLon} {vec : List GPSPos}
    (h : Grown G news vec) (hG : G.isSome = true) : ∀ p ∈ news, Far zeroPos p := by
  obtain ⟨file, rfl⟩ := Option.isSome_iff_exists.mp hG
  exact h.far_base zeroPos (by simp [base])

/-- The position file only grows. -/
lemma later_step {file : List LatLon} {zeros : Prop} {x x' : World} {e : Event}
    (hx : Later file zeros x) (h : openStep P x e = some x') : Later file zeros x' := by
  obtain ⟨⟨G, news, k, hsession, hzeros⟩, hsome, later, hfile, hlater⟩ := hx
  cases e with
  | start raw ok1 ok2 =>
      obtain ⟨hnew, heq⟩ := inSession_start hsession.file_isSome hsession.pairwise h
      rw [← heq] at hfile hsome
      exact ⟨⟨_, _, _, hnew, fun _ => heq ▸ hsome⟩, hsome, later, hfile, hlater⟩
  | signal | callback | predict =>
      obtain ⟨news', k', hpre, hk, hsession', hsome'⟩ := inSession_step hsession id h
      refine ⟨⟨G, news', k', hsession', hzeros⟩, hsome' hsome,
        later ++ (news'.take k').drop k, ?_, fun hz p hp => ?_⟩
      · have hold : news.take k = (news'.take k').take k := by
          rw [List.take_take, Nat.min_eq_left hk,
            take_stable hpre hsession.written_le]
        calc _ = G.getD [] ++ news'.take k' := hsession'.file
          _ = G.getD [] ++ news.take k ++ (news'.take k').drop k := by
              rw [hold, List.append_assoc, List.take_append_drop]
          _ = file ++ (later ++ (news'.take k').drop k) := by
              rw [← hsession.file, hfile, List.append_assoc]
      · rcases List.mem_append.mp hp with hp | hp
        · exact hlater hz p hp
        · exact hsession'.grown.far_zero (hzeros hz) p
            (List.mem_of_mem_take (List.mem_of_mem_drop hp))

end Runs

/-! ### The meaning of the codes of a saved trip -/

/-- A trip that is saved in one session, and the load of a later one.  The session begins over
the files of `u`; in `w` the timer event saves the trip, which gives `w'`; the later session
begins over the files of `x`, and `v` is the state after its load.  Before `u` there may be
other sessions, the first of which finds no files. -/
structure SavedAndLoaded (P : Platform) (u w w' x v : World) : Prop where
  earlier : ∃ w₀ es, w₀.behaviorFile = none ∧ w₀.behaviorGpsFile = none ∧
    (∀ e ∈ es.head?, e.IsStart) ∧ run (openStep P) w₀ es = some u
  session : ∃ raw es, (∀ e ∈ es, ¬ e.IsStart) ∧
    run (openStep P) u (.start raw true true :: es) = some w
  save : openStep P w (.callback true true) = some w'
  saved : (lastTrip w).codeS ≠ (lastTrip w).codeD
  later : ∃ es, run (openStep P) w' es = some x
  load : ∃ raw, openStep P x (.start raw true true) = some v
  fits : w'.mGpsPosVec.length < 32768
  fits_load : v.mGpsPosVec.length < 32768

/-- The code `c` stands for the same place in `w` and in `v`. -/
def KeepsMeaning (w v : World) (c : Int16) : Prop :=
  w.mGpsPosVec[c.toInt.toNat]?.map (·.toLatLon) =
    some (getLatLonByCode v.mGpsPosVec c.toInt).toLatLon

instance (w v : World) (c : Int16) : Decidable (KeepsMeaning w v c) :=
  inferInstanceAs (Decidable (_ = _))

/-- The code was on disk when the session began, over the files of `u`, or is that of the
zeros and nothing has been written to the position file until `x`.  In a session that found
no files every code is stable. -/
def CodeStable (u x : World) (c : Int16) : Prop :=
  ∀ file, u.behaviorGpsFile = some file →
    c.toInt < file.length ∨
      c.toInt = file.length ∧ (x.behaviorGpsFile.getD []).length = file.length

/-- After a save everything is written, and the codes of the trip are codes of positions. -/
lemma inSession_saved {P : Platform} {G : Option (List LatLon)} {news : List LatLon} {k : ℕ}
    {w w' : World} (h : InSession G news k w)
    (hsave : openStep P w (.callback true true) = some w')
    (hne : (lastTrip w).codeS ≠ (lastTrip w).codeD) :
    ∃ news', InSession G news' news'.length w' ∧ w'.behaviorGpsFile.isSome = true ∧
      (∃ i < w'.mGpsPosVec.length, w'.mLastGPS.codeS = Int16.ofNat i) ∧
      ∃ i < w'.mGpsPosVec.length, w'.mLastGPS.codeD = Int16.ofNat i := by
  obtain ⟨htimer, hcases⟩ := callback_some (guarded_some.mp hsave).2
  obtain ⟨news', -, hclosed, hcodes⟩ := inSession_closeTrip h htimer
  obtain ⟨-, rfl⟩ := hcases.resolve_left fun h => hne h.1
  obtain ⟨hw', hsome⟩ := inSession_save (P := P) hclosed rfl
  exact ⟨news', hw', hsome, hcodes⟩

/-- What it means in terms of the numbered positions. -/
lemma keepsMeaning_iff {w v : World} {ps file : List LatLon} (hw : w.mGpsPosVec = numbered ps)
    (hv : v.mGpsPosVec = numbered (file ++ [zeroPos])) (hfits : v.mGpsPosVec.length < 32768)
    {i : ℕ} (hi : i < w.mGpsPosVec.length) (hi' : i < 32768) :
    KeepsMeaning w v (Int16.ofNat i) ↔
      (file ++ [zeroPos]).getD i zeroPos = ps.getD i zeroPos := by
  have hcode : (Int16.ofNat i).toInt = i := Int16.toInt_ofNat_of_lt (show i < 2 ^ 15 by omega)
  have hlt : i < ps.length := by rwa [hw, length_numbered] at hi
  have hleft : w.mGpsPosVec[i]?.map (·.toLatLon) = some (ps.getD i zeroPos) := by
    calc w.mGpsPosVec[i]?.map (·.toLatLon)
        = (w.mGpsPosVec.map (·.toLatLon))[i]? := List.getElem?_map.symm
      _ = ps[i]? := by rw [hw, map_toLatLon_numbered]
      _ = some (ps.getD i zeroPos) := by
          rw [List.getD_eq_getElem?_getD, List.getElem?_eq_getElem hlt, Option.getD_some]
  have hright : (getLatLonByCode v.mGpsPosVec i).toLatLon =
      (file ++ [zeroPos]).getD i zeroPos := by
    rw [hv, length_numbered] at hfits
    rw [hv, getLatLonByCode_numbered hfits.le, List.getLastD_concat]
  rw [KeepsMeaning, hcode, Int.toNat_natCast, hleft, hright, Option.some_inj]
  exact eq_comm

/-- **Position codes keep their meaning** exactly if they are stable. -/
theorem codesKeepMeaning_iff (P : Platform) {u w w' x v : World}
    (h : SavedAndLoaded P u w w' x v) :
    KeepsMeaning w' v w'.mLastGPS.codeS ∧ KeepsMeaning w' v w'.mLastGPS.codeD ↔
      CodeStable u x w'.mLastGPS.codeS ∧ CodeStable u x w'.mLastGPS.codeD := by
  obtain ⟨⟨w₀, es₀, hno, hno', hes₀, hrun₀⟩, ⟨raw, es, hes, hrun⟩, hsave, hsaved, ⟨es', hrun'⟩,
    ⟨raw', hload⟩, hfits, hfits'⟩ := h
  have hu := filesSound_of_run hno hno' hes₀ hrun₀
  obtain ⟨w₁, hw₁, hrest⟩ := run_cons_some.mp hrun
  obtain ⟨news₀, k₀, hw⟩ := inSession_run (inSession_start hu.1 hu.2 hw₁).1 hes hrest
  obtain ⟨news, hw', hsome, hcodeS, hcodeD⟩ := inSession_saved hw hsave hsaved
  -- the file that the later session finds
  obtain ⟨⟨G', news', k', hx, -⟩, hsome', later, hfile, hlater⟩ :=
    run_inv (P := Later _ (u.behaviorGpsFile.isSome = true)) (Q := fun _ => True)
      (fun _ _ _ _ hx hstep => later_step hx hstep) (fun _ _ => trivial)
      ⟨⟨_, _, _, hw', id⟩, hsome, [], (List.append_nil _).symm, by simp⟩ hrun'
  obtain ⟨file, hfile'⟩ := Option.isSome_iff_exists.mp hsome'
  have hv := (inSession_start hx.file_isSome hx.pairwise hload).1.grown.vec_eq
  rw [hfile'] at hfile hv
  rw [Option.getD_some, hw'.file, List.take_length, List.append_assoc] at hfile
  rw [base, List.append_nil] at hv
  have hnew : (news ++ later).Pairwise Far := by
    have h := hx.pairwise
    rw [hfile', Option.getD_some, hfile] at h
    exact (List.pairwise_append.mp h).2.1
  have hzero : u.behaviorGpsFile.isSome = true → ∀ p ∈ news ++ later, Far zeroPos p := by
    intro hG p hp
    exact (List.mem_append.mp hp).elim (hw'.grown.far_zero hG p) (hlater hG p)
  have hcode : ∀ c : Int16, (∃ i < w'.mGpsPosVec.length, c = Int16.ofNat i) →
      (KeepsMeaning w' v c ↔ CodeStable u x c) := by
    rintro _ ⟨i, hi, rfl⟩
    have hi' : i < 32768 := hi.trans hfits
    have hlen : i < (base u.behaviorGpsFile ++ news).length := by
      rwa [hw'.grown.vec_eq, length_numbered] at hi
    rw [keepsMeaning_iff hw'.grown.vec_eq hv hfits' hi hi', hfile, meaning_iff hnew hzero hlen,
      CodeStable, hfile', Option.getD_some, hfile,
      Int16.toInt_ofNat_of_lt (show i < 2 ^ 15 by omega)]
    simp only [Nat.cast_lt, Nat.cast_inj]
  rw [hcode _ hcodeS, hcode _ hcodeD]

theorem codesKeepMeaning_iff_first_session :
    ∃ w w' v, SavedAndLoaded .standard (firstWorld blankInstance false none) w w' w' v ∧
      KeepsMeaning w' v w'.mLastGPS.codeS ∧ KeepsMeaning w' v w'.mLastGPS.codeD := by
  have hrun : ((run (openStep .standard) (firstWorld blankInstance false none)
      (drive ⟨1, 2⟩)).bind fun w => (openStep .standard w (.callback true true)).bind fun w' =>
        (openStep .standard w' (.start blankInstance true true)).map fun v =>
          (decide ((lastTrip w).codeS = (lastTrip w).codeD), w'.mGpsPosVec.length,
            v.mGpsPosVec.length)) = some (false, 2, 3) := by decide +kernel
  obtain ⟨w, hw, hrun⟩ := Option.bind_eq_some_iff.mp hrun
  obtain ⟨w', hw', hrun⟩ := Option.bind_eq_some_iff.mp hrun
  obtain ⟨v, hv, hrun⟩ := Option.map_eq_some_iff.mp hrun
  simp only [Prod.mk.injEq, decide_eq_false_iff_not] at hrun
  have h : SavedAndLoaded .standard (firstWorld blankInstance false none) w w' w' v :=
    ⟨⟨_, [], rfl, rfl, by simp, rfl⟩, ⟨_, _, by simp [Event.IsStart], hw⟩, hw', hrun.1,
      ⟨[], rfl⟩, ⟨_, hv⟩, by omega, by omega⟩
  exact ⟨w, w', v, h, (codesKeepMeaning_iff .standard h).mpr
    ⟨fun _ hnone => by simp [firstWorld] at hnone, fun _ hnone => by simp [firstWorld] at hnone⟩⟩

/-- A new destination of the second session means nothing in the third. -/
theorem not_forall_keepsMeaning :
    ¬ ∀ (P : Platform) (u w w' x v : World), SavedAndLoaded P u w w' x v →
      KeepsMeaning w' v w'.mLastGPS.codeS ∧ KeepsMeaning w' v w'.mLastGPS.codeD := by
  intro hall
  have hrun : ((run (openStep .standard) (firstWorld blankInstance false none)
      (drive ⟨1, 2⟩ ++ [.callback true true])).bind fun u =>
        (run (openStep .standard) u (drive ⟨1, 3⟩)).bind fun w =>
          (openStep .standard w (.callback true true)).bind fun w' =>
            (openStep .standard w' (.start blankInstance true true)).map fun v =>
              (decide ((lastTrip w).codeS = (lastTrip w).codeD), w'.mGpsPosVec.length,
                v.mGpsPosVec.length, decide (KeepsMeaning w' v w'.mLastGPS.codeD))) =
                  some (false, 4, 4, false) := by decide +kernel
  obtain ⟨u, hu, hrun⟩ := Option.bind_eq_some_iff.mp hrun
  obtain ⟨w, hw, hrun⟩ := Option.bind_eq_some_iff.mp hrun
  obtain ⟨w', hw', hrun⟩ := Option.bind_eq_some_iff.mp hrun
  obtain ⟨v, hv, hrun⟩ := Option.map_eq_some_iff.mp hrun
  simp only [Prod.mk.injEq, decide_eq_false_iff_not] at hrun
  obtain ⟨hne, hfits, hfits', hnot⟩ := hrun
  refine hnot (hall .standard u w w' w' v ⟨⟨_, _, rfl, rfl, ?_, hu⟩, ⟨_, _, ?_, hw⟩, hw', hne,
    ⟨[], rfl⟩, ⟨_, hv⟩, by omega, by omega⟩).2
  · simp [drive, Event.IsStart]
  · simp [Event.IsStart]

end Gauge
