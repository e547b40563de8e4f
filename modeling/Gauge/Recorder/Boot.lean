import Gauge.Recorder.Registry

/-!
The beginning of a process: `initialize` subscribes to the signals before it loads the files.

Signals and requests may be handled in between; a timer event waits for `mGaugeMutex`, which
`GetInstance` holds until `initialize` returns.

* `run_boot_start`: with nothing in between the process begins with the event `start` of `step`.
* `indexed_boot_iff`: when the codes of the positions are still their indexes.  The load numbers
  the positions of the file from 0 and appends them to those that are already there.
-/

namespace Gauge

open Machine

/-- A process, and whether its `initialize` has loaded the files. -/
structure Boot where
  world : World
  loaded : Bool

/-- What happens to it. -/
inductive BootEvent
  /-- The constructor, and `initialize` up to `connectSvcIpc`. -/
  | construct (raw : GaugeArrival)
  /-- `loadDriverBehavior`, in `initialize`. -/
  | load (ok1 ok2 : Bool)
  /-- A handler runs. -/
  | handle (e : Event)

/-- One event. -/
def bootStep (P : Platform) (b : Boot) : BootEvent → Option Boot
  | .construct raw => some ⟨b.world.construct raw, false⟩
  | .load ok1 ok2 =>
      if b.loaded then none else some ⟨loadDriverBehavior P ok1 ok2 b.world, true⟩
  | .handle (.signal fix) => some { b with world := onGPSDataNDRServiceIPCSignal fix b.world }
  | .handle (.predict clock lat lon) =>
      some { b with world := predictDestinationAtStart P clock lat lon b.world }
  | .handle (.callback ok1 ok2) =>
      if b.loaded then (lastGPSCallback P ok1 ok2 b.world).map fun w => { b with world := w }
      else none
  | .handle (.start _ _ _) => none

variable {P : Platform}

/-- A handler does what it does in `step`. -/
lemma step_of_handle {b b' : Boot} {e : Event} (h : bootStep P b (.handle e) = some b') :
    step P b.world e = some b'.world ∧ b'.loaded = b.loaded ∧ ¬ e.IsStart := by
  cases e with
  | start raw ok1 ok2 => exact absurd h (by simp [bootStep])
  | signal fix =>
      obtain rfl := Option.some_inj.mp h
      exact ⟨rfl, rfl, id⟩
  | callback ok1 ok2 =>
      rw [bootStep] at h
      split at h
      · obtain ⟨w, hw, rfl⟩ := Option.map_eq_some_iff.mp h
        exact ⟨hw, rfl, id⟩
      · exact absurd h (by simp)
  | predict clock lat lon =>
      obtain rfl := Option.some_inj.mp h
      exact ⟨rfl, rfl, id⟩

/-- Once the files are loaded, every handler runs. -/
lemma handle_of_step {w w' : World} {e : Event} (he : ¬ e.IsStart) (h : step P w e = some w') :
    bootStep P ⟨w, true⟩ (.handle e) = some ⟨w', true⟩ := by
  cases e with
  | start raw ok1 ok2 => exact absurd trivial he
  | signal fix =>
      obtain rfl := Option.some_inj.mp h
      rfl
  | callback ok1 ok2 =>
      rw [bootStep, if_pos rfl, show lastGPSCallback P ok1 ok2 w = some w' from h]
      rfl
  | predict clock lat lon =>
      obtain rfl := Option.some_inj.mp h
      rfl

/-- Runs of handlers are runs of `step`. -/
lemma run_handle {b b' : Boot} {es : List Event}
    (h : run (bootStep P) b (es.map .handle) = some b') :
    run (step P) b.world es = some b'.world ∧ b'.loaded = b.loaded ∧
      ∀ e ∈ es, ¬ e.IsStart := by
  induction es generalizing b with
  | nil =>
      obtain rfl := Option.some_inj.mp h
      exact ⟨rfl, rfl, by simp⟩
  | cons e es ih =>
      obtain ⟨b₁, hstep, hrest⟩ := run_cons_some.mp h
      obtain ⟨hw, hloaded, he⟩ := step_of_handle hstep
      obtain ⟨hrun, hloaded', hes⟩ := ih hrest
      exact ⟨run_cons_some.mpr ⟨b₁.world, hw, hrun⟩, hloaded'.trans hloaded,
        List.forall_mem_cons.mpr ⟨he, hes⟩⟩

/-- Once the files are loaded, runs of `step` are runs of handlers. -/
lemma run_handle_of_run {w w' : World} {es : List Event} (hes : ∀ e ∈ es, ¬ e.IsStart)
    (h : run (step P) w es = some w') :
    run (bootStep P) ⟨w, true⟩ (es.map .handle) = some ⟨w', true⟩ := by
  induction es generalizing w with
  | nil =>
      obtain rfl := Option.some_inj.mp h
      rfl
  | cons e es ih =>
      obtain ⟨v, hv, hrest⟩ := run_cons_some.mp h
      obtain ⟨he, hes⟩ := List.forall_mem_cons.mp hes
      exact run_cons_some.mpr ⟨_, handle_of_step he hv, ih hes hrest⟩

/-- **With nothing in between**, a process begins with the event `start` of `step`. -/
theorem run_boot_start {b : Boot} {w : World} {raw : GaugeArrival} {ok1 ok2 : Bool}
    {es : List Event} (hes : ∀ e ∈ es, ¬ e.IsStart)
    (h : run (step P) b.world (.start raw ok1 ok2 :: es) = some w) :
    run (bootStep P) b (.construct raw :: .load ok1 ok2 :: es.map .handle) = some ⟨w, true⟩ := by
  obtain ⟨v, hstart, hrun⟩ := run_cons_some.mp h
  obtain rfl := Option.some_inj.mp hstart
  exact run_cons_some.mpr ⟨_, rfl, run_cons_some.mpr ⟨_, rfl, run_handle_of_run hes hrun⟩⟩

/-! ### Codes and indexes -/

/-- The load reads positions. -/
def ReadsPositions (ok1 ok2 : Bool) (w : World) : Prop :=
  ok1 = true ∧ w.behaviorFile.isSome = true ∧ ok2 = true ∧ w.behaviorGpsFile.isSome = true

/-- A load appends the positions of the file, and one of zeros, numbered from 0. -/
lemma mGpsPosVec_load {ok1 ok2 : Bool} {w : World} (h : ReadsPositions ok1 ok2 w) :
    (loadDriverBehavior P ok1 ok2 w).mGpsPosVec =
      w.mGpsPosVec ++ numbered (w.behaviorGpsFile.getD [] ++ [zeroPos]) := by
  obtain ⟨rfl, hfile, rfl, hfile1⟩ := h
  obtain ⟨file, hfile⟩ := Option.isSome_iff_exists.mp hfile
  obtain ⟨file1, hfile1⟩ := Option.isSome_iff_exists.mp hfile1
  rw [loadDriverBehavior, hfile, hfile1]
  show loadPositions w.mGpsPosVec (Stdio.fopen file1) = _
  rw [loadPositions, Stdio.whileNotEof_fopen, foldl_newPos]
  simp [numbered]

/-- Any other load leaves the positions alone. -/
lemma mGpsPosVec_load_of_not {ok1 ok2 : Bool} {w : World} (h : ¬ ReadsPositions ok1 ok2 w) :
    (loadDriverBehavior P ok1 ok2 w).mGpsPosVec = w.mGpsPosVec := by
  rw [loadDriverBehavior]
  split
  · rfl
  · rename_i fp hfp
    dsimp only
    split
    · rfl
    · rename_i fp1 hfp1
      refine absurd ?_ h
      cases hfile : w.behaviorFile <;> cases hfile1 : w.behaviorGpsFile <;> cases ok1 <;>
        cases ok2 <;> simp_all [ReadsPositions, Stdio.fopenRead]

/-- Numbering again from 0 gives each entry its index only behind a multiple of `2 ^ 16`
entries. -/
lemma indexed_append_numbered_iff {vec : List GPSPos} (h : Indexed vec) {ps : List LatLon}
    (hps : ps ≠ []) : Indexed (vec ++ numbered ps) ↔ 65536 ∣ vec.length := by
  have hcode : ∀ j (hj : j < (numbered ps).length), (numbered ps)[j].code = Int16.ofNat j :=
    fun j hj => by simp [numbered, newPos]
  constructor
  · intro hvec
    have hlt : vec.length < (vec ++ numbered ps).length := by
      simp [List.length_pos_iff.mpr hps]
    have hfirst := hvec vec.length hlt
    rw [List.getElem_append_right le_rfl, hcode] at hfirst
    have hint := congrArg Int16.toInt hfirst
    rw [Nat.sub_self, Int16.toInt_ofNat', Int16.toInt_ofNat', Int.bmod_def, Int.bmod_def] at hint
    norm_num at hint
    split_ifs at hint <;> omega
  · rintro ⟨k, hk⟩ i hi
    rcases Nat.lt_or_ge i vec.length with hlt | hge
    · rw [List.getElem_append_left hlt]
      exact h i hlt
    · rw [List.getElem_append_right hge, hcode, ← Int16.toInt_inj, Int16.toInt_ofNat',
        Int16.toInt_ofNat', show i = i - vec.length + 65536 * k by omega]
      simp only [Int.bmod_def]
      push_cast
      norm_num
      omega

/-- Indexes stay what they were. -/
lemma indexed_left {vec vec' : List GPSPos} (hvec : vec <+: vec') (h : Indexed vec') :
    Indexed vec := fun i hi => by
  rw [hvec.getElem hi]
  exact h i (hi.trans_le hvec.length_le)

/-- Handlers append positions. -/
lemma prefix_of_run {w w' : World} {es : List Event} (hes : ∀ e ∈ es, ¬ e.IsStart)
    (h : run (step P) w es = some w') : w.mGpsPosVec <+: w'.mGpsPosVec :=
  run_inv (P := fun v : World => w.mGpsPosVec <+: v.mGpsPosVec)
    (fun _ _ _ he hv hstep => hv.trans (prefix_of_step he hstep)) hes List.prefix_rfl h

/-- Before the load there are positions exactly if something has been handled: the first signal
and every request register their place. -/
lemma mGpsPosVec_early_eq_nil_iff {b u : Boot} {raw : GaugeArrival} {pre : List Event}
    (hu : run (bootStep P) b (.construct raw :: pre.map .handle) = some u) :
    u.world.mGpsPosVec = [] ↔ pre = [] := by
  obtain ⟨b₁, hb₁, hrun⟩ := run_cons_some.mp hu
  obtain rfl := Option.some_inj.mp hb₁
  constructor
  · intro hnil
    cases pre with
    | nil => rfl
    | cons e pre =>
        obtain ⟨b₂, hb₂, hrest⟩ := run_cons_some.mp hrun
        obtain ⟨hrest, -, hpre⟩ := run_handle hrest
        have hnil₂ : b₂.world.mGpsPosVec = [] :=
          List.prefix_nil.mp (hnil ▸ prefix_of_run hpre hrest)
        have hplace : ∃ q, b₂.world.mGpsPosVec = searchOrAppend [] q := by
          cases e with
          | start raw ok1 ok2 => exact absurd hb₂ (by simp [bootStep])
          | signal fix =>
              obtain rfl := Option.some_inj.mp hb₂
              exact ⟨fix.pos, congrArg (·.mGpsPosVec)
                (signal_first fix (w := b.world.construct raw) rfl)⟩
          | callback ok1 ok2 => exact absurd hb₂ (by simp [bootStep])
          | predict clock lat lon =>
              obtain rfl := Option.some_inj.mp hb₂
              exact ⟨_, rfl⟩
        obtain ⟨q, hq⟩ := hplace
        have hlt := searchPos_lt_searchOrAppend [] q
        rw [← hq, hnil₂] at hlt
        exact absurd hlt (Nat.not_lt_zero _)
  · rintro rfl
    obtain rfl := Option.some_inj.mp hrun
    rfl

/-- **Codes are indexes** in every later state exactly if nothing was handled before the load, or
the load read no positions: otherwise the positions of the file stand behind the early ones, with
codes that count from 0 (up to multiples of `2 ^ 16` early positions). -/
theorem indexed_boot_iff (P : Platform) {b u v : Boot} {raw : GaugeArrival} {ok1 ok2 : Bool}
    {pre post : List Event}
    (hu : run (bootStep P) b (.construct raw :: pre.map .handle) = some u)
    (hv : run (bootStep P) u (.load ok1 ok2 :: post.map .handle) = some v) :
    (Indexed v.world.mGpsPosVec ↔
      ¬ ReadsPositions ok1 ok2 u.world ∨ 65536 ∣ u.world.mGpsPosVec.length) ∧
      (u.world.mGpsPosVec = [] ↔ pre = []) ∧
      (ReadsPositions ok1 ok2 u.world → ∃ news, v.world.mGpsPosVec.map (·.toLatLon) =
        u.world.mGpsPosVec.map (·.toLatLon) ++
          (u.world.behaviorGpsFile.getD [] ++ [zeroPos]) ++ news) := by
  have hearly : Indexed u.world.mGpsPosVec := by
    obtain ⟨b₁, hb₁, hrun⟩ := run_cons_some.mp hu
    obtain rfl := Option.some_inj.mp hb₁
    obtain ⟨hrun, -, hpre⟩ := run_handle hrun
    exact run_inv (P := fun w : World => Indexed w.mGpsPosVec)
      (fun _ _ _ he hw hstep => indexed_of_step he hw hstep) hpre indexed_nil hrun
  obtain ⟨b₂, hb₂, hrun⟩ := run_cons_some.mp hv
  have hworld : b₂.world = loadDriverBehavior P ok1 ok2 u.world := by
    rw [bootStep] at hb₂
    split at hb₂
    · exact absurd hb₂ (by simp)
    · exact congrArg Boot.world (Option.some_inj.mp hb₂).symm
  obtain ⟨hrun, -, hpost⟩ := run_handle hrun
  have hgrow := prefix_of_run hpost hrun
  have hlater : Indexed v.world.mGpsPosVec ↔ Indexed b₂.world.mGpsPosVec :=
    ⟨indexed_left hgrow, fun h => run_inv (P := fun w : World => Indexed w.mGpsPosVec)
      (fun _ _ _ he hw hstep => indexed_of_step he hw hstep) hpost h hrun⟩
  refine ⟨?_, mGpsPosVec_early_eq_nil_iff hu, fun hreads => ?_⟩
  · rw [hlater, hworld]
    by_cases hreads : ReadsPositions ok1 ok2 u.world
    · rw [mGpsPosVec_load hreads, indexed_append_numbered_iff hearly (by simp)]
      simp [hreads]
    · rw [mGpsPosVec_load_of_not hreads]
      exact iff_of_true hearly (Or.inl hreads)
  · obtain ⟨news, hnews⟩ := hgrow
    refine ⟨news.map (·.toLatLon), ?_⟩
    rw [← hnews, hworld, mGpsPosVec_load hreads, List.map_append, List.map_append,
      map_toLatLon_numbered]

/-- A signal before a load that reads one position. -/
theorem indexed_boot_iff_early_signal :
    ∃ v, run (bootStep .keyed) ⟨firstWorld blankInstance true (some [⟨5, 5⟩]), false⟩
        [.construct blankInstance, .handle (.signal ⟨.morning, ⟨1, 1⟩⟩), .load true true] =
          some v ∧ ¬ Indexed v.world.mGpsPosVec := by
  refine ⟨_, rfl, fun h => ?_⟩
  have hu : run (bootStep .keyed) ⟨firstWorld blankInstance true (some [⟨5, 5⟩]), false⟩
      (.construct blankInstance :: [Event.signal ⟨.morning, ⟨1, 1⟩⟩].map .handle) = some _ := rfl
  have hiff := @indexed_boot_iff .keyed _ _ _ _ true true _ [] hu rfl
  rcases hiff.1.mp h with hno | hdvd
  · exact hno ⟨rfl, rfl, rfl, rfl⟩
  · revert hdvd
    decide +kernel

end Gauge
