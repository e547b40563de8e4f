import Gauge.Base.Loop
import Gauge.Base.Stdio
import Gauge.Trace.State

/-!
`loadGPSTrace`.  Two things keep it from reading the files back as they were written: the
reading loop appends a record of zeros to each trace (`Stdio.whileNotEof_fopen`), and the column
counter goes on from one row to the next.

* `loadGPSTrace_mGpsData`: what is loaded, for any files.
* `readBack_iff`: when the traces are those of the files.
-/

namespace Gauge

open FileStore Loop

/-- `mGpsData[i][j].push_back(info)`. -/
def pushData (i j : ℕ) (data : ℕ → ℕ → List GPSInfo) (info : GPSInfo) : ℕ → ℕ → List GPSInfo :=
  fun i' j' => if i' = i ∧ j' = j then data i' j' ++ [info] else data i' j'

/-- The body of the inner loop of `loadGPSTrace`. -/
def loadFile (fs : Store (List Char) GPSInfo) (i j : ℕ) (data : ℕ → ℕ → List GPSInfo) :
    ForInStep (ℕ → ℕ → List GPSInfo) :=
  match Stdio.fopenRead true (fileAt fs i j) with
  | some fp => .yield (Stdio.whileNotEof zeroInfo (pushData i j) data fp)
  | none => .done data

/-- The inner loop of `loadGPSTrace`, which goes on from the counter `j` of the row before. -/
def loadRow (fs : Store (List Char) GPSInfo) (i : ℕ) (x : (ℕ → ℕ → List GPSInfo) × ℕ) :
    (ℕ → ℕ → List GPSInfo) × ℕ :=
  forLoop 10 (loadFile fs i) x.2 x.1

/-- The two loops of `loadGPSTrace`. -/
def loadRows (fs : Store (List Char) GPSInfo) (data : ℕ → ℕ → List GPSInfo) :
    ℕ → ℕ → List GPSInfo :=
  (forLoop 10 (fun i x => .yield (loadRow fs i x)) 0 (data, 0)).1.1

/-- `GaugeArrival::loadGPSTrace`. -/
def loadGPSTrace (s : Traces) : Traces := { s with mGpsData := loadRows s.files s.mGpsData }

/-- What the reading loop appends for the file of row `i` and column `j`. -/
def loaded (fs : Store (List Char) GPSInfo) (i j : ℕ) : List GPSInfo :=
  (fileAt fs i j).getD [] ++ [zeroInfo]

lemma pushData_foldl (i j : ℕ) (infos : List GPSInfo) (data : ℕ → ℕ → List GPSInfo) (i' j' : ℕ) :
    infos.foldl (pushData i j) data i' j' =
      if i' = i ∧ j' = j then data i' j' ++ infos else data i' j' := by
  induction infos generalizing data with
  | nil => simp
  | cons info infos ih =>
      rw [List.foldl_cons, ih, pushData]
      split_ifs <;> simp

lemma loadFile_of_none {fs : Store (List Char) GPSInfo} {i j : ℕ} (h : fileAt fs i j = none)
    (data : ℕ → ℕ → List GPSInfo) : loadFile fs i j data = .done data := by
  rw [loadFile, h]
  rfl

lemma loadFile_of_ne_none {fs : Store (List Char) GPSInfo} {i j : ℕ} (h : fileAt fs i j ≠ none)
    (data : ℕ → ℕ → List GPSInfo) :
    loadFile fs i j data = .yield fun i' j' =>
      if i' = i ∧ j' = j then data i' j' ++ loaded fs i j else data i' j' := by
  obtain ⟨file, hfile⟩ := Option.ne_none_iff_exists'.mp h
  rw [loadFile, loaded, hfile]
  simp only [Stdio.fopenRead, if_true, Option.map_some, Stdio.whileNotEof_fopen, Option.getD_some]
  congr 1
  funext i' j'
  exact pushData_foldl i j _ data i' j'

/-- The column at which the scan of row `i` starts, if row `i` has `k i` columns. -/
def firstCol (k : ℕ → ℕ) : ℕ → ℕ
  | 0 => 0
  | i + 1 => max (firstCol k i) (k i)

lemma firstCol_le {k : ℕ → ℕ} {i : ℕ} (hk : ∀ a < i, k a ≤ 10) : firstCol k i ≤ 10 := by
  induction i with
  | zero => exact Nat.zero_le 10
  | succ i ih => exact max_le (ih fun a ha => hk a (by omega)) (hk i (Nat.lt_succ_self i))

lemma firstCol_eq_zero {k : ℕ → ℕ} {i : ℕ} (hk : ∀ a < i, k a = 0) : firstCol k i = 0 := by
  induction i with
  | zero => rfl
  | succ i ih =>
      rw [firstCol, ih fun a ha => hk a (by omega), hk i (Nat.lt_succ_self i)]
      rfl

/-- The scan of one row with `n` columns, from the column `x.2` on. -/
lemma loadRow_eq {s : Traces} {i n : ℕ} {x : (ℕ → ℕ → List GPSInfo) × ℕ} (hx : x.2 ≤ 10)
    (hn : n ≤ 10) (hcols : s.RowUpTo i n) :
    (loadRow s.files i x).2 = max x.2 n ∧
      ∀ i' j', (loadRow s.files i x).1 i' j' =
        if i' = i ∧ x.2 ≤ j' ∧ j' < n then x.1 i' j' ++ loaded s.files i' j' else x.1 i' j' := by
  refine forLoop_inv
    (fun j (d : ℕ → ℕ → List GPSInfo) => (j = x.2 ∨ j ≤ n) ∧ ∀ i' j', d i' j' =
      if i' = i ∧ x.2 ≤ j' ∧ j' < j then x.1 i' j' ++ loaded s.files i' j' else x.1 i' j')
    (fun (d : ℕ → ℕ → List GPSInfo) j => j = max x.2 n ∧ ∀ i' j', d i' j' =
      if i' = i ∧ x.2 ≤ j' ∧ j' < n then x.1 i' j' ++ loaded s.files i' j' else x.1 i' j')
    hx ?_ ?_ ?_ ?_
  · exact ⟨.inl rfl, fun i' j' => by rw [if_neg (by omega)]⟩
  · intro j d d' hj hj10 hd hbody
    rcases eq_or_ne (s.file i j) none with hnone | hsome
    · rw [loadFile_of_none hnone] at hbody
      cases hbody
    · rw [loadFile_of_ne_none hsome] at hbody
      obtain rfl := ForInStep.yield.inj hbody
      have hjn := (hcols j hj10).mp hsome
      refine ⟨.inr hjn, fun i' j' => ?_⟩
      simp only [hd.2 i' j']
      rcases eq_or_ne i' i with rfl | hi
      · rcases eq_or_ne j' j with rfl | hj'
        · simp [hj]
        · simp only [hj', and_false, if_false, true_and]
          exact if_congr (by omega) rfl rfl
      · simp [hi]
  · intro j d d' hj hj10 hd hbody
    rcases eq_or_ne (s.file i j) none with hnone | hsome
    · rw [loadFile_of_none hnone] at hbody
      obtain rfl := ForInStep.done.inj hbody
      have hnj : ¬ j < n := fun hlt => (hcols j hj10).mpr hlt hnone
      refine ⟨by omega, fun i' j' => ?_⟩
      rw [hd.2 i' j']
      exact if_congr (by omega) rfl rfl
    · rw [loadFile_of_ne_none hsome] at hbody
      cases hbody
  · intro d hd
    refine ⟨by omega, fun i' j' => ?_⟩
    rw [hd.2 i' j']
    exact if_congr (by omega) rfl rfl

/-- **What is loaded**: of each row the columns from the one at which the rows before it ended,
with a record of zeros behind the trace. -/
lemma loadGPSTrace_mGpsData {s : Traces} {k : ℕ → ℕ} (hk : ∀ i < 10, k i ≤ 10)
    (hcols : ∀ i < 10, s.RowUpTo i (k i)) :
    ∀ i j, (loadGPSTrace s).mGpsData i j =
      if i < 10 ∧ firstCol k i ≤ j ∧ j < k i then s.mGpsData i j ++ loaded s.files i j
      else s.mGpsData i j := by
  simp only [loadGPSTrace, loadRows]
  have hrows := forLoop_steps (f := loadRow s.files) (s := (s.mGpsData, 0))
    (fun r (x : (ℕ → ℕ → List GPSInfo) × ℕ) => x.2 = firstCol k r ∧ ∀ i j, x.1 i j =
      if i < r ∧ firstCol k i ≤ j ∧ j < k i then s.mGpsData i j ++ loaded s.files i j
      else s.mGpsData i j)
    (Nat.zero_le 10) ⟨rfl, fun i j => by rw [if_neg (by omega)]⟩ fun r x _ hr hx => ?_
  · exact hrows.2
  · have hx2 : x.2 ≤ 10 := hx.1 ▸ firstCol_le fun a ha => hk a (ha.trans hr)
    have hrow := loadRow_eq hx2 (hk r hr) (hcols r hr)
    rw [hx.1] at hrow
    refine ⟨hrow.1, fun i j => ?_⟩
    rw [hrow.2 i j, hx.2 i j]
    rcases eq_or_ne i r with rfl | hir
    · simp
    · simp only [hir, false_and, if_false]
      exact if_congr (by omega) rfl rfl

/-- The vectors are the traces of the files. -/
def ReadBack (s s' : Traces) : Prop :=
  ∀ i < 10, ∀ j < 10, s'.mGpsData i j = (s.file i j).getD []

/-- **Trace files are read back as they were written**, exactly if there are none: the first
trace of the first row that has one gets a record of zeros. -/
theorem readBack_iff {s : Traces} (hempty : ∀ i < 10, ∀ j < 10, s.mGpsData i j = [])
    (hrows : ∀ i < 10, ∃ n ≤ 10, s.RowUpTo i n) :
    ReadBack s (loadGPSTrace s) ↔ ∀ i < 10, ∀ j < 10, s.file i j = none := by
  choose! k hk hcols using hrows
  have hload := loadGPSTrace_mGpsData hk hcols
  refine ⟨fun h => ?_, fun h => ?_⟩
  · have hzero : ∀ i < 10, k i = 0 := by
      intro i
      induction i using Nat.strong_induction_on with
      | _ i ih =>
        intro hi
        by_contra hne
        have hfirst : firstCol k i = 0 := firstCol_eq_zero fun a ha => ih a ha (by omega)
        have hcell := h i hi 0 (by omega)
        rw [hload, if_pos ⟨hi, by omega, by omega⟩, hempty i hi 0 (by omega), loaded] at hcell
        simpa [Traces.file] using congrArg List.length hcell
    intro i hi j hj
    by_contra hfile
    have hlt := (hcols i hi j hj).mp hfile
    rw [hzero i hi] at hlt
    exact Nat.not_lt_zero j hlt
  · intro i hi j hj
    have hk0 : ¬ j < k i := fun hlt => (hcols i hi j hj).mpr hlt (h i hi j hj)
    rw [hload, if_neg (by omega), hempty i hi j hj, h i hi j hj]
    rfl

/-- The instance before it loads the files of the given cells. -/
def unloaded (cells : List (ℕ × ℕ)) : Traces :=
  { tracesIn cells (-1) (-1) with mGpsData := fun _ _ => [] }

theorem readBack_no_files : ReadBack (unloaded []) (loadGPSTrace (unloaded [])) :=
  (readBack_iff (fun _ _ _ _ => rfl) fun _ _ =>
    ⟨0, by omega, rowUpTo_tracesIn (by simp) (by simp) (-1) (-1)⟩).mpr fun _ _ _ _ => rfl

/-- Of two rows with one trace each, the first one gets a record of zeros, and the second one is
not loaded. -/
theorem not_forall_readBack :
    ¬ ∀ s : Traces, (∀ i < 10, ∀ j < 10, s.mGpsData i j = []) →
      (∀ i < 10, ∃ n ≤ 10, s.RowUpTo i n) → ReadBack s (loadGPSTrace s) := by
  intro h
  have hrows : ∀ i < 10, (unloaded [(0, 0), (1, 0)]).RowUpTo i (if i < 2 then 1 else 0) := by
    intro i _
    refine rowUpTo_tracesIn (by simp) (fun j _ => ?_) (-1) (-1)
    split_ifs <;> simp <;> omega
  have hload := loadGPSTrace_mGpsData (fun i _ => by split_ifs <;> omega) hrows 1 0
  have hback := h (unloaded [(0, 0), (1, 0)]) (fun _ _ _ _ => rfl)
    (fun i hi => ⟨_, by split_ifs <;> omega, hrows i hi⟩) 1 (by omega) 0 (by omega)
  rw [hback, if_neg (by decide)] at hload
  exact absurd hload (by decide)

end Gauge
