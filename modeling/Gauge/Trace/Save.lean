import Gauge.Base.Loop
import Gauge.Base.Stdio
import Gauge.Trace.State

/-!
`saveGPSTrace`: the files are moved to the rear, and the new track becomes column 0 of its row.

* `rowsMoved_iff`: when a new start row moves every row by one.
* `rowKept_iff`: when a trace for an existing row keeps the row without a gap and loses one trace
  at most.
-/

namespace Gauge

open FileStore Loop

/-- The loop that removes the files of row 9. -/
def removeLastRow (s : Traces) : Store (List Char) GPSInfo :=
  (forLoop 10 (fun j fs =>
    if (s.mGpsData 9 j).length = 0 then .done fs else .yield (remove (traceName 9 j) fs))
    0 s.files).1

/-- The inner loop over the columns of row `i`. -/
def renameRow (s : Traces) (i : ℕ) (fs : Store (List Char) GPSInfo) :
    Store (List Char) GPSInfo :=
  (forLoop 10 (fun j fs =>
    if (s.mGpsData i j).length = 0 then .done fs
    else .yield (rename (traceName i j) (traceName (i + 1) j) fs)) 0 fs).1

/-- The loop that renames the files of the rows 0 to 8. -/
def renameRows (s : Traces) (fs : Store (List Char) GPSInfo) : Store (List Char) GPSInfo :=
  (forLoop 9 (fun i fs => .yield (renameRow s i fs)) 0 fs).1

/-- `for(i = mCurCol; i > 0; i--)`, which renames the columns that can be opened. -/
def renameColumns (row : ℕ) : ℕ → Store (List Char) GPSInfo → Store (List Char) GPSInfo
  | 0, fs => fs
  | i + 1, fs =>
      renameColumns row i
        (match Stdio.fopenRead true (fs (traceName row (i + 1))) with
        | none => fs
        | some _ => rename (traceName row (i + 1)) (traceName row (i + 2)) fs)

/-- The two branches that make room for column 0. -/
def makeRoom (s : Traces) : Traces :=
  if s.mCurRow = -1 then { s with files := renameRows s (removeLastRow s), mCurRow := 0 }
  else if s.mCurCol = -1 then s
  else if s.mCurCol = 9 then { s with files := remove (traceName s.mCurRow.toNat 9) s.files }
  else { s with files := renameColumns s.mCurRow.toNat s.mCurCol.toNat s.files }

/-- The loop that writes `mGpsInfoVec`, record by record. -/
def writtenRecords (vec : List GPSInfo) : List GPSInfo :=
  (forLoop vec.length (fun i f => .yield (f ++ [vec.getD i zeroInfo])) 0 []).1

/-- `GaugeArrival::saveGPSTrace`, where `ok` is the outcome of the last `fopen`. -/
def saveGPSTrace (ok : Bool) (s : Traces) : Traces :=
  if s.mNewTrack = false then s
  else
    let t := makeRoom s
    if ok then
      { t with files := write (traceName t.mCurRow.toNat 0) (writtenRecords t.mGpsInfoVec) t.files }
    else t

@[simp] lemma writtenRecords_eq (vec : List GPSInfo) : writtenRecords vec = vec :=
  forLoop_push vec zeroInfo

/-! ### A new start row -/

/-- The files are those of the vectors, and the columns of a row have no gap. -/
structure Traces.InStep (s : Traces) : Prop where
  stored : ∀ i < 10, ∀ j < 10, s.file i j = none ↔ s.mGpsData i j = []
  noGap : ∀ i < 10, ∀ j < 9, s.file i j = none → s.file i (j + 1) = none

/-- Every row but the last one has moved by one, and row 0 is the new track alone. -/
structure RowsMoved (s s' : Traces) : Prop where
  moved : ∀ i ≤ 8, ∀ j < 10, s'.file (i + 1) j = s.file i j
  first : ∀ j < 10, s'.file 0 j = if j = 0 then some s.mGpsInfoVec else none

lemma column_injective {j : ℕ} (hj : j < 10) : Function.Injective fun a => traceName a j :=
  fun _ _ h => ((traceName_inj (by omega) (by omega)).mp h).1

namespace Traces.InStep

variable {s : Traces} (hs : s.InStep)
include hs

lemma none_of_le {i j j' : ℕ} (hi : i < 10) (hj' : j' < 10) (hle : j ≤ j')
    (h : s.file i j = none) : s.file i j' = none := by
  induction j', hle using Nat.le_induction with
  | base => exact h
  | succ j' _ ih => exact hs.noGap i hi j' (by omega) (ih (by omega))

/-- At a `break`, the rest of the row has no files. -/
lemma none_of_break {i k j : ℕ} (hi : i < 10) (hj : j < 10) (hkj : k ≤ j)
    (h : (s.mGpsData i k).length = 0) : s.file i j = none :=
  hs.none_of_le hi hj hkj
    ((hs.stored i hi k (by omega)).mpr (List.eq_nil_of_length_eq_zero h))

/-- Row 9 is removed, and nothing else. -/
lemma fileAt_removeLastRow {j : ℕ} (hj : j < 10) (a : ℕ) :
    fileAt (removeLastRow s) a j = if a = 9 then none else s.file a j := by
  refine forLoop_inv
    (fun k fs => ∀ j < 10, ∀ a, fileAt fs a j = if a = 9 ∧ j < k then none else s.file a j)
    (fun fs _ => ∀ j < 10, ∀ a, fileAt fs a j = if a = 9 then none else s.file a j)
    (Nat.zero_le 10) ?_ ?_ ?_ ?_ j hj a
  · intro j _ a
    rw [if_neg (by omega)]
    rfl
  · intro k fs fs' _ hk hfs hbody j hj a
    split_ifs at hbody with hdata
    obtain rfl := ForInStep.yield.inj hbody
    rw [fileAt_remove (by omega) (by omega), hfs j hj a]
    split_ifs <;> first | rfl | omega
  · intro k fs fs' _ hk hfs hbody j hj a
    split_ifs at hbody with hdata
    obtain rfl := ForInStep.done.inj hbody
    rw [hfs j hj a]
    split_ifs with h1 h2 h2
    · rfl
    · exact absurd h1.1 h2
    · rw [h2]
      exact hs.none_of_break (by omega) hj (by omega) hdata
    · rfl
  · intro fs hfs j hj a
    rw [hfs j hj a]
    exact if_congr (by omega) rfl rfl

/-- Round `i` of the renames, in all columns `c` at once. -/
lemma fileAt_renameRow {c : ℕ → ℕ → Option (List GPSInfo)} {i : ℕ} (hi : i < 10)
    (hc : ∀ j < 10, c j i = s.file i j) {fs : Store (List Char) GPSInfo}
    (hfs : ∀ j < 10, ∀ a, fileAt fs a j = stage (c j) i a) {j : ℕ} (hj : j < 10) (a : ℕ) :
    fileAt (renameRow s i fs) a j = stage (c j) (i + 1) a := by
  refine forLoop_inv
    (fun k fs => ∀ j < 10, ∀ a, fileAt fs a j = stage (c j) (if j < k then i + 1 else i) a)
    (fun fs _ => ∀ j < 10, ∀ a, fileAt fs a j = stage (c j) (i + 1) a)
    (Nat.zero_le 10) ?_ ?_ ?_ ?_ j hj a
  · intro j hj a
    rw [if_neg (Nat.not_lt_zero j)]
    exact hfs j hj a
  · intro k fs fs' _ hk hfs hbody j hj a
    split_ifs at hbody with hdata
    obtain rfl := ForInStep.yield.inj hbody
    rcases eq_or_ne j k with rfl | hjk
    · rw [if_pos (Nat.lt_succ_self j)]
      refine rename_stage (column_injective hk) ?_ (fun a => ?_) a
      · rw [hc j hk]
        exact fun hnone => hdata (List.length_eq_zero_iff.mpr ((hs.stored i hi j hk).mp hnone))
      · have hcell := hfs j hk a
        rwa [if_neg (lt_irrefl j)] at hcell
    · rw [fileAt_rename_of_ne (by omega) (by omega) (by omega) (by omega) (by omega), hfs j hj a]
      congr 1
      exact if_congr (by omega) rfl rfl
  · intro k fs fs' _ hk hfs hbody j hj a
    split_ifs at hbody with hdata
    obtain rfl := ForInStep.done.inj hbody
    rw [hfs j hj a]
    split_ifs with hjk
    · rfl
    · have hnone := hs.none_of_break hi hj (not_lt.mp hjk) hdata
      rw [stage_succ_of_none (by rw [hc j hj, hnone])]
  · intro fs hfs j hj a
    rw [hfs j hj a, if_pos hj]

/-- The store after the renames: each column has run its chain. -/
lemma fileAt_renameRows {j : ℕ} (hj : j < 10) (a : ℕ) :
    fileAt (renameRows s (removeLastRow s)) a j =
      stage (fun i => fileAt (removeLastRow s) i j) 9 a := by
  refine forLoop_steps (f := renameRow s)
    (fun i fs => ∀ j < 10, ∀ a,
      fileAt fs a j = stage (fun i => fileAt (removeLastRow s) i j) i a)
    (Nat.zero_le 9) ?_ ?_ j hj a
  · intro j _ a
    rw [stage_zero]
  · intro i fs _ hi hfs j hj a
    refine hs.fileAt_renameRow (c := fun j i => fileAt (removeLastRow s) i j) (by omega) ?_ hfs hj a
    intro j hj
    rw [hs.fileAt_removeLastRow hj, if_neg (by omega)]

end Traces.InStep

lemma saveGPSTrace_newRow {s : Traces} (hnew : s.mNewTrack = true) (hrow : s.mCurRow = -1) :
    (saveGPSTrace true s).files =
      write (traceName 0 0) s.mGpsInfoVec (renameRows s (removeLastRow s)) := by
  rw [saveGPSTrace, if_neg (by simp [hnew]), makeRoom, if_pos hrow]
  simp

/-- **A new start row moves the rows by one**, exactly if no two of the rows 0 to 8 that are
neighbours have traces: of two neighbours, the second one is replaced before it is moved. -/
theorem rowsMoved_iff {s : Traces} (hs : s.InStep) (hnew : s.mNewTrack = true)
    (hrow : s.mCurRow = -1) :
    RowsMoved s (saveGPSTrace true s) ↔
      ∀ i ≤ 7, s.mGpsData i 0 = [] ∨ s.mGpsData (i + 1) 0 = [] := by
  have hfile : ∀ i j, j < 10 → (saveGPSTrace true s).file i j =
      if i = 0 ∧ j = 0 then some s.mGpsInfoVec
      else stage (fun i => fileAt (removeLastRow s) i j) 9 i := by
    intro i j hj
    rw [Traces.file, saveGPSTrace_newRow hnew hrow, fileAt_write (by omega) (by omega),
      hs.fileAt_renameRows hj]
  have hold : ∀ i < 9, ∀ j < 10, fileAt (removeLastRow s) i j = s.file i j := by
    intro i hi j hj
    rw [hs.fileAt_removeLastRow hj, if_neg (by omega)]
  have hcolumn : ∀ j < 10, (∀ i ≤ 8, (saveGPSTrace true s).file (i + 1) j = s.file i j) ↔
      ∀ i ≤ 7, s.file i j = none ∨ s.file (i + 1) j = none := by
    intro j hj
    have hshift := shifted_iff (c := fun i => fileAt (removeLastRow s) i j) (n := 9)
      (by rw [hs.fileAt_removeLastRow hj, if_pos rfl])
    refine ⟨fun h => ?_, fun h => ?_⟩
    · intro i hi
      rw [← hold i (by omega) j hj, ← hold (i + 1) (by omega) j hj]
      refine hshift.mp (fun a ha => ?_) i (by omega)
      rw [hold a ha j hj, ← h a (by omega), hfile (a + 1) j hj, if_neg (by omega)]
    · intro i hi
      rw [hfile (i + 1) j hj, if_neg (by omega), ← hold i (by omega) j hj]
      refine hshift.mpr (fun a ha => ?_) i (by omega)
      rw [hold a (by omega) j hj, hold (a + 1) (by omega) j hj]
      exact h a (by omega)
  refine ⟨fun h => ?_, fun h => ?_⟩
  · intro i hi
    rw [← hs.stored i (by omega) 0 (by omega), ← hs.stored (i + 1) (by omega) 0 (by omega)]
    exact (hcolumn 0 (by omega)).mp (fun i hi => h.moved i hi 0 (by omega)) i hi
  · refine ⟨fun i hi j hj => (hcolumn j hj).mpr (fun i hi => ?_) i hi, fun j hj => ?_⟩
    · refine (h i hi).imp (fun h0 => ?_) fun h0 => ?_ <;>
        exact hs.none_of_le (by omega) hj (Nat.zero_le j)
          ((hs.stored _ (by omega) 0 (by omega)).mpr h0)
    · rw [hfile 0 j hj, stage_first (by omega)]
      exact if_congr (by omega) rfl rfl

lemma inStep_tracesIn {cells : List (ℕ × ℕ)} (hcells : ∀ c ∈ cells, c.2 = 0) (row col : ℤ) :
    (tracesIn cells row col).InStep := by
  have hfile : ∀ i, ∀ j < 10, (tracesIn cells row col).file i j =
      if (i, j) ∈ cells then some [sampleAt (10 * i + j)] else none := fun i j hj =>
    file_tracesIn (fun c hc => by rw [hcells c hc]; omega) row col hj
  refine ⟨fun i _ j hj => ?_, fun i _ j hj _ => ?_⟩
  · rw [hfile i j hj]
    simp [tracesIn]
  · rw [hfile i (j + 1) (by omega), if_neg]
    intro hmem
    exact absurd (hcells _ hmem) (Nat.succ_ne_zero j)

theorem rowsMoved_one_row :
    RowsMoved (tracesIn [(0, 0)] (-1) (-1)) (saveGPSTrace true (tracesIn [(0, 0)] (-1) (-1))) :=
  (rowsMoved_iff (inStep_tracesIn (by simp) (-1) (-1)) rfl rfl).mpr fun i _ =>
    .inr (by simp [tracesIn])

/-- Of two rows, the file of the first one replaces that of the second one and is then moved on
to row 2. -/
theorem not_forall_rowsMoved :
    ¬ ∀ s : Traces, s.InStep → s.mNewTrack = true → s.mCurRow = -1 →
      RowsMoved s (saveGPSTrace true s) := by
  intro h
  have hmoved := (h (tracesIn [(0, 0), (1, 0)] (-1) (-1)) (inStep_tracesIn (by simp) (-1) (-1))
    rfl rfl).moved 0 (by omega) 0 (by omega)
  have hlost : (saveGPSTrace true (tracesIn [(0, 0), (1, 0)] (-1) (-1))).file 1 0 = none := by
    decide
  rw [hlost, file_tracesIn (by simp) (-1) (-1) (by omega)] at hmoved
  simp at hmoved

/-! ### A trace for an existing row -/

/-- The trace of column `j` is in no column any more. -/
def Lost (s s' : Traces) (row j : ℕ) : Prop :=
  j < 10 ∧ ∃ f, s.file row j = some f ∧ ∀ c < 10, s'.file row c ≠ some f

/-- The row has no gap and the new track in column 0, and it has lost one trace at most. -/
structure RowKept (s s' : Traces) (row : ℕ) : Prop where
  noGap : ∃ n ≤ 10, s'.RowUpTo row n
  newest : s'.file row 0 = some s.mGpsInfoVec
  lost : ∀ j j', Lost s s' row j → Lost s s' row j' → j = j'

/-- The trace of column `j` is also the new track or that of one of the columns 1 to 8. -/
def Spare (s : Traces) (row j : ℕ) : Prop :=
  s.file row j = some s.mGpsInfoVec ∨ ∃ c, 1 ≤ c ∧ c ≤ 8 ∧ s.file row c = s.file row j

/-- The renames move the columns 1 to `m` by one. -/
lemma fileAt_renameColumns {row m j : ℕ} {fs : Store (List Char) GPSInfo} (hm : m ≤ 8)
    (hj : j < 10) (hfs : ∀ c, 1 ≤ c → c ≤ m → fileAt fs row c ≠ none) :
    fileAt (renameColumns row m fs) row j =
      if 2 ≤ j ∧ j ≤ m + 1 then fileAt fs row (j - 1)
      else if j = 1 ∧ 1 ≤ m then none
      else fileAt fs row j := by
  induction m generalizing fs with
  | zero => rw [renameColumns, if_neg (by omega), if_neg (by omega)]
  | succ m ih =>
      have hsome := hfs (m + 1) (by omega) le_rfl
      have hopen : (match Stdio.fopenRead true (fs (traceName row (m + 1))) with
          | none => fs
          | some _ => rename (traceName row (m + 1)) (traceName row (m + 2)) fs) =
          rename (traceName row (m + 1)) (traceName row (m + 2)) fs := by
        obtain ⟨file, hfile⟩ := Option.ne_none_iff_exists'.mp hsome
        rw [fileAt] at hfile
        simp [Stdio.fopenRead, hfile]
      have hmoved : ∀ c < 10, fileAt (rename (traceName row (m + 1)) (traceName row (m + 2)) fs)
          row c = if c = m + 2 then fileAt fs row (m + 1)
            else if c = m + 1 then none else fileAt fs row c := by
        intro c hc
        rw [fileAt_rename (by omega) (by omega) (by omega) (by omega) hsome]
        simp
      rw [renameColumns, hopen, ih (by omega)]
      · rw [hmoved j hj, hmoved (j - 1) (by omega)]
        split_ifs <;> first | rfl | omega | (congr 1; omega)
      · intro c hc hcm
        rw [hmoved c (by omega), if_neg (by omega), if_neg (by omega)]
        exact hfs c hc (by omega)

/-- The store after a save into an existing row. -/
lemma file_saveGPSTrace {s : Traces} (hnew : s.mNewTrack = true) (hrow : 0 ≤ s.mCurRow) {j : ℕ}
    (hj : j < 10) :
    (saveGPSTrace true s).file s.mCurRow.toNat j =
      if j = 0 then some s.mGpsInfoVec
      else fileAt (makeRoom s).files s.mCurRow.toNat j := by
  have hkeep : (makeRoom s).mCurRow = s.mCurRow ∧ (makeRoom s).mGpsInfoVec = s.mGpsInfoVec := by
    rw [makeRoom, if_neg (by omega)]
    split_ifs <;> exact ⟨rfl, rfl⟩
  rw [saveGPSTrace, if_neg (by simp [hnew])]
  simp only [if_true, writtenRecords_eq, Traces.file, hkeep.1, hkeep.2]
  rw [fileAt_write (by omega) (by omega)]
  simp

section Kept

variable {s s' : Traces} {row n : ℕ}

lemma rowKept_of_overwritten (hn : n ≤ 10) (hcols : s.RowUpTo row n)
    (hfile : ∀ j < 10, s'.file row j = if j = 0 then some s.mGpsInfoVec else s.file row j) :
    RowKept s s' row := by
  have hlost : ∀ j, Lost s s' row j → j = 0 := by
    rintro j ⟨hj, f, hf, hnot⟩
    by_contra hj0
    exact hnot j hj (by rw [hfile j hj, if_neg hj0, hf])
  refine ⟨⟨max n 1, by omega, fun j hj => ?_⟩, by rw [hfile 0 (by omega), if_pos rfl],
    fun j j' h h' => (hlost j h).trans (hlost j' h').symm⟩
  rw [hfile j hj]
  split_ifs with hj0
  · simp only [ne_eq, reduceCtorEq, not_false_eq_true, true_iff]
    omega
  · rw [hcols j hj]
    omega

/-- With column 9 removed, two traces have left the row: those of the columns 0 and 9. -/
lemma rowKept_iff_spare (hcols : s.RowUpTo row 10)
    (hfile : ∀ j < 10, s'.file row j =
      if j = 0 then some s.mGpsInfoVec else if j = 9 then none else s.file row j) :
    RowKept s s' row ↔ Spare s row 0 ∨ Spare s row 9 := by
  have hstays : ∀ j < 10, Spare s row j → ¬ Lost s s' row j := by
    rintro j hj hspare ⟨-, f, hf, hnot⟩
    rcases hspare with hnew | ⟨c, hc, hc', heq⟩
    · exact hnot 0 (by omega) (by rw [hfile 0 (by omega), if_pos rfl, ← hnew, hf])
    · exact hnot c (by omega) (by
        rw [hfile c (by omega), if_neg (by omega), if_neg (by omega), heq, hf])
  have hmiddle : ∀ j, Lost s s' row j → j = 0 ∨ j = 9 := by
    rintro j ⟨hj, f, hf, hnot⟩
    by_contra hne
    obtain ⟨h0, h9⟩ := not_or.mp hne
    exact hnot j hj (by rw [hfile j hj, if_neg h0, if_neg h9, hf])
  have hleaves : ∀ j < 10, ¬ Spare s row j → Lost s s' row j := by
    intro j hj hspare
    obtain ⟨f, hf⟩ := Option.ne_none_iff_exists'.mp ((hcols j hj).mpr hj)
    obtain ⟨hnew, hcopy⟩ := not_or.mp hspare
    refine ⟨hj, f, hf, fun c hc heq => ?_⟩
    rw [hfile c hc] at heq
    split_ifs at heq with h0 h9
    · exact hnew (by rw [hf, heq])
    · exact hcopy ⟨c, by omega, by omega, by rw [hf, heq]⟩
  refine ⟨fun h => ?_, fun h => ?_⟩
  · by_contra hnone
    obtain ⟨h0, h9⟩ := not_or.mp hnone
    exact absurd (h.lost 0 9 (hleaves 0 (by omega) h0) (hleaves 9 (by omega) h9)) (by omega)
  · refine ⟨⟨9, by omega, fun j hj => ?_⟩, by rw [hfile 0 (by omega), if_pos rfl], ?_⟩
    · rw [hfile j hj]
      split_ifs with h0 h9
      · simp [h0]
      · simp [h9]
      · rw [hcols j hj]
        omega
    · intro j j' hj hj'
      have hone : ∀ j, Lost s s' row j → (Spare s row 0 → j = 9) ∧ (Spare s row 9 → j = 0) := by
        intro j hj
        constructor <;> intro hspare <;> rcases hmiddle j hj with rfl | rfl
        · exact absurd hj (hstays 0 (by omega) hspare)
        · rfl
        · rfl
        · exact absurd hj (hstays 9 (by omega) hspare)
      rcases h with h0 | h9
      · rw [(hone j hj).1 h0, (hone j' hj').1 h0]
      · rw [(hone j hj).2 h9, (hone j' hj').2 h9]

lemma not_rowKept_of_gap (h1 : s'.file row 1 = none) (h2 : s'.file row 2 ≠ none) :
    ¬ RowKept s s' row := by
  intro h
  obtain ⟨n, -, hcols⟩ := h.noGap
  have hlt := (hcols 2 (by omega)).mp h2
  exact (hcols 1 (by omega)).mpr (by omega) h1

end Kept

/-- **A trace for an existing row keeps the row**, exactly if the cursor is not behind column 0,
or is at column 9 and one of the two traces that leave the row stays in it in another column.
With the cursor at a column 1 to 8, column 1 moves away and nothing takes its place. -/
theorem rowKept_iff {s : Traces} {n : ℕ} (hnew : s.mNewTrack = true) (hrow : 0 ≤ s.mCurRow)
    (hn : n ≤ 10) (hcols : s.RowUpTo s.mCurRow.toNat n) (hcol : -1 ≤ s.mCurCol)
    (hcoln : s.mCurCol < n) :
    RowKept s (saveGPSTrace true s) s.mCurRow.toNat ↔
      s.mCurCol ≤ 0 ∨
        s.mCurCol = 9 ∧ (Spare s s.mCurRow.toNat 0 ∨ Spare s s.mCurRow.toNat 9) := by
  rcases le_or_gt s.mCurCol 0 with hle | hgt
  · -- nothing is moved
    refine iff_of_true (rowKept_of_overwritten hn hcols fun j hj => ?_) (.inl hle)
    have hroom : (makeRoom s).files = s.files := by
      rw [makeRoom, if_neg (by omega)]
      split_ifs with h1 h9
      · rfl
      · omega
      · rw [show s.mCurCol.toNat = 0 by omega, renameColumns]
    rw [file_saveGPSTrace hnew hrow hj, hroom, Traces.file]
  rcases eq_or_ne s.mCurCol 9 with h9 | h9
  · obtain rfl : n = 10 := by omega
    rw [rowKept_iff_spare hcols]
    · simp [h9]
    · intro j hj
      have hroom : (makeRoom s).files = remove (traceName s.mCurRow.toNat 9) s.files := by
        rw [makeRoom, if_neg (by omega), if_neg (by omega), if_pos h9]
      rw [file_saveGPSTrace hnew hrow hj, hroom, fileAt_remove (by omega) (by omega)]
      simp [Traces.file]
  · refine iff_of_false ?_ (by omega)
    have hroom : (makeRoom s).files =
        renameColumns s.mCurRow.toNat s.mCurCol.toNat s.files := by
      rw [makeRoom, if_neg (by omega), if_neg (by omega), if_neg h9]
    have hfs : ∀ c, 1 ≤ c → c ≤ s.mCurCol.toNat → fileAt s.files s.mCurRow.toNat c ≠ none :=
      fun c _ hc => (hcols c (by omega)).mpr (by omega)
    apply not_rowKept_of_gap
    · rw [file_saveGPSTrace hnew hrow (by omega), if_neg (by omega), hroom,
        fileAt_renameColumns (by omega) (by omega) hfs, if_neg (by omega), if_pos (by omega)]
    · rw [file_saveGPSTrace hnew hrow (by omega), if_neg (by omega), hroom,
        fileAt_renameColumns (by omega) (by omega) hfs, if_pos (by omega)]
      exact hfs 1 le_rfl (by omega)

theorem rowKept_three_columns :
    RowKept (tracesIn [(0, 0), (0, 1), (0, 2)] 0 0)
      (saveGPSTrace true (tracesIn [(0, 0), (0, 1), (0, 2)] 0 0)) 0 :=
  have hcols : (tracesIn [(0, 0), (0, 1), (0, 2)] 0 0).RowUpTo 0 3 :=
    rowUpTo_tracesIn (by simp) (fun j _ => by simp; omega) 0 0
  (rowKept_iff rfl le_rfl (by omega) hcols (by decide) (by decide)).mpr (.inl le_rfl)

/-- With the cursor at column 1 of two, the row has the columns 0 and 2 afterwards. -/
theorem not_forall_rowKept :
    ¬ ∀ (s : Traces) (n : ℕ), s.mNewTrack = true → 0 ≤ s.mCurRow → n ≤ 10 →
      s.RowUpTo s.mCurRow.toNat n → -1 ≤ s.mCurCol → s.mCurCol < n →
        RowKept s (saveGPSTrace true s) s.mCurRow.toNat := by
  intro h
  have htwo : (tracesIn [(0, 0), (0, 1)] 0 1).RowUpTo 0 2 :=
    rowUpTo_tracesIn (by simp) (fun j _ => by simp; omega) 0 1
  obtain ⟨n, -, hcols⟩ := (h (tracesIn [(0, 0), (0, 1)] 0 1) 2 rfl le_rfl (by omega) htwo
    (by decide) (by decide)).noGap
  have hgap : (saveGPSTrace true (tracesIn [(0, 0), (0, 1)] 0 1)).file 0 1 = none ∧
      (saveGPSTrace true (tracesIn [(0, 0), (0, 1)] 0 1)).file 0 2 ≠ none := by decide
  have hlt := (hcols 2 (by omega)).mp hgap.2
  exact (hcols 1 (by omega)).mpr (by omega) hgap.1

end Gauge
