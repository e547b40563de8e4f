import Gauge.Base.Machine
import Gauge.Trace.Compare
import Gauge.Trace.Load
import Gauge.Trace.Save

/-!
The traces over whole runs: processes one after the other, each of which loads the trace files,
samples its track, looks for its row, compares and saves, in any order.  (The source has the calls
of these functions as comments.)

* `getGPSTraceRow`: the search for a row with the same start.
* `firstColumn_run`: from files in column 0 only there is never a file in another column.
* `twoTraces_run`: while every file can be opened, there are never more than two traces; which
  ones, a save decides by whether the process has loaded the newest one and not found its row.
* `lastTwo_run`: after any number of drives, the traces are those of the last two.
-/

namespace Gauge

open FileStore Loop Machine

/-! ### The machine -/

/-- `GaugeArrival::isIdenticalPos`. -/
def isIdenticalPos (le ri : GPSInfo) : Bool := posDist le.pos ri.pos < maxDiffLatLon

/-- The body of the loop of `getGPSTraceRow`, with the row that it returns with. -/
def rowRound (s : Traces) (i : ℕ) (_ : Option ℕ) : ForInStep (Option ℕ) :=
  match s.mGpsData i 0 with
  | [] => .yield none
  | p :: _ =>
      if p.date ≠ [] ∧ isIdenticalPos s.mGpsInfo p = true then .done (some i) else .yield none

/-- `GaugeArrival::getGPSTraceRow`, with its result. -/
def getGPSTraceRow (s : Traces) : Traces × Bool :=
  match (forLoop 10 (rowRound s) 0 none).1 with
  | some i => ({ s with mCurRow := i }, true)
  | none => (s, false)

/-- What a process does with its traces. -/
inductive TraceEvent
  /-- A new process: the constructor, and `initialize`.  The members that they do not set have
  some value. -/
  | boot (mNewTrack : Bool) (mGpsInfo : GPSInfo)
  | load
  /-- A signal, and the worker that collects it. -/
  | sample (info : GPSInfo)
  | locate
  | compare
  | save (ok : Bool)

/-- One event. -/
def traceStep (s : Traces) : TraceEvent → Option Traces
  | .boot new info => some
      { mGpsInfo := info
        mGpsData := fun _ _ => []
        mGpsInfoVec := []
        mCurRow := -1
        mCurCol := -1
        mCurIdx := 0
        mNewTrack := new
        files := s.files }
  | .load => some (loadGPSTrace s)
  | .sample info => some { s with mGpsInfo := info, mGpsInfoVec := s.mGpsInfoVec ++ [info] }
  | .locate => some (getGPSTraceRow s).1
  | .compare => some (compareTrace s).1
  | .save ok => some (saveGPSTrace ok s)

/-! ### The functions on the first column -/

/-- A search that finds a row has found one with a trace in column 0. -/
lemma getGPSTraceRow_cases (s : Traces) :
    getGPSTraceRow s = (s, false) ∨
      ∃ i < 10, s.mGpsData i 0 ≠ [] ∧ getGPSTraceRow s = ({ s with mCurRow := (i : ℤ) }, true) := by
  have hloop := @forLoop_inv _ (rowRound s) 10 0 none (fun _ u => u = none)
    (fun u _ => u = none ∨ ∃ i < 10, s.mGpsData i 0 ≠ [] ∧ u = some i) (Nat.zero_le 10) rfl
    ?_ ?_ fun u hu => .inl hu
  · rcases hloop with hnone | ⟨i, hi, hdata, hsome⟩
    · exact .inl (by rw [getGPSTraceRow, hnone])
    · exact .inr ⟨i, hi, hdata, by rw [getGPSTraceRow, hsome]⟩
  · intro j u u' _ _ _ hbody
    rw [rowRound] at hbody
    split at hbody
    · exact (ForInStep.yield.inj hbody).symm
    · split_ifs at hbody
      exact (ForInStep.yield.inj hbody).symm
  · intro j u u' _ hj _ hbody
    rw [rowRound] at hbody
    split at hbody
    · cases hbody
    · rename_i p ps hdata
      split_ifs at hbody
      exact .inr ⟨j, hj, by simp [hdata], (ForInStep.done.inj hbody).symm⟩

lemma scanColumn_mCurCol (fix : GPSInfo) (col : List GPSInfo) {j : ℕ} {x : Scan}
    (hx : x.mCurCol ≤ 9) (hj : (j : ℤ) ≤ 9) : (scanColumn fix col j x).mCurCol ≤ 9 := by
  refine forLoop_keeps (fun u : Scan => u.mCurCol ≤ 9) hx fun i u _ _ hu => ?_
  rw [scanPoint]
  split_ifs
  · exact hu
  · exact hj
  · exact hu
  · exact hu

lemma compareLoop_mCurCol {s : Traces} (hs : s.mCurCol ≤ 9) : (compareLoop s).1.mCurCol ≤ 9 := by
  rw [compareLoop]
  split_ifs
  · refine forLoop_keeps (fun u : Scan => u.mCurCol ≤ 9) hs fun j u _ hj hu => ?_
    rw [startRound]
    split_ifs
    · exact hu
    · exact hu
    · exact scanColumn_mCurCol _ _ hu (by omega)
  · refine forLoop_keeps (fun u : Scan => u.mCurCol ≤ 9) hs fun j u _ hj hu => ?_
    rw [trackRound]
    split_ifs
    · exact hu
    · exact scanColumn_mCurCol _ _ hu (by omega)

/-- A comparison moves the cursor within the array, and touches neither traces nor files. -/
lemma compareTrace_frame (s : Traces) :
    ∃ col idx new, (compareTrace s).1 =
        { s with mCurCol := col, mCurIdx := idx, mNewTrack := new } ∧
      (s.mCurCol ≤ 9 → col ≤ 9) := by
  by_cases hrow : s.mCurRow = -1
  · exact ⟨s.mCurCol, s.mCurIdx, s.mNewTrack, by rw [compareTrace, if_pos hrow], id⟩
  · exact ⟨_, _, _, by rw [compareTrace, if_neg hrow], compareLoop_mCurCol⟩

/-- No file is behind column 0. -/
def OnlyFirst (fs : Store (List Char) GPSInfo) : Prop :=
  ∀ i j, 1 ≤ j → j < 10 → fileAt fs i j = none

namespace OnlyFirst

variable {fs : Store (List Char) GPSInfo} (h : OnlyFirst fs)
include h

lemma removed {i j : ℕ} (hj : j < 10) : OnlyFirst (remove (traceName i j) fs) := by
  intro i' j' h1 h10
  rw [fileAt_remove (by omega) (by omega)]
  split_ifs
  · rfl
  · exact h i' j' h1 h10

lemma renamed (i k : ℕ) : OnlyFirst (rename (traceName i 0) (traceName k 0) fs) := by
  intro i' j' h1 h10
  rw [fileAt_rename_of_ne (by omega) (by omega) (by omega) (by omega) (by omega)]
  exact h i' j' h1 h10

lemma written (i : ℕ) (file : List GPSInfo) : OnlyFirst (write (traceName i 0) file fs) := by
  intro i' j' h1 h10
  rw [fileAt_write (by omega) (by omega), if_neg (by omega)]
  exact h i' j' h1 h10

/-- There is no column to be moved. -/
lemma renameColumns_eq (row : ℕ) {m : ℕ} (hm : m < 10) : renameColumns row m fs = fs := by
  induction m with
  | zero => rfl
  | succ m ih =>
      have hnone : fs (traceName row (m + 1)) = none := h row (m + 1) (by omega) hm
      rw [renameColumns, hnone]
      exact ih (by omega)

end OnlyFirst

/-- Nothing is stored behind column 0. -/
structure FirstColumn (s : Traces) : Prop where
  data : ∀ i j, 1 ≤ j → s.mGpsData i j = []
  files : OnlyFirst s.files
  col : s.mCurCol ≤ 9

/-- The number of columns of row `i`. -/
def columns (s : Traces) (i : ℕ) : ℕ := if s.file i 0 = none then 0 else 1

lemma columns_le (s : Traces) (i : ℕ) : columns s i ≤ 1 := by
  rw [columns]
  split_ifs <;> omega

namespace FirstColumn

variable {s : Traces} (hs : FirstColumn s)
include hs

lemma rowUpTo (i : ℕ) : s.RowUpTo i (columns s i) := by
  intro j hj
  rw [columns]
  rcases Nat.eq_zero_or_pos j with rfl | hpos
  · split_ifs with h <;> simp [h]
  · have hnone : s.file i j = none := hs.files i j hpos hj
    split_ifs <;> simp only [hnone, ne_eq, not_true, false_iff] <;> omega

/-- What is loaded: column 0, of the rows before and with the first one that has a trace. -/
lemma mGpsData_load (i j : ℕ) :
    (loadGPSTrace s).mGpsData i j =
      if i < 10 ∧ firstCol (columns s) i ≤ j ∧ j < columns s i
      then s.mGpsData i j ++ loaded s.files i j else s.mGpsData i j :=
  loadGPSTrace_mGpsData (fun i _ => (columns_le s i).trans (by norm_num))
    (fun i _ => hs.rowUpTo i) i j

/-- A loop over the columns of a row that ends at the first empty one has one round at most. -/
lemma forLoop_columns (i : ℕ)
    (f : ℕ → Store (List Char) GPSInfo → Store (List Char) GPSInfo)
    (fs : Store (List Char) GPSInfo) :
    (forLoop 10 (fun j fs =>
      if (s.mGpsData i j).length = 0 then .done fs else .yield (f j fs)) 0 fs).1 =
      if s.mGpsData i 0 = [] then fs else f 0 fs := by
  split_ifs with hdata
  · rw [forLoop_done (by norm_num) (if_pos (by rw [hdata]; rfl))]
  · rw [forLoop_yield (by norm_num) (if_neg (by simpa using hdata)),
      forLoop_done (by norm_num) (if_pos (by rw [hs.data i (0 + 1) le_rfl]; rfl))]

lemma removeLastRow_eq :
    removeLastRow s = if s.mGpsData 9 0 = [] then s.files else remove (traceName 9 0) s.files :=
  hs.forLoop_columns 9 (fun j => remove (traceName 9 j)) s.files

lemma renameRow_eq (i : ℕ) (fs : Store (List Char) GPSInfo) :
    renameRow s i fs =
      if s.mGpsData i 0 = [] then fs else rename (traceName i 0) (traceName (i + 1) 0) fs :=
  hs.forLoop_columns i (fun j => rename (traceName i j) (traceName (i + 1) j)) fs

lemma files_makeRoom : OnlyFirst (makeRoom s).files := by
  have hcol := hs.col
  rw [makeRoom]
  split_ifs with hrow h1 h9
  · refine forLoop_keeps OnlyFirst ?_ fun i fs _ _ hfs => ?_
    · rw [hs.removeLastRow_eq]
      split_ifs
      · exact hs.files
      · exact hs.files.removed (by norm_num)
    · show OnlyFirst (renameRow s i fs)
      rw [hs.renameRow_eq]
      split_ifs
      · exact hfs
      · exact hfs.renamed i (i + 1)
  · exact hs.files
  · exact hs.files.removed (by norm_num)
  · show OnlyFirst (renameColumns s.mCurRow.toNat s.mCurCol.toNat s.files)
    rw [hs.files.renameColumns_eq s.mCurRow.toNat (by omega)]
    exact hs.files

end FirstColumn

/-- Making room changes the files, and the row of a cursor that is not set. -/
lemma makeRoom_frame (s : Traces) :
    makeRoom s = { s with
      files := (makeRoom s).files
      mCurRow := if s.mCurRow = -1 then 0 else s.mCurRow } := by
  rw [makeRoom]
  split_ifs <;> rfl

lemma firstColumn_save {s : Traces} (hs : FirstColumn s) (ok : Bool) :
    FirstColumn (saveGPSTrace ok s) := by
  have hfs := hs.files_makeRoom
  rw [saveGPSTrace]
  split_ifs
  · exact hs
  · rw [makeRoom_frame]
    exact ⟨hs.data, hfs.written _ _, hs.col⟩
  · rw [makeRoom_frame]
    exact ⟨hs.data, hfs, hs.col⟩

/-- Every event keeps the columns from 1 on empty. -/
lemma firstColumn_step {s s' : Traces} {e : TraceEvent} (hs : FirstColumn s)
    (h : traceStep s e = some s') : FirstColumn s' := by
  cases e with
  | boot new info =>
      rw [traceStep, Option.some_inj] at h
      subst h
      exact ⟨fun _ _ _ => rfl, hs.files, by norm_num⟩
  | load =>
      rw [traceStep, Option.some_inj] at h
      subst h
      refine ⟨fun i j hj => ?_, ?_, ?_⟩
      · have hcolumns := columns_le s i
        rw [hs.mGpsData_load, if_neg (by omega)]
        exact hs.data i j hj
      · rw [loadGPSTrace]
        exact hs.files
      · rw [loadGPSTrace]
        exact hs.col
  | sample info =>
      rw [traceStep, Option.some_inj] at h
      subst h
      exact ⟨hs.data, hs.files, hs.col⟩
  | locate =>
      rw [traceStep, Option.some_inj] at h
      subst h
      rcases getGPSTraceRow_cases s with heq | ⟨i, -, -, heq⟩ <;> rw [heq]
      · exact hs
      · exact ⟨hs.data, hs.files, hs.col⟩
  | compare =>
      rw [traceStep, Option.some_inj] at h
      subst h
      obtain ⟨col, idx, new, heq, hcol⟩ := compareTrace_frame s
      rw [heq]
      exact ⟨hs.data, hs.files, hcol hs.col⟩
  | save ok =>
      rw [traceStep, Option.some_inj] at h
      subst h
      exact firstColumn_save hs ok

/-- **There is never a second column**: where nothing is stored behind column 0, nothing ever is,
whatever the processes do and whether their files can be opened or not. -/
theorem firstColumn_run {s t : Traces} {es : List TraceEvent} (hs : FirstColumn s)
    (hrun : run traceStep s es = some t) : FirstColumn t :=
  run_inv (Q := fun _ => True) (fun _ _ _ _ hs h => firstColumn_step hs h) (fun _ _ => trivial)
    hs hrun

lemma firstColumn_unloaded : FirstColumn (unloaded []) :=
  ⟨fun _ _ _ => rfl, fun _ _ _ _ => rfl, by decide⟩

theorem firstColumn_run_unopened :
    ∃ t, run traceStep (unloaded [])
        [.boot true zeroInfo, .sample (sampleAt 1), .save true, .boot true zeroInfo, .load, .locate,
          .compare, .save false] = some t ∧
      FirstColumn t := by
  refine exists_imp.mpr (fun t ht => ⟨t, ht, firstColumn_run firstColumn_unloaded ht⟩) ?_
  exact ⟨_, rfl⟩

/-- A save changes the files, and the row of the cursor. -/
lemma saveGPSTrace_frame (ok : Bool) (s : Traces) :
    ∃ fs row, saveGPSTrace ok s = { s with files := fs, mCurRow := row } ∧
      (row = s.mCurRow ∨ row = 0) := by
  rw [saveGPSTrace]
  split_ifs
  · exact ⟨s.files, s.mCurRow, rfl, .inl rfl⟩
  · rw [makeRoom_frame]
    exact ⟨_, _, rfl, by split_ifs <;> simp⟩
  · rw [makeRoom_frame]
    exact ⟨_, _, rfl, by split_ifs <;> simp⟩

/-! ### At most two traces -/

/-- The newest trace and the one before, in the first two rows.  The second one is never loaded,
since the column counter of `loadGPSTrace` is 1 behind the row of the first one. -/
structure TwoTraces (s : Traces) : Prop extends FirstColumn s where
  rows : ∀ i, 2 ≤ i → s.file i 0 = none
  order : s.file 1 0 ≠ none → s.file 0 0 ≠ none
  unseen : ∀ i, 1 ≤ i → s.mGpsData i 0 = []
  stored : s.mGpsData 0 0 ≠ [] → s.file 0 0 ≠ none
  row : s.mCurRow = -1 ∨ s.mCurRow = 0

/-- The two traces, the newest one first. -/
def Traces.two (s : Traces) : Option (List GPSInfo) × Option (List GPSInfo) :=
  (s.file 0 0, s.file 1 0)

/-- What an event makes of the two traces: a save puts the new track in front, and keeps the
newest one behind it only if the process has loaded it and not found its row. -/
def Traces.shelve (s : Traces) :
    TraceEvent → Option (List GPSInfo) × Option (List GPSInfo)
  | .save true =>
      if s.mNewTrack = false then s.two
      else if s.mCurRow = -1 ∧ s.mGpsData 0 0 ≠ [] then (some s.mGpsInfoVec, s.two.1)
      else (some s.mGpsInfoVec, s.two.2)
  | _ => s.two

namespace TwoTraces

variable {s : Traces} (hs : TwoTraces s)
include hs

lemma renameRows_eq (fs : Store (List Char) GPSInfo) :
    renameRows s fs =
      if s.mGpsData 0 0 = [] then fs else rename (traceName 0 0) (traceName 1 0) fs := by
  have hrows := forLoop_steps (f := renameRow s)
    (fun i u => u = if i = 0 ∨ s.mGpsData 0 0 = [] then fs
      else rename (traceName 0 0) (traceName 1 0) fs)
    (Nat.zero_le 9) (by rw [if_pos (.inl rfl)]) fun i u _ _ hu => ?_
  · rw [renameRows, hrows]
    simp
  · rw [hs.renameRow_eq, hu]
    rcases Nat.eq_zero_or_pos i with rfl | hpos
    · simp
    · rw [if_pos (hs.unseen i hpos)]
      simp [hpos.ne']

/-- With the cursor at row 0, no trace is moved. -/
lemma file_makeRoom_found (hrow : s.mCurRow = 0) (i : ℕ) :
    fileAt (makeRoom s).files i 0 = s.file i 0 := by
  have hcol := hs.col
  rw [makeRoom, if_neg (by omega)]
  split_ifs with h1 h9
  · rfl
  · exact (fileAt_remove (by norm_num) (by norm_num)).trans (if_neg (by omega))
  · show fileAt (renameColumns s.mCurRow.toNat s.mCurCol.toNat s.files) i 0 = s.file i 0
    rw [hs.files.renameColumns_eq s.mCurRow.toNat (by omega), Traces.file]

/-- **What a save does to column 0.** -/
lemma file_save (i : ℕ) :
    (saveGPSTrace true s).file i 0 =
      if s.mNewTrack = false then s.file i 0
      else if i = 0 then some s.mGpsInfoVec
      else if i = 1 ∧ s.mCurRow = -1 ∧ s.mGpsData 0 0 ≠ [] then s.file 0 0
      else s.file i 0 := by
  rcases Bool.eq_false_or_eq_true s.mNewTrack with hnew | hold
  · rw [if_neg (by simp [hnew])]
    rcases hs.row with hrow | hrow
    · rw [Traces.file, saveGPSTrace_newRow hnew hrow, hs.removeLastRow_eq,
        if_pos (hs.unseen 9 (by norm_num)), hs.renameRows_eq,
        fileAt_write (by norm_num) (by norm_num)]
      by_cases hi : i = 0
      · simp [hi]
      · rw [if_neg (by omega), if_neg hi]
        by_cases hdata : s.mGpsData 0 0 = []
        · simp [hdata, Traces.file]
        · rw [if_neg hdata, fileAt_rename (by norm_num) (by norm_num) (by norm_num) (by norm_num)
            (hs.stored hdata)]
          simp [hi, hrow, hdata, Traces.file]
    · have hfound := hs.file_makeRoom_found hrow i
      rw [saveGPSTrace, if_neg (by simp [hnew]), makeRoom_frame]
      simp only [if_true, writtenRecords_eq, Traces.file, hrow]
      rw [fileAt_write (by norm_num) (by norm_num), hfound]
      by_cases hi : i = 0
      · simp [hi]
      · simp [hi, Traces.file]
  · rw [if_pos hold, saveGPSTrace, if_pos hold]

lemma file_save_newest (hnew : s.mNewTrack = true) :
    (saveGPSTrace true s).file 0 0 = some s.mGpsInfoVec := by
  rw [hs.file_save, if_neg (by simp [hnew]), if_pos rfl]

/-- A save keeps the bound. -/
lemma saved : TwoTraces (saveGPSTrace true s) := by
  rcases Bool.eq_false_or_eq_true s.mNewTrack with hnew | hold
  · obtain ⟨fs, row, hsave, hrow⟩ := saveGPSTrace_frame true s
    have hfirst := firstColumn_save hs.toFirstColumn true
    refine ⟨hfirst, fun i hi => ?_, fun _ => ?_, fun i hi => ?_, fun _ => ?_, ?_⟩
    · rw [hs.file_save]
      split_ifs
      · exact hs.rows i hi
      · omega
      · omega
      · exact hs.rows i hi
    · rw [hs.file_save_newest hnew]
      exact Option.some_ne_none _
    · rw [hsave]
      exact hs.unseen i hi
    · rw [hs.file_save_newest hnew]
      exact Option.some_ne_none _
    · rw [hsave]
      rcases hrow with rfl | rfl
      · exact hs.row
      · exact .inr rfl
  · rwa [saveGPSTrace, if_pos hold]

lemma two_save : (saveGPSTrace true s).two = s.shelve (.save true) := by
  rw [Traces.two, hs.file_save, hs.file_save, Traces.shelve]
  split_ifs <;> simp_all [Traces.two]

/-- A load adds nothing to the rows behind the first one, and something to the first one only if
there is a file. -/
lemma mGpsData_load_first {i : ℕ} (hi : 1 ≤ i ∨ s.file 0 0 = none) :
    (loadGPSTrace s).mGpsData i 0 = s.mGpsData i 0 := by
  rw [hs.mGpsData_load, if_neg]
  rintro ⟨-, hfirst, hlast⟩
  have hfile : s.file i 0 ≠ none := fun hnone => by simp [columns, hnone] at hlast
  have hfile0 : s.file 0 0 ≠ none := by
    rcases Nat.lt_or_ge i 2 with hlt | hge
    · rcases Nat.eq_zero_or_pos i with rfl | hpos
      · exact hfile
      · rw [show i = 1 by omega] at hfile
        exact hs.order hfile
    · exact absurd (hs.rows i hge) hfile
  -- the counter has passed column 0 in the row of the newest trace
  have hcounter : 1 ≤ firstCol (columns s) i := by
    obtain ⟨k, rfl⟩ : ∃ k, i = k + 1 := ⟨i - 1, by have := hi.resolve_right hfile0; omega⟩
    clear hi hfirst hlast hfile
    induction k with
    | zero => simp [firstCol, columns, hfile0]
    | succ k ih => exact le_max_of_le_left ih
  omega

end TwoTraces

lemma file_load (s : Traces) (i j : ℕ) : (loadGPSTrace s).file i j = s.file i j := by
  rw [Traces.file, loadGPSTrace, Traces.file]

/-- Every event but a save that cannot open its file. -/
lemma twoTraces_step {s s' : Traces} {e : TraceEvent} (hs : TwoTraces s)
    (hok : e ≠ .save false) (h : traceStep s e = some s') :
    TwoTraces s' ∧ s'.two = s.shelve e := by
  have hfirst := firstColumn_step hs.toFirstColumn h
  cases e with
  | boot new info =>
      rw [traceStep, Option.some_inj] at h
      subst h
      exact ⟨⟨hfirst, hs.rows, hs.order, fun _ _ => rfl, fun h => absurd rfl h, .inl rfl⟩, rfl⟩
  | load =>
      rw [traceStep, Option.some_inj] at h
      subst h
      refine ⟨⟨hfirst, fun i hi => ?_, ?_, fun i hi => ?_, fun hdata => ?_, ?_⟩, ?_⟩
      · rw [file_load]
        exact hs.rows i hi
      · rw [file_load, file_load]
        exact hs.order
      · rw [hs.mGpsData_load_first (.inl hi)]
        exact hs.unseen i hi
      · rw [file_load]
        intro hnone
        rw [hs.mGpsData_load_first (.inr hnone)] at hdata
        exact hs.stored hdata hnone
      · rw [loadGPSTrace]
        exact hs.row
      · rw [Traces.two, file_load, file_load]
        rfl
  | sample info =>
      rw [traceStep, Option.some_inj] at h
      subst h
      exact ⟨⟨hfirst, hs.rows, hs.order, hs.unseen, hs.stored, hs.row⟩, rfl⟩
  | locate =>
      rw [traceStep, Option.some_inj] at h
      subst h
      rcases getGPSTraceRow_cases s with heq | ⟨i, -, hdata, heq⟩ <;> rw [heq] at hfirst ⊢
      · exact ⟨hs, rfl⟩
      · have hi : i = 0 := by
          by_contra hne
          exact hdata (hs.unseen i (by omega))
        exact ⟨⟨hfirst, hs.rows, hs.order, hs.unseen, hs.stored, .inr (by simp [hi])⟩, rfl⟩
  | compare =>
      rw [traceStep, Option.some_inj] at h
      subst h
      obtain ⟨col, idx, new, heq, -⟩ := compareTrace_frame s
      rw [heq] at hfirst ⊢
      exact ⟨⟨hfirst, hs.rows, hs.order, hs.unseen, hs.stored, hs.row⟩, rfl⟩
  | save ok =>
      obtain rfl : ok = true := by simpa using hok
      rw [traceStep, Option.some_inj] at h
      subst h
      exact ⟨hs.saved, hs.two_save⟩

/-- **There are never more than two traces**, while every file can be opened, and every save does
to them what `shelve` says. -/
theorem twoTraces_run {s : Traces} {es : List TraceEvent} (hs : TwoTraces s)
    (hok : TraceEvent.save false ∉ es) :
    Always traceStep TwoTraces s es ∧
      Along traceStep (fun s e => ∀ s', traceStep s e = some s' → s'.two = s.shelve e) s es := by
  have hopened : Along traceStep (fun _ e => e ≠ .save false) s es := by
    rintro fs e t t' hfs - - rfl
    exact hok (hfs.subset (by simp))
  have hall : Always traceStep TwoTraces s es :=
    always_of_along (fun s e s' hs hok h => (twoTraces_step hs hok h).1) hs hopened
  refine ⟨hall, fun fs e t t' hfs ht ht' u hu => ?_⟩
  have htwo : TwoTraces t := hall fs t ((List.prefix_append _ _).trans hfs) ht
  exact (twoTraces_step htwo (hopened fs e t t' hfs ht ht') hu).2

lemma twoTraces_unloaded : TwoTraces (unloaded []) :=
  ⟨firstColumn_unloaded, fun _ _ => rfl, id, fun _ _ => rfl, fun h => absurd rfl h, .inl rfl⟩

theorem twoTraces_run_twice :
    Always traceStep TwoTraces (unloaded [])
        [.boot true zeroInfo, .sample (sampleAt 1), .save true, .boot true zeroInfo, .load,
          .sample (sampleAt 2), .save true] ∧
      Along traceStep (fun s e => ∀ s', traceStep s e = some s' → s'.two = s.shelve e)
        (unloaded [])
        [.boot true zeroInfo, .sample (sampleAt 1), .save true, .boot true zeroInfo, .load,
          .sample (sampleAt 2), .save true] :=
  twoTraces_run twoTraces_unloaded (by simp)

/-! ### Drives -/

/-- A drive whose track is saved: a new process that loads the traces, samples its track and does
not look for its row. -/
def savedDrive (info : GPSInfo) (track : List GPSInfo) : List TraceEvent :=
  [.boot true info, .load] ++ (track.map .sample ++ [.save true])

lemma run_samples (s : Traces) (track : List GPSInfo) :
    ∃ info, run traceStep s (track.map .sample) =
      some { s with mGpsInfo := info, mGpsInfoVec := s.mGpsInfoVec ++ track } := by
  induction track generalizing s with
  | nil => exact ⟨s.mGpsInfo, by simp⟩
  | cons info track ih =>
      obtain ⟨info', hrun⟩ := ih { s with
        mGpsInfo := info, mGpsInfoVec := s.mGpsInfoVec ++ [info] }
      refine ⟨info', ?_⟩
      rw [List.map_cons, run_cons, traceStep, Option.bind_some, hrun]
      simp

/-- The load of a new process finds the newest trace, if there is one. -/
lemma TwoTraces.mGpsData_load_boot {s : Traces} (hs : TwoTraces s)
    (hempty : s.mGpsData 0 0 = []) :
    (loadGPSTrace s).mGpsData 0 0 = [] ↔ s.file 0 0 = none := by
  refine ⟨fun h => ?_, fun h => ?_⟩
  · by_contra hfile
    rw [hs.mGpsData_load, if_pos (by simp [firstCol, columns, hfile])] at h
    simp [loaded] at h
  · rw [hs.mGpsData_load_first (.inr h), hempty]

/-- One drive moves the newest trace to row 1. -/
lemma run_savedDrive {s : Traces} (hs : TwoTraces s) (info : GPSInfo) (track : List GPSInfo) :
    ∃ t, run traceStep s (savedDrive info track) = some t ∧ TwoTraces t ∧
      t.two = (some track, s.two.1) := by
  obtain ⟨w, hboot⟩ : ∃ w, traceStep s (.boot true info) = some w := ⟨_, rfl⟩
  obtain ⟨hws, hwtwo⟩ := twoTraces_step hs (by simp) hboot
  have hw := hboot
  rw [traceStep, Option.some_inj] at hw
  obtain ⟨u, hload⟩ : ∃ u, traceStep w .load = some u := ⟨_, rfl⟩
  obtain ⟨hus, hutwo⟩ := twoTraces_step hws (by simp) hload
  have hu := hload
  rw [traceStep, Option.some_inj] at hu
  have hfirst : u.mGpsData 0 0 = [] ↔ s.two.1 = none := by
    rw [← hu, hws.mGpsData_load_boot (by rw [← hw]), ← hw]
    rfl
  have hmembers : u.mNewTrack = true ∧ u.mCurRow = -1 ∧ u.mGpsInfoVec = [] := by
    rw [← hu, loadGPSTrace, ← hw]
    exact ⟨rfl, rfl, rfl⟩
  obtain ⟨info', hsamples⟩ := run_samples u track
  have hvs : TwoTraces { u with mGpsInfo := info', mGpsInfoVec := u.mGpsInfoVec ++ track } :=
    ⟨⟨hus.data, hus.files, hus.col⟩, hus.rows, hus.order, hus.unseen, hus.stored, hus.row⟩
  refine ⟨_, ?_, hvs.saved, ?_⟩
  · rw [savedDrive, run_append, run_cons, hboot, Option.bind_some, run_cons, hload, Option.bind_some,
      run_nil, Option.bind_some, run_append, hsamples, Option.bind_some]
    rfl
  · have htwo : Traces.two { u with mGpsInfo := info', mGpsInfoVec := u.mGpsInfoVec ++ track } =
        s.two := hutwo.trans hwtwo
    rw [hvs.two_save, Traces.shelve, htwo, if_neg (by simp [hmembers])]
    simp only [hmembers, true_and, List.nil_append]
    split_ifs with hnewest
    · rfl
    · -- there was no trace
      have hnone : s.two.1 = none := hfirst.mp (not_not.mp hnewest)
      have hnone' : s.two.2 = none := not_not.mp fun h => hs.order h hnone
      rw [hnone, hnone']

/-- **The last two of the saved tracks are kept**, however many drives there are. -/
theorem lastTwo_run {s : Traces} (hs : TwoTraces s) (drives : List (GPSInfo × List GPSInfo)) :
    ∃ t, run traceStep s (drives.flatMap fun d => savedDrive d.1 d.2) = some t ∧
      t.two = drives.foldl (fun two d => (some d.2, two.1)) s.two := by
  induction drives generalizing s with
  | nil => exact ⟨s, rfl, rfl⟩
  | cons d drives ih =>
      obtain ⟨u, hu, hus, htwo⟩ := run_savedDrive hs d.1 d.2
      obtain ⟨t, ht, htt⟩ := ih hus
      refine ⟨t, ?_, ?_⟩
      · rw [List.flatMap_cons, run_append, hu, Option.bind_some, ht]
      · rw [htt, htwo, List.foldl_cons]

theorem lastTwo_run_three :
    ∃ t, run traceStep (unloaded [])
        ([1, 2, 3].flatMap fun latitude => savedDrive zeroInfo [sampleAt latitude]) = some t ∧
      t.two = (some [sampleAt 3], some [sampleAt 2]) :=
  lastTwo_run twoTraces_unloaded
    [(zeroInfo, [sampleAt 1]), (zeroInfo, [sampleAt 2]), (zeroInfo, [sampleAt 3])]

end Gauge
