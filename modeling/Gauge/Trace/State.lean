import Gauge.Base.Digits
import Gauge.Base.FileStore
import Gauge.Recorder.State

/-!
The historical traces: the ten by ten vectors `mGpsData`, the cursor into them, and the trace
files.

A row collects the traces from one start position, the newest one in column 0.  The file of
row `i` and column `j` is named by the two numbers, with two digits each.
-/

namespace Gauge

open FileStore

/-- `GAUGE_ARRIVAL_GPS_TRACE_PATH`. -/
def gpsTracePath : List Char := "/tmp/gpsTrace".toList

/-- `sprintf(fileNm+defaultLEN, "%02d%02d", i, j)`, behind the path. -/
def traceName (i j : ℕ) : List Char := gpsTracePath ++ (Digits.padded 2 i ++ Digits.padded 2 j)

/-- The members of the class that the traces need, and the files.  The cursor `mCurRow`,
`mCurCol` is `-1` where it is not set. -/
structure Traces where
  mGpsInfo : GPSInfo
  mGpsData : ℕ → ℕ → List GPSInfo
  mGpsInfoVec : List GPSInfo
  mCurRow : ℤ
  mCurCol : ℤ
  mCurIdx : ℕ
  mNewTrack : Bool
  files : Store (List Char) GPSInfo

/-- The file of row `i` and column `j`. -/
def fileAt (fs : Store (List Char) GPSInfo) (i j : ℕ) : Option (List GPSInfo) :=
  fs (traceName i j)

def Traces.file (s : Traces) (i j : ℕ) : Option (List GPSInfo) := fileAt s.files i j

/-- The `GPSInfo` of zeros. -/
def zeroInfo : GPSInfo := ⟨[], [], 0, 0⟩

/-- The place of a sample. -/
def GPSInfo.pos (p : GPSInfo) : LatLon := ⟨p.latitude, p.longitude⟩

/-- The files of a row are the columns below `n`. -/
def Traces.RowUpTo (s : Traces) (row n : ℕ) : Prop := ∀ j < 10, s.file row j ≠ none ↔ j < n

/-! ### Names and operations -/

section Names

variable {fs : Store (List Char) GPSInfo} {i i' k j j' l : ℕ}

/-- The names of different files are different. -/
lemma traceName_inj (hj : j < 100) (hj' : j' < 100) :
    traceName i j = traceName i' j' ↔ i = i' ∧ j = j' := by
  refine ⟨fun h => ?_, fun h => by rw [h.1, h.2]⟩
  have hlen : (Digits.padded 2 j).length = (Digits.padded 2 j').length := by
    rw [Digits.length_padded (by norm_num) hj, Digits.length_padded (by norm_num) hj']
  obtain ⟨hrow, hcol⟩ := List.append_inj' (List.append_cancel_left h) hlen
  exact ⟨Digits.padded_inj.mp hrow, Digits.padded_inj.mp hcol⟩

lemma traceName_ne (hj : j < 100) (hj' : j' < 100) (h : ¬ (i = i' ∧ j = j')) :
    traceName i j ≠ traceName i' j' :=
  (traceName_inj hj hj').not.mpr h

lemma fileAt_remove (hj : j < 100) (hj' : j' < 100) :
    fileAt (remove (traceName i j) fs) i' j' =
      if i' = i ∧ j' = j then none else fileAt fs i' j' := by
  split_ifs with h
  · rw [h.1, h.2]
    exact remove_self
  · exact remove_of_ne (traceName_ne hj' hj h)

lemma fileAt_write {file : List GPSInfo} (hj : j < 100) (hj' : j' < 100) :
    fileAt (write (traceName i j) file fs) i' j' =
      if i' = i ∧ j' = j then some file else fileAt fs i' j' := by
  split_ifs with h
  · rw [h.1, h.2]
    exact write_self
  · exact write_of_ne (traceName_ne hj' hj h)

lemma fileAt_rename_of_ne (hj : j < 100) (hl : l < 100) (hj' : j' < 100)
    (hold : ¬ (i' = i ∧ j' = j)) (hnew : ¬ (i' = k ∧ j' = l)) :
    fileAt (rename (traceName i j) (traceName k l) fs) i' j' = fileAt fs i' j' :=
  rename_of_ne (traceName_ne hj' hj hold) (traceName_ne hj' hl hnew)

lemma fileAt_rename (hj : j < 100) (hl : l < 100) (hj' : j' < 100) (hne : ¬ (i = k ∧ j = l))
    (hfile : fileAt fs i j ≠ none) :
    fileAt (rename (traceName i j) (traceName k l) fs) i' j' =
      if i' = k ∧ j' = l then fileAt fs i j
      else if i' = i ∧ j' = j then none
      else fileAt fs i' j' := by
  split_ifs with hnew hold
  · rw [hnew.1, hnew.2]
    exact rename_new hfile
  · rw [hold.1, hold.2]
    exact rename_old (traceName_ne hj hl hne)
  · exact fileAt_rename_of_ne hj hl hj' hold hnew

end Names

/-! ### Instances with one sample in each trace -/

/-- A sample at the given latitude. -/
def sampleAt (latitude : ℚ) : GPSInfo := ⟨"20140101".toList, "121501".toList, latitude, 0⟩

/-- An instance that has traces in the given cells, with the cursor at a row and a column. -/
def tracesIn (cells : List (ℕ × ℕ)) (row col : ℤ) : Traces where
  mGpsInfo := zeroInfo
  mGpsData i j := if (i, j) ∈ cells then [sampleAt (10 * i + j)] else []
  mGpsInfoVec := [sampleAt (-1)]
  mCurRow := row
  mCurCol := col
  mCurIdx := 0
  mNewTrack := true
  files := cells.foldr (fun c => write (traceName c.1 c.2) [sampleAt (10 * c.1 + c.2)])
    fun _ => none

lemma file_tracesIn {cells : List (ℕ × ℕ)} (hcells : ∀ c ∈ cells, c.2 < 10) (row col : ℤ)
    {i j : ℕ} (hj : j < 10) :
    (tracesIn cells row col).file i j =
      if (i, j) ∈ cells then some [sampleAt (10 * i + j)] else none := by
  rw [Traces.file, tracesIn]
  induction cells with
  | nil => rfl
  | cons c cells ih =>
      have hc := hcells c List.mem_cons_self
      rw [List.foldr_cons, fileAt_write (by omega) (by omega),
        ih fun d hd => hcells d (List.mem_cons_of_mem c hd)]
      by_cases hij : (i, j) = c
      · simp [← hij]
      · rw [if_neg fun h => hij (Prod.ext h.1 h.2)]
        simp [hij]

lemma rowUpTo_tracesIn {cells : List (ℕ × ℕ)} {row n : ℕ} (hcells : ∀ c ∈ cells, c.2 < 10)
    (hrow : ∀ j < 10, (row, j) ∈ cells ↔ j < n) (r col : ℤ) :
    (tracesIn cells r col).RowUpTo row n := by
  intro j hj
  rw [file_tracesIn hcells r col hj, ← hrow j hj]
  simp

end Gauge
