import Gauge.Trace.Compare

/-!
The cursor of `compareTrace` over whole drives, and what the counter of its loops says.

* `cursor_run_iff`: when the cursor always points at a stored sample, and every match is the
  sample that was compared.
* `declaresRight_iff_conditions`: when a call declares a new track exactly if it has scanned all
  stored columns from the cursor on and found no match.
-/

namespace Gauge

open Loop Machine

/-- The column of the cursor. -/
def Traces.curCol (s : Traces) : List GPSInfo := s.curRow s.mCurCol.toNat

/-- A cursor that is not set, or that points at a sample of the row. -/
def PointsInto (row : ℕ → List GPSInfo) (col : ℤ) (idx : ℕ) : Prop :=
  (col = -1 ∧ idx = 0) ∨ (0 ≤ col ∧ col < 10 ∧ idx < (row col.toNat).length)

/-- The cursor has a row and points into it. -/
structure CursorValid (s : Traces) : Prop where
  row_nonneg : 0 ≤ s.mCurRow
  row_lt : s.mCurRow < 10
  point : PointsInto s.curRow s.mCurCol s.mCurIdx

/-- There is a sample at the index `i`, at the distance `d` from the fix. -/
def HasPoint (fix : GPSInfo) (col : List GPSInfo) (i : ℕ) (d : ℚ) : Prop :=
  ∃ p, col[i]? = some p ∧ posDist p.pos fix.pos = d

lemma hasPoint_diffAt {fix : GPSInfo} {col : List GPSInfo} {i : ℕ} (h : i < col.length) :
    HasPoint fix col i (diffAt fix col i) := by
  refine ⟨col[i], List.getElem?_eq_getElem h, ?_⟩
  rw [diffAt, List.getD_eq_getElem?_getD, List.getElem?_eq_getElem h, Option.getD_some]

lemma HasPoint.lt_length {fix : GPSInfo} {col : List GPSInfo} {i : ℕ} {d : ℚ}
    (h : HasPoint fix col i d) : i < col.length := by
  obtain ⟨p, hp, -⟩ := h
  exact (List.getElem?_eq_some_iff.mp hp).1

/-- A match that the call has recorded is a sample, and its distance is the one that was compared
with the minimum. -/
def MatchRight (s : Traces) : Prop :=
  (compareLoop s).1.breakJ = true →
    HasPoint s.mGpsInfo (s.curRow (compareLoop s).1.mCurCol.toNat) (compareLoop s).1.mCurIdx
      (compareLoop s).1.minDiff

/-- The call does not leave the track from a column before the last one, or, if it does and then
finds a match from the start of that column, the next column has a sample at the same index and
the same distance. -/
def Safe (s : Traces) : Prop :=
  s.mCurCol = -1 ∨ s.mCurCol = 9 ∨ ¬ Leaves s.mGpsInfo s.curCol s.mCurIdx ∨
    ∀ i, MatchesAt s.mGpsInfo s.curCol 0 i →
      HasPoint s.mGpsInfo (s.curRow (s.mCurCol.toNat + 1)) i (diffAt s.mGpsInfo s.curCol i)

/-! ### One call -/

section Call

variable {s : Traces}

lemma compareLoop_of_unset (hcol : s.mCurCol = -1) (hidx : s.mCurIdx = 0) :
    compareLoop s = forLoop 10 (startRound s.mGpsInfo s.curRow) 0 ⟨-1, 0, 0, false⟩ := by
  rw [compareLoop, if_pos hcol, hcol, hidx]

lemma compareLoop_of_set {c : ℕ} (hcol : s.mCurCol = c) :
    compareLoop s = forLoop 10 (trackRound s.mGpsInfo s.curRow) c ⟨c, s.mCurIdx, 0, false⟩ := by
  rw [compareLoop, if_neg (by omega), hcol, Int.toNat_natCast]

lemma curCol_of_set {c : ℕ} (hcol : s.mCurCol = c) : s.curCol = s.curRow c := by
  rw [Traces.curCol, hcol, Int.toNat_natCast]

/-- A valid cursor is not set, or it is set to a column. -/
lemma CursorValid.cases (hs : CursorValid s) :
    (s.mCurCol = -1 ∧ s.mCurIdx = 0) ∨
      ∃ c : ℕ, c ≤ 9 ∧ s.mCurCol = c ∧ s.mCurIdx < (s.curRow c).length := by
  rcases hs.point with hunset | ⟨hcol, hlt, hidx⟩
  · exact .inl hunset
  · exact .inr ⟨s.mCurCol.toNat, by omega, by omega, hidx⟩

lemma CursorValid.compareTrace_fst (hs : CursorValid s) :
    (compareTrace s).1 = { s with
      mCurCol := (compareLoop s).1.mCurCol
      mCurIdx := (compareLoop s).1.mCurIdx
      mNewTrack := if (compareLoop s).2 = 10 then true else s.mNewTrack } := by
  have hrow := hs.row_nonneg
  rw [compareTrace, if_neg (by omega)]

lemma CursorValid.compareTrace_iff (hs : CursorValid s) :
    CursorValid (compareTrace s).1 ↔
      PointsInto s.curRow (compareLoop s).1.mCurCol (compareLoop s).1.mCurIdx := by
  rw [hs.compareTrace_fst]
  exact ⟨fun h => h.point, fun h => ⟨hs.row_nonneg, hs.row_lt, h⟩⟩

/-- **One call keeps the cursor valid and records the right match**, exactly if it is safe. -/
lemma cursor_step_iff (hs : CursorValid s) :
    CursorValid (compareTrace s).1 ∧ MatchRight s ↔ Safe s := by
  rw [hs.compareTrace_iff, MatchRight]
  rcases hs.cases with ⟨hcol, hidx⟩ | ⟨c, hc, hcol, hlt⟩
  · rw [compareLoop_of_unset hcol hidx]
    refine iff_of_true ?_ (.inl hcol)
    rcases startLoop_cases s.mGpsInfo s.curRow 0 with
      ⟨j, hj, i, -, hi, heq⟩ | ⟨n, m', -, -, heq⟩
    · have hlt := hi.1.lt_length
      rw [heq]
      exact ⟨.inr ⟨by simp, by simp only; omega, hlt⟩, fun _ => hasPoint_diffAt hlt⟩
    · rw [heq]
      exact ⟨.inl ⟨rfl, rfl⟩, fun h => absurd h Bool.false_ne_true⟩
  · rw [compareLoop_of_set hcol, Safe, curCol_of_set hcol, hcol]
    rcases trackLoop_cases s.mGpsInfo 0 hc hlt with
      ⟨i, hi, heq⟩ | ⟨hl, hc8, i, hi, heq⟩ | ⟨hno, hno0, k', m', hk', heq⟩
    · -- a match in the column of the cursor
      have hilt := hi.1.lt_length
      rw [heq]
      refine iff_of_true ⟨.inr ⟨by simp, by simp only; omega, hilt⟩, fun _ => hasPoint_diffAt hilt⟩
        (.inr (.inr (.inl fun hl => not_matchesAt_of_leaves hl hi)))
    · -- a match that is recorded for the next column
      rw [heq]
      refine ⟨fun ⟨_, hright⟩ => ?_, fun hsafe => ?_⟩
      · refine .inr (.inr (.inr fun i' hi' => ?_))
        rw [hi'.unique hi]
        exact hright rfl
      · have hpoint := ((hsafe.resolve_left (by omega)).resolve_left (by omega)).resolve_left
          (not_not.mpr hl) i hi
        exact ⟨.inr ⟨by simp only; omega, by simp only; omega, hpoint.lt_length⟩, fun _ => hpoint⟩
    · rw [heq]
      refine iff_of_true ⟨.inr ⟨by simp, by simp only; omega, ?_⟩,
        fun h => absurd h Bool.false_ne_true⟩ ?_
      · rcases hk' with rfl | rfl
        · exact hlt
        · exact Nat.zero_lt_of_lt hlt
      · rcases hc.lt_or_eq with hc8 | rfl
        · by_cases hl : Leaves s.mGpsInfo (s.curRow c) s.mCurIdx
          · exact .inr (.inr (.inr fun i hi => absurd hi (hno0 hl (by omega) i)))
          · exact .inr (.inr (.inl hl))
        · exact .inr (.inl rfl)

end Call

/-! ### Drives -/

/-- A call with the next fix. -/
def compareStep (s : Traces) (fix : GPSInfo) : Option Traces :=
  some (compareTrace { s with mGpsInfo := fix }).1

/-- **The cursor points at a stored sample after any number of calls**, and every match that was
recorded is the sample that was compared, exactly if every call is safe. -/
theorem cursor_run_iff {s : Traces} (hs : CursorValid s) (fixes : List GPSInfo) :
    Always compareStep CursorValid s fixes ∧
        Along compareStep (fun s fix => MatchRight { s with mGpsInfo := fix }) s fixes ↔
      Along compareStep (fun s fix => Safe { s with mGpsInfo := fix }) s fixes := by
  refine always_and_along_iff (fun s fix s' hs hstep => ?_) hs fixes
  obtain rfl := Option.some_inj.mp hstep
  exact cursor_step_iff ⟨hs.row_nonneg, hs.row_lt, hs.point⟩

/-- An instance whose first row has traces with samples at the given latitudes, with the car at
the latitude 0. -/
def onTrack (cols : List (List ℚ)) (col : ℤ) (idx : ℕ) : Traces :=
  { tracesIn [] 0 col with
    mGpsInfo := sampleAt 0
    mGpsData := fun _ j => (cols.getD j []).map sampleAt
    mCurIdx := idx
    mNewTrack := false }

lemma cursorValid_onTrack {cols : List (List ℚ)} {col : ℤ} {idx : ℕ}
    (h : PointsInto (onTrack cols col idx).curRow col idx) : CursorValid (onTrack cols col idx) :=
  ⟨le_rfl, by norm_num [onTrack, tracesIn], h⟩

/-- A match without a cursor, and one from the cursor on. -/
theorem cursor_run_two_fixes :
    Always compareStep CursorValid (onTrack [[3, 2, 1]] (-1) 0) [sampleAt 0, sampleAt 0] ∧
      Along compareStep (fun s fix => MatchRight { s with mGpsInfo := fix })
        (onTrack [[3, 2, 1]] (-1) 0) [sampleAt 0, sampleAt 0] := by
  refine (cursor_run_iff (cursorValid_onTrack (.inl ⟨rfl, rfl⟩)) _).mpr ?_
  refine along_cons rfl (.inl rfl) <| along_cons rfl (.inr (.inr (.inl fun hleave => ?_))) <|
    along_nil _
  exact not_matchesAt_of_leaves hleave (matchesAt_next (by decide +kernel) (by decide +kernel))

/-- The scan from the second sample leaves the track, and the one from the first sample finds
the second one, which is recorded for the empty column 1. -/
theorem not_forall_cursor_run :
    ¬ ∀ s : Traces, CursorValid s → ∀ fixes : List GPSInfo,
      Always compareStep CursorValid s fixes ∧
        Along compareStep (fun s fix => MatchRight { s with mGpsInfo := fix }) s fixes := by
  intro h
  have hvalid : CursorValid (onTrack [[2, 1, 3]] 0 1) :=
    cursorValid_onTrack (.inr ⟨le_rfl, by norm_num, by decide⟩)
  have hafter : CursorValid (compareTrace (onTrack [[2, 1, 3]] 0 1)).1 :=
    (h _ hvalid [sampleAt 0]).1 [sampleAt 0] _ List.prefix_rfl rfl
  have hcursor : (compareTrace (onTrack [[2, 1, 3]] 0 1)).1.mCurCol = 1 ∧
      (compareTrace (onTrack [[2, 1, 3]] 0 1)).1.curCol = [] := by decide +kernel
  rcases hafter.point with ⟨hcol, -⟩ | ⟨-, -, hlt⟩
  · omega
  · rw [← Traces.curCol, hcursor.2] at hlt
    exact Nat.not_lt_zero _ hlt

/-! ### New tracks -/

/-- A stored column that the call has to consider: from that of the cursor on, or from the first
one if the cursor is not set. -/
def Traces.Considered (s : Traces) (j : ℕ) : Prop :=
  s.mCurCol.toNat ≤ j ∧ j < 10 ∧ s.curRow j ≠ []

/-- The columns that the call scans: a round of `compareLoop` that does not break scans one. -/
def scannedColumns (s : Traces) : List ℕ :=
  if s.mCurCol = -1 then
    (forLoop 10 (logged (fun j _ => j) (startRound s.mGpsInfo s.curRow)) 0
      (⟨s.mCurCol, s.mCurIdx, 0, false⟩, [])).1.2
  else
    (forLoop 10 (logged (fun _ x => x.mCurCol.toNat) (trackRound s.mGpsInfo s.curRow))
      s.mCurCol.toNat (⟨s.mCurCol, s.mCurIdx, 0, false⟩, [])).1.2

/-- The call has scanned all stored columns that it had to consider. -/
def ScannedAll (s : Traces) : Prop := ∀ j, s.Considered j → j ∈ scannedColumns s

/-- The call declares a new track exactly if it has scanned all stored columns that it had to
consider and found no match. -/
def DeclaresRight (s : Traces) : Prop :=
  (compareTrace s).1.mNewTrack = true ↔ ScannedAll s ∧ (compareLoop s).1.breakJ = false

lemma declaresRight_iff {s : Traces} (hs : CursorValid s) (hnew : s.mNewTrack = false) :
    DeclaresRight s ↔
      ((compareLoop s).2 = 10 ↔ ScannedAll s ∧ (compareLoop s).1.breakJ = false) := by
  rw [DeclaresRight, hs.compareTrace_fst]
  refine iff_congr ?_ Iff.rfl
  simp [hnew]

/-- A match is never at the index 0, and never where the cursor was, so that it shows in the
members. -/
lemma breakJ_iff_moved {s : Traces} (hs : CursorValid s) :
    (compareLoop s).1.breakJ = true ↔ (compareTrace s).1.mCurIdx ≠ 0 ∧
      ((compareTrace s).1.mCurCol ≠ s.mCurCol ∨ (compareTrace s).1.mCurIdx ≠ s.mCurIdx) := by
  rw [hs.compareTrace_fst]
  rcases hs.cases with ⟨hcol, hidx⟩ | ⟨c, hc, hcol, hlt⟩
  · rw [compareLoop_of_unset hcol hidx, hcol]
    rcases startLoop_cases s.mGpsInfo s.curRow 0 with
      ⟨j, hj, i, -, hi, heq⟩ | ⟨n, m', -, -, heq⟩
    · have hgt := hi.1.gt
      rw [heq]
      exact iff_of_true rfl ⟨hgt.ne', .inl (by simp only; omega)⟩
    · rw [heq]
      exact iff_of_false Bool.false_ne_true fun h => h.1 rfl
  · rw [compareLoop_of_set hcol, hcol]
    rcases trackLoop_cases s.mGpsInfo 0 hc hlt with
      ⟨i, hi, heq⟩ | ⟨-, -, i, hi, heq⟩ | ⟨-, -, k', m', hk', heq⟩
    · have hgt := hi.1.gt
      rw [heq]
      exact iff_of_true rfl ⟨by simp only; omega, .inr hgt.ne'⟩
    · rw [heq]
      exact iff_of_true rfl ⟨hi.1.gt.ne', .inl (by simp only; omega)⟩
    · rw [heq]
      refine iff_of_false Bool.false_ne_true fun ⟨hne, hmoved⟩ => ?_
      rcases hk' with rfl | rfl
      · exact hmoved.elim (fun h => h rfl) fun h => h rfl
      · exact hne rfl

/-- Behind an empty column all columns are empty. -/
lemma empty_after {row : ℕ → List GPSInfo} (hcols : ∀ j < 9, row j = [] → row (j + 1) = [])
    {n j : ℕ} (hempty : row n = []) (hnj : n ≤ j) (hj : j ≤ 9) : row j = [] := by
  induction j, hnj using Nat.le_induction with
  | base => exact hempty
  | succ j _ ih => exact hcols j (by omega) (ih (by omega))

/-- Without a cursor the columns are scanned up to the counter. -/
lemma scannedColumns_of_unset {s : Traces} (hcol : s.mCurCol = -1) :
    scannedColumns s = List.range (compareLoop s).2 := by
  rw [scannedColumns, if_pos hcol, log_counter (Nat.zero_le 10), compareLoop, if_pos hcol,
    Nat.sub_zero, List.range_eq_range']

/-- With the cursor at column `c` no other column is scanned. -/
lemma mem_scannedColumns_of_set {s : Traces} {c j : ℕ} (hc : c ≤ 9) (hcol : s.mCurCol = c) :
    j ∈ scannedColumns s ↔ j = c := by
  rw [scannedColumns, if_neg (by omega), hcol, Int.toNat_natCast]
  refine @forLoop_inv _
    (logged (fun _ (x : Scan) => x.mCurCol.toNat) (trackRound s.mGpsInfo s.curRow)) 10 c
    (⟨c, s.mCurIdx, 0, false⟩, [])
    (fun n x => (x.1.breakJ = true ∧ c < n ∨ x.1.breakJ = false ∧ x.1.mCurCol = c) ∧
      ∀ m, m ∈ x.2 ↔ m = c ∧ c < n)
    (fun x _ => j ∈ x.2 ↔ j = c) (by omega) ⟨.inr ⟨rfl, rfl⟩, by simp⟩ ?_ ?_ ?_
  · rintro n x y hn - ⟨hcursor, hmem⟩ hbody
    obtain ⟨hround, hlog⟩ := logged_yield.mp hbody
    rw [trackRound] at hround
    split_ifs at hround with hbreak
    obtain ⟨-, hcur⟩ := hcursor.resolve_left fun h => hbreak h.1
    refine ⟨?_, fun m => ?_⟩
    · rw [← ForInStep.yield.inj hround]
      rcases Bool.eq_false_or_eq_true (scanColumn s.mGpsInfo (s.curRow x.1.mCurCol.toNat) n
        x.1).breakJ with hmatch | hmatch
      · exact .inl ⟨hmatch, by omega⟩
      · refine .inr ⟨hmatch, ?_⟩
        rw [← hcur]
        exact (scanColumn_moves _ _ n x.1).resolve_left (by simp [hmatch])
    · rw [hlog, List.mem_append, hmem, hcur, Int.toNat_natCast, List.mem_singleton]
      omega
  · rintro n x y - - ⟨hcursor, hmem⟩ hbody
    obtain ⟨hround, hlog⟩ := logged_done.mp hbody
    rw [trackRound] at hround
    split_ifs at hround with hbreak
    have hlt : c < n := (hcursor.resolve_right fun h => by simp [hbreak] at h).2
    rw [hlog, hmem, and_iff_left hlt]
  · rintro x ⟨-, hmem⟩
    rw [hmem, and_iff_left (by omega)]

/-- Without a cursor, a call that finds no match has scanned all columns. -/
lemma scannedAll_of_unset {s : Traces} (hcol : s.mCurCol = -1) (hidx : s.mCurIdx = 0)
    (hcols : ∀ j < 9, s.curRow j = [] → s.curRow (j + 1) = [])
    (hno : (compareLoop s).1.breakJ = false) : ScannedAll s := by
  rintro j ⟨-, hj, hstored⟩
  rw [scannedColumns_of_unset hcol, List.mem_range]
  rw [compareLoop_of_unset hcol hidx] at hno ⊢
  rcases startLoop_cases s.mGpsInfo s.curRow 0 with
    ⟨j', -, i, -, -, heq⟩ | ⟨n, m', hn, -, heq⟩
  · rw [heq] at hno
    cases hno
  · rw [heq]
    rcases hn with rfl | ⟨-, hempty⟩
    · exact hj
    · exact lt_of_not_ge fun hnj => hstored (empty_after hcols hempty hnj (by omega))

/-- With the cursor at column `c`, only the last stored column is enough. -/
lemma scannedAll_of_set_iff {s : Traces} {c : ℕ} (hc : c ≤ 9) (hcol : s.mCurCol = c)
    (hcols : ∀ j < 9, s.curRow j = [] → s.curRow (j + 1) = []) :
    ScannedAll s ↔ (c ≤ 8 → s.curRow (c + 1) = []) := by
  constructor
  · intro hall hc8
    by_contra hstored
    have hnext := hall (c + 1) ⟨by omega, by omega, hstored⟩
    rw [mem_scannedColumns_of_set hc hcol] at hnext
    omega
  · rintro hlast j ⟨hge, hj, hstored⟩
    rw [mem_scannedColumns_of_set hc hcol]
    rw [hcol, Int.toNat_natCast] at hge
    by_contra hne
    exact hstored (empty_after hcols (hlast (by omega)) (by omega) (by omega))

/-- Without a cursor. -/
lemma declares_unset_iff {s : Traces} (hcol : s.mCurCol = -1) (hidx : s.mCurIdx = 0)
    (hcols : ∀ j < 9, s.curRow j = [] → s.curRow (j + 1) = []) :
    ((compareLoop s).2 = 10 ↔ ScannedAll s ∧ (compareLoop s).1.breakJ = false) ↔
      (∃ j ≤ 8, ∃ i, MatchesAt s.mGpsInfo (s.curRow j) 0 i) ∨
        s.curRow 9 ≠ [] ∧ ∀ i, ¬ MatchesAt s.mGpsInfo (s.curRow 9) 0 i := by
  rw [and_iff_right_of_imp (scannedAll_of_unset hcol hidx hcols), compareLoop_of_unset hcol hidx]
  rcases startLoop_cases s.mGpsInfo s.curRow 0 with
    ⟨j, hj, i, hnone, hi, heq⟩ | ⟨n, m', hn, hnone, heq⟩
  · rw [heq]
    simp only [Bool.true_eq_false, iff_false]
    rcases hj.lt_or_eq with hj8 | rfl
    · exact iff_of_true (by omega) (.inl ⟨j, by omega, i, hi⟩)
    · -- a match in the last column
      refine iff_of_false (by simp) ?_
      rintro (⟨j, hj, i', hi'⟩ | ⟨-, hno⟩)
      · exact (hnone j (by omega)).2 i' hi'
      · exact hno i hi
  · rw [heq]
    simp only [iff_true]
    rcases hn with rfl | ⟨hn, hempty⟩
    · exact iff_of_true rfl (.inr (hnone 9 (by omega)))
    · -- an empty column
      refine iff_of_false hn.ne ?_
      rintro (⟨j, hj, i, hi⟩ | ⟨hne, -⟩)
      · rcases Nat.lt_or_ge j n with hlt | hge
        · exact (hnone j hlt).2 i hi
        · have hlen := hi.1.lt_length
          rw [empty_after hcols hempty hge (by omega)] at hlen
          exact Nat.not_lt_zero i hlen
      · exact hne (empty_after hcols hempty (by omega) le_rfl)

/-- With the cursor at column `c`. -/
lemma declares_set_iff {s : Traces} {c : ℕ} (hc : c ≤ 9) (hcol : s.mCurCol = c)
    (hlt : s.mCurIdx < (s.curRow c).length)
    (hcols : ∀ j < 9, s.curRow j = [] → s.curRow (j + 1) = []) :
    ((compareLoop s).2 = 10 ↔ ScannedAll s ∧ (compareLoop s).1.breakJ = false) ↔
      (c = 8 → Leaves s.mGpsInfo (s.curRow c) s.mCurIdx →
        ∀ i, ¬ MatchesAt s.mGpsInfo (s.curRow c) 0 i) ∧
      (c = 9 → ∀ i, ¬ MatchesAt s.mGpsInfo (s.curRow c) s.mCurIdx i) ∧
      (c ≤ 8 → s.curRow (c + 1) ≠ [] →
        (∃ i, MatchesAt s.mGpsInfo (s.curRow c) s.mCurIdx i) ∨
          Leaves s.mGpsInfo (s.curRow c) s.mCurIdx ∧
            ∃ i, MatchesAt s.mGpsInfo (s.curRow c) 0 i) := by
  rw [scannedAll_of_set_iff hc hcol hcols, compareLoop_of_set hcol]
  rcases trackLoop_cases s.mGpsInfo 0 hc hlt with
    ⟨i, hi, heq⟩ | ⟨hl, hc8, i, hi, heq⟩ | ⟨hno, hno0, k', m', -, heq⟩
  · rw [heq]
    simp only [Bool.true_eq_false, and_false, iff_false]
    refine ⟨fun hne => ?_, fun ⟨_, h, _⟩ heq10 => h (by omega) i hi⟩
    exact ⟨fun _ hl => absurd hi (not_matchesAt_of_leaves hl), fun h => absurd h (by omega),
      fun _ _ => .inl ⟨i, hi⟩⟩
  · rw [heq]
    simp only [Bool.true_eq_false, and_false, iff_false]
    refine ⟨fun hne => ?_, fun ⟨h, _⟩ heq10 => h (by omega) hl i hi⟩
    exact ⟨fun h => absurd h (by omega), fun h => absurd h (by omega),
      fun _ _ => .inr ⟨hl, i, hi⟩⟩
  · rw [heq]
    simp only [and_true, true_iff]
    constructor
    · exact fun hlast => ⟨fun h hl => hno0 hl (by omega), fun _ => hno,
        fun hc8 hne => absurd (hlast hc8) hne⟩
    · rintro ⟨h8, -, hmatch⟩ hc8
      by_contra hne
      rcases hmatch hc8 hne with ⟨i, hi⟩ | ⟨hl, i, hi⟩
      · exact hno i hi
      · exact hno0 hl hc8 i hi

/-- **A track is declared new exactly if all columns were scanned and nothing matched**, under
four conditions.  Without a cursor: a column before the last one has a match, or there are ten
columns and the last one has none.  With the cursor at column 8: no restart of the scan finds a
match.  With the cursor at column 9: the scan finds no match.  With the cursor before a stored
column: the scan, or its restart, finds a match. -/
theorem declaresRight_iff_conditions {s : Traces} (hs : CursorValid s) (hnew : s.mNewTrack = false)
    (hcols : ∀ j < 9, s.curRow j = [] → s.curRow (j + 1) = []) :
    DeclaresRight s ↔
      (s.mCurCol = -1 →
        (∃ j ≤ 8, ∃ i, MatchesAt s.mGpsInfo (s.curRow j) 0 i) ∨
          s.curRow 9 ≠ [] ∧ ∀ i, ¬ MatchesAt s.mGpsInfo (s.curRow 9) 0 i) ∧
      (s.mCurCol = 8 → Leaves s.mGpsInfo s.curCol s.mCurIdx →
        ∀ i, ¬ MatchesAt s.mGpsInfo s.curCol 0 i) ∧
      (s.mCurCol = 9 → ∀ i, ¬ MatchesAt s.mGpsInfo s.curCol s.mCurIdx i) ∧
      (0 ≤ s.mCurCol → s.mCurCol ≤ 8 → s.curRow (s.mCurCol.toNat + 1) ≠ [] →
        (∃ i, MatchesAt s.mGpsInfo s.curCol s.mCurIdx i) ∨
          Leaves s.mGpsInfo s.curCol s.mCurIdx ∧ ∃ i, MatchesAt s.mGpsInfo s.curCol 0 i) := by
  rw [declaresRight_iff hs hnew]
  rcases hs.cases with ⟨hcol, hidx⟩ | ⟨c, hc, hcol, hlt⟩
  · rw [declares_unset_iff hcol hidx hcols, hcol]
    simp
  · have h0 : 0 ≤ s.mCurCol := by omega
    have h8 : s.mCurCol = 8 ↔ c = 8 := by omega
    have h9 : s.mCurCol = 9 ↔ c = 9 := by omega
    have hle : s.mCurCol ≤ 8 ↔ c ≤ 8 := by omega
    have hnat : s.mCurCol.toNat = c := by omega
    rw [declares_set_iff hc hcol hlt hcols, curCol_of_set hcol, h8, h9, hle, hnat,
      imp_iff_right h0]
    exact (and_iff_right fun h => absurd h (by omega)).symm

/-- A match in the second column without a cursor, and one behind the cursor in the first. -/
theorem declaresRight_two_columns :
    DeclaresRight (onTrack [[1, 2], [3, 1 / 2]] (-1) 0) ∧
      DeclaresRight (onTrack [[2, 1, 1 / 2], [3, 4]] 0 1) := by
  have hunset : CursorValid (onTrack [[1, 2], [3, 1 / 2]] (-1) 0) :=
    cursorValid_onTrack (.inl ⟨rfl, rfl⟩)
  have hset : CursorValid (onTrack [[2, 1, 1 / 2], [3, 4]] 0 1) :=
    cursorValid_onTrack (.inr ⟨le_rfl, by norm_num, by decide⟩)
  constructor
  · refine (declaresRight_iff_conditions hunset rfl (by decide)).mpr
      ⟨fun _ => .inl ⟨1, by norm_num, 1, ?_⟩, fun h => absurd h (by decide),
        fun h => absurd h (by decide), fun h => absurd h (by decide)⟩
    exact matchesAt_next (by decide) (by decide +kernel)
  · refine (declaresRight_iff_conditions hset rfl (by decide)).mpr
      ⟨fun h => absurd h (by decide), fun h => absurd h (by decide),
        fun h => absurd h (by decide), fun _ _ _ => .inl ⟨2, ?_⟩⟩
    exact matchesAt_next (by decide) (by decide +kernel)

/-- In a row of one column without a match, the loop ends at the empty column 1, and no new track
is declared. -/
theorem not_forall_declaresRight :
    ¬ ∀ s : Traces, CursorValid s → s.mNewTrack = false →
      (∀ j < 9, s.curRow j = [] → s.curRow (j + 1) = []) → DeclaresRight s := by
  intro h
  have hcols : ∀ j < 9, (onTrack [[1]] (-1) 0).curRow j = [] →
      (onTrack [[1]] (-1) 0).curRow (j + 1) = [] := by simp [onTrack, Traces.curRow]
  have hright := h (onTrack [[1]] (-1) 0) (cursorValid_onTrack (.inl ⟨rfl, rfl⟩)) rfl hcols
  have hrun : (compareTrace (onTrack [[1]] (-1) 0)).1.mNewTrack = false ∧
      (compareLoop (onTrack [[1]] (-1) 0)).1.breakJ = false := by decide +kernel
  have hnew := hright.mpr ⟨scannedAll_of_unset rfl rfl hcols hrun.2, hrun.2⟩
  rw [hrun.1] at hnew
  cases hnew

end Gauge
