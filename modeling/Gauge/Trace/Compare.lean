import Gauge.Base.Loop
import Gauge.Base.Machine
import Gauge.Trace.State

/-!
`compareTrace`, which moves the cursor along the stored traces while the car drives.

A scan of a column starts at the index of the cursor and stops at the first point that is closer
to the current fix than the starting point (a match), or that is far from it (the car has left
the track).  The loop around it goes on with the next column.
-/

namespace Gauge

open Loop Machine

/-! ### The two loops -/

/-- The variables that the loops change.  A scan sets `minDiff` in its first round. -/
structure Scan where
  mCurCol : ℤ
  mCurIdx : ℕ
  minDiff : ℚ
  breakJ : Bool
  deriving DecidableEq

/-- `curDiff` at the index `i` of a column. -/
def diffAt (fix : GPSInfo) (col : List GPSInfo) (i : ℕ) : ℚ :=
  posDist (col.getD i zeroInfo).pos fix.pos

/-- The body of the loop over the points of a column. -/
def scanPoint (fix : GPSInfo) (col : List GPSInfo) (j i : ℕ) (x : Scan) : ForInStep Scan :=
  if i = x.mCurIdx then .yield { x with minDiff := diffAt fix col i }
  else if diffAt fix col i < x.minDiff then .done ⟨j, i, diffAt fix col i, true⟩
  else if maxDiffLatLon < diffAt fix col i then .done { x with mCurIdx := 0 }
  else .yield x

/-- The loop over the points of a column. -/
def scanColumn (fix : GPSInfo) (col : List GPSInfo) (j : ℕ) (x : Scan) : Scan :=
  (forLoop col.length (scanPoint fix col j) x.mCurIdx x).1

/-- A round of the loop over the columns, where the cursor is set: the column that is scanned is
always that of the cursor. -/
def trackRound (fix : GPSInfo) (row : ℕ → List GPSInfo) (j : ℕ) (x : Scan) : ForInStep Scan :=
  if x.breakJ then .done x else .yield (scanColumn fix (row x.mCurCol.toNat) j x)

/-- A round of the loop over the columns, where the cursor is not set. -/
def startRound (fix : GPSInfo) (row : ℕ → List GPSInfo) (j : ℕ) (x : Scan) : ForInStep Scan :=
  if x.breakJ then .done x
  else if (row j).length = 0 then .done x
  else .yield (scanColumn fix (row j) j x)

/-- The row of the cursor. -/
def Traces.curRow (s : Traces) : ℕ → List GPSInfo := s.mGpsData s.mCurRow.toNat

/-- The two branches of `compareTrace`, with the counter `j` at the end of the loop. -/
def compareLoop (s : Traces) : Scan × ℕ :=
  if s.mCurCol = -1 then
    forLoop 10 (startRound s.mGpsInfo s.curRow) 0 ⟨s.mCurCol, s.mCurIdx, 0, false⟩
  else
    forLoop 10 (trackRound s.mGpsInfo s.curRow) s.mCurCol.toNat ⟨s.mCurCol, s.mCurIdx, 0, false⟩

/-- `GaugeArrival::compareTrace`, with its result. -/
def compareTrace (s : Traces) : Traces × Bool :=
  if s.mCurRow = -1 then (s, false)
  else
    ({ s with
        mCurCol := (compareLoop s).1.mCurCol
        mCurIdx := (compareLoop s).1.mCurIdx
        mNewTrack := if (compareLoop s).2 = 10 then true else s.mNewTrack }, s.mCurCol ≠ -1)

/-! ### The scan of a column -/

section Scan

variable {fix : GPSInfo} {col : List GPSInfo} {k i : ℕ}

/-- The scan from `k` does not go on behind `i`. -/
def Stop (fix : GPSInfo) (col : List GPSInfo) (k i : ℕ) : Prop :=
  diffAt fix col i < diffAt fix col k ∨ maxDiffLatLon < diffAt fix col i

/-- The scan from `k` stops at `i`. -/
structure StopsAt (fix : GPSInfo) (col : List GPSInfo) (k i : ℕ) : Prop where
  gt : k < i
  lt_length : i < col.length
  stop : Stop fix col k i
  first : ∀ m, k < m → m < i → ¬ Stop fix col k m

/-- The scan from `k` finds a match at `i`. -/
def MatchesAt (fix : GPSInfo) (col : List GPSInfo) (k i : ℕ) : Prop :=
  StopsAt fix col k i ∧ diffAt fix col i < diffAt fix col k

/-- The scan from `k` finds that the car has left the track. -/
def Leaves (fix : GPSInfo) (col : List GPSInfo) (k : ℕ) : Prop :=
  ∃ i, StopsAt fix col k i ∧ ¬ diffAt fix col i < diffAt fix col k

lemma StopsAt.unique {i' : ℕ} (h : StopsAt fix col k i) (h' : StopsAt fix col k i') : i = i' := by
  rcases lt_trichotomy i i' with hlt | heq | hgt
  · exact absurd h.stop (h'.first i h.gt hlt)
  · exact heq
  · exact absurd h'.stop (h.first i' h'.gt hgt)

lemma MatchesAt.unique {i' : ℕ} (h : MatchesAt fix col k i) (h' : MatchesAt fix col k i') :
    i = i' :=
  h.1.unique h'.1

lemma not_matchesAt_of_leaves (h : Leaves fix col k) : ¬ MatchesAt fix col k i := by
  obtain ⟨i', hstop, hge⟩ := h
  intro hmatch
  exact hge (hstop.unique hmatch.1 ▸ hmatch.2)

/-- The next point is closer. -/
lemma matchesAt_next (hlt : k + 1 < col.length)
    (hcloser : diffAt fix col (k + 1) < diffAt fix col k) : MatchesAt fix col k (k + 1) :=
  ⟨⟨Nat.lt_succ_self k, hlt, .inl hcloser, fun m h h' => absurd h' (by omega)⟩, hcloser⟩

/-- **What a scan does.** -/
lemma scanColumn_cases {j : ℕ} {x : Scan} (hx : x.breakJ = false) (hlt : x.mCurIdx < col.length) :
    (∃ i, MatchesAt fix col x.mCurIdx i ∧
        scanColumn fix col j x = ⟨j, i, diffAt fix col i, true⟩) ∨
      (Leaves fix col x.mCurIdx ∧
        scanColumn fix col j x = ⟨x.mCurCol, 0, diffAt fix col x.mCurIdx, false⟩) ∨
      ((∀ i, ¬ StopsAt fix col x.mCurIdx i) ∧
        scanColumn fix col j x = ⟨x.mCurCol, x.mCurIdx, diffAt fix col x.mCurIdx, false⟩) := by
  obtain ⟨c, k, minDiff, _⟩ := x
  obtain rfl : _ = false := hx
  dsimp only at hlt ⊢
  -- the first round sets `minDiff`
  have hfirst : scanPoint fix col j k ⟨c, k, minDiff, false⟩ =
      .yield ⟨c, k, diffAt fix col k, false⟩ := if_pos rfl
  rw [scanColumn, forLoop_yield hlt hfirst]
  refine forLoop_inv
    (fun m (u : Scan) => u = ⟨c, k, diffAt fix col k, false⟩ ∧
      ∀ m', k < m' → m' < m → ¬ Stop fix col k m')
    (fun (u : Scan) _ => (∃ i, MatchesAt fix col k i ∧ u = ⟨j, i, diffAt fix col i, true⟩) ∨
      (Leaves fix col k ∧ u = ⟨c, 0, diffAt fix col k, false⟩) ∨
      ((∀ i, ¬ StopsAt fix col k i) ∧ u = ⟨c, k, diffAt fix col k, false⟩))
    hlt ⟨rfl, fun m' h h' => absurd h' (by omega)⟩ ?_ ?_ ?_
  · rintro m u u' hm hmlt ⟨rfl, hquiet⟩ hbody
    rw [scanPoint, if_neg (by simp only; omega)] at hbody
    split_ifs at hbody with hmatch hleave
    obtain rfl := ForInStep.yield.inj hbody
    refine ⟨rfl, fun m' hgt hm' => ?_⟩
    rcases eq_or_ne m' m with rfl | hne
    · exact not_or.mpr ⟨hmatch, hleave⟩
    · exact hquiet m' hgt (by omega)
  · rintro m u u' hm hmlt ⟨rfl, hquiet⟩ hbody
    rw [scanPoint, if_neg (by simp only; omega)] at hbody
    split_ifs at hbody with hmatch hleave <;> obtain rfl := ForInStep.done.inj hbody
    · exact .inl ⟨m, ⟨⟨hm, hmlt, .inl hmatch, hquiet⟩, hmatch⟩, rfl⟩
    · exact .inr (.inl ⟨⟨m, ⟨hm, hmlt, .inr hleave, hquiet⟩, hmatch⟩, rfl⟩)
  · rintro u ⟨rfl, hquiet⟩
    exact .inr (.inr ⟨fun i hi => hquiet i hi.gt hi.lt_length hi.stop, rfl⟩)

lemma scanColumn_of_matchesAt {j : ℕ} {x : Scan} (hx : x.breakJ = false)
    (hmatch : MatchesAt fix col x.mCurIdx i) :
    scanColumn fix col j x = ⟨j, i, diffAt fix col i, true⟩ := by
  rcases scanColumn_cases (j := j) hx (hmatch.1.gt.trans hmatch.1.lt_length) with
    ⟨i', hmatch', heq⟩ | ⟨hleave, -⟩ | ⟨hno, -⟩
  · rw [heq, hmatch.unique hmatch']
  · exact absurd hmatch (not_matchesAt_of_leaves hleave)
  · exact absurd hmatch.1 (hno i)

lemma scanColumn_of_not_matchesAt {j : ℕ} {x : Scan} (hx : x.breakJ = false)
    (hlt : x.mCurIdx < col.length) (hno : ∀ i, ¬ MatchesAt fix col x.mCurIdx i) :
    (Leaves fix col x.mCurIdx ∧
        scanColumn fix col j x = ⟨x.mCurCol, 0, diffAt fix col x.mCurIdx, false⟩) ∨
      (¬ Leaves fix col x.mCurIdx ∧
        scanColumn fix col j x = ⟨x.mCurCol, x.mCurIdx, diffAt fix col x.mCurIdx, false⟩) := by
  rcases scanColumn_cases (j := j) hx hlt with ⟨i, hmatch, -⟩ | hleave | ⟨hstop, heq⟩
  · exact absurd hmatch (hno i)
  · exact .inl hleave
  · exact .inr ⟨fun ⟨i, hi, _⟩ => hstop i hi, heq⟩

/-- Only a match moves the cursor to another column. -/
lemma scanColumn_moves (fix : GPSInfo) (col : List GPSInfo) (j : ℕ) (x : Scan) :
    (scanColumn fix col j x).breakJ = true ∨ (scanColumn fix col j x).mCurCol = x.mCurCol := by
  refine forLoop_keeps (fun u : Scan => u.breakJ = true ∨ u.mCurCol = x.mCurCol) (.inr rfl) ?_
  intro i u _ _ hu
  rw [scanPoint]
  split_ifs
  · exact hu
  · exact .inl rfl
  · exact hu
  · exact hu

end Scan

/-! ### The loops over the columns -/

section Columns

variable {fix : GPSInfo} {row : ℕ → List GPSInfo} {j : ℕ} {x : Scan}

lemma trackLoop_matched (hx : x.breakJ = true) (hj : j ≤ 10) :
    forLoop 10 (trackRound fix row) j x = (x, j) :=
  forLoop_stopped hj (if_pos hx)

lemma trackRound_of_not {c k : ℕ} {m : ℚ} :
    trackRound fix row j ⟨c, k, m, false⟩ = .yield (scanColumn fix (row c) j ⟨c, k, m, false⟩) :=
  rfl

/-- Where a scan neither finds a match nor changes the index, nor do the following ones, which
are the same. -/
lemma trackLoop_stuck {c k : ℕ} {m : ℚ} (hlt : k < (row c).length)
    (hno : ∀ i, ¬ MatchesAt fix (row c) k i) (hleave : Leaves fix (row c) k → k = 0)
    (hj : j ≤ 10) :
    ∃ m', forLoop 10 (trackRound fix row) j ⟨c, k, m, false⟩ = (⟨c, k, m', false⟩, 10) := by
  have hend := @forLoop_inv _ (trackRound fix row) 10 j ⟨c, k, m, false⟩
    (fun _ (u : Scan) => ∃ m', u = ⟨c, k, m', false⟩)
    (fun (u : Scan) n => ∃ m', (u, n) = (⟨c, k, m', false⟩, 10)) hj ⟨m, rfl⟩ ?_ ?_ ?_
  · exact hend
  · rintro n u u' - - ⟨m, rfl⟩ hbody
    rw [trackRound_of_not] at hbody
    obtain rfl := ForInStep.yield.inj hbody
    rcases scanColumn_of_not_matchesAt (j := n) (x := ⟨c, k, m, false⟩) rfl hlt hno with
      ⟨hl, heq⟩ | ⟨-, heq⟩
    · rw [heq, hleave hl]
      exact ⟨_, rfl⟩
    · rw [heq]
      exact ⟨_, rfl⟩
  · rintro n u u' - - ⟨m, rfl⟩ hbody
    rw [trackRound_of_not] at hbody
    cases hbody
  · rintro u ⟨m, rfl⟩
    exact ⟨m, rfl⟩

/-- **The loop with the cursor at column `c`**: a match from the cursor on, a match from the start
of the same column, which is recorded for the next column, or none. -/
lemma trackLoop_cases (fix : GPSInfo) {c k : ℕ} (m : ℚ) (hc : c ≤ 9) (hlt : k < (row c).length) :
    (∃ i, MatchesAt fix (row c) k i ∧ forLoop 10 (trackRound fix row) c ⟨c, k, m, false⟩ =
        (⟨c, i, diffAt fix (row c) i, true⟩, c + 1)) ∨
      (Leaves fix (row c) k ∧ c ≤ 8 ∧ ∃ i, MatchesAt fix (row c) 0 i ∧
        forLoop 10 (trackRound fix row) c ⟨c, k, m, false⟩ =
          (⟨(c + 1 : ℕ), i, diffAt fix (row c) i, true⟩, c + 2)) ∨
      ((∀ i, ¬ MatchesAt fix (row c) k i) ∧
        (Leaves fix (row c) k → c ≤ 8 → ∀ i, ¬ MatchesAt fix (row c) 0 i) ∧
        ∃ k' m', (k' = k ∨ k' = 0) ∧ forLoop 10 (trackRound fix row) c ⟨c, k, m, false⟩ =
          (⟨c, k', m', false⟩, 10)) := by
  have hround : ∀ j, j < 10 → ∀ k m, forLoop 10 (trackRound fix row) j ⟨c, k, m, false⟩ =
      forLoop 10 (trackRound fix row) (j + 1) (scanColumn fix (row c) j ⟨c, k, m, false⟩) :=
    fun j hj k m => forLoop_yield hj trackRound_of_not
  by_cases hmatch : ∃ i, MatchesAt fix (row c) k i
  · obtain ⟨i, hi⟩ := hmatch
    refine .inl ⟨i, hi, ?_⟩
    rw [hround c (by omega), scanColumn_of_matchesAt rfl hi, trackLoop_matched rfl (by omega)]
  have hno := not_exists.mp hmatch
  rcases scanColumn_of_not_matchesAt (j := c) (x := ⟨c, k, m, false⟩) rfl hlt hno with
    ⟨hl, heq⟩ | ⟨hl, -⟩
  · -- the next rounds start at the index 0
    rw [hround c (by omega), heq]
    rcases hc.lt_or_eq with hc8 | rfl
    · by_cases hfirst : ∃ i, MatchesAt fix (row c) 0 i
      · obtain ⟨i, hi⟩ := hfirst
        refine .inr (.inl ⟨hl, by omega, i, hi, ?_⟩)
        rw [hround (c + 1) (by omega), scanColumn_of_matchesAt rfl hi,
          trackLoop_matched rfl (by omega)]
      · have hno0 := not_exists.mp hfirst
        obtain ⟨m', hend⟩ := trackLoop_stuck (m := diffAt fix (row c) k) (j := c + 1)
          (Nat.zero_lt_of_lt hlt) hno0 (fun _ => rfl) (by omega)
        exact .inr (.inr ⟨hno, fun _ _ => hno0, 0, m', .inr rfl, hend⟩)
    · exact .inr (.inr ⟨hno, fun _ h => absurd h (by omega), 0, _, .inr rfl,
        forLoop_of_le le_rfl⟩)
  · obtain ⟨m', hend⟩ := trackLoop_stuck (m := m) (j := c) hlt hno (fun h => absurd h hl) (by omega)
    exact .inr (.inr ⟨hno, fun h => absurd h hl, k, m', .inl rfl, hend⟩)

/-- The columns below `n` are not empty and have no match. -/
def NoneBelow (fix : GPSInfo) (row : ℕ → List GPSInfo) (n : ℕ) : Prop :=
  ∀ j < n, row j ≠ [] ∧ ∀ i, ¬ MatchesAt fix (row j) 0 i

lemma NoneBelow.succ {n : ℕ} (h : NoneBelow fix row n) (hne : row n ≠ [])
    (hno : ∀ i, ¬ MatchesAt fix (row n) 0 i) : NoneBelow fix row (n + 1) := by
  intro j hj
  rcases Nat.lt_succ_iff_lt_or_eq.mp hj with hlt | rfl
  · exact h j hlt
  · exact ⟨hne, hno⟩

/-- **The loop without a cursor**: the first match of the row, if there is one before the first
empty column. -/
lemma startLoop_cases (fix : GPSInfo) (row : ℕ → List GPSInfo) (m : ℚ) :
    (∃ j ≤ 9, ∃ i, NoneBelow fix row j ∧ MatchesAt fix (row j) 0 i ∧
        forLoop 10 (startRound fix row) 0 ⟨-1, 0, m, false⟩ =
          (⟨j, i, diffAt fix (row j) i, true⟩, j + 1)) ∨
      ∃ n m', (n = 10 ∨ n < 10 ∧ row n = []) ∧ NoneBelow fix row n ∧
        forLoop 10 (startRound fix row) 0 ⟨-1, 0, m, false⟩ = (⟨-1, 0, m', false⟩, n) := by
  have hend := @forLoop_inv _ (startRound fix row) 10 0 ⟨-1, 0, m, false⟩
    (fun n (u : Scan) =>
      (∃ j ≤ 9, ∃ i, NoneBelow fix row j ∧ MatchesAt fix (row j) 0 i ∧
        (u, n) = (⟨j, i, diffAt fix (row j) i, true⟩, j + 1)) ∨
      ∃ m', NoneBelow fix row n ∧ u = ⟨-1, 0, m', false⟩)
    (fun (u : Scan) n =>
      (∃ j ≤ 9, ∃ i, NoneBelow fix row j ∧ MatchesAt fix (row j) 0 i ∧
        (u, n) = (⟨j, i, diffAt fix (row j) i, true⟩, j + 1)) ∨
      ∃ n' m', (n' = 10 ∨ n' < 10 ∧ row n' = []) ∧ NoneBelow fix row n' ∧
        (u, n) = (⟨-1, 0, m', false⟩, n'))
    (Nat.zero_le 10) (.inr ⟨m, fun j hj => absurd hj (Nat.not_lt_zero j), rfl⟩) ?_ ?_ ?_
  · exact hend
  · rintro n u u' - hn (⟨j, hj, i, hnone, hi, heq⟩ | ⟨m, hnone, rfl⟩) hbody
    · obtain ⟨rfl, rfl⟩ := Prod.mk.inj heq
      rw [startRound, if_pos rfl] at hbody
      cases hbody
    · rw [startRound, if_neg Bool.false_ne_true] at hbody
      split_ifs at hbody with hempty
      obtain rfl := ForInStep.yield.inj hbody
      have hcol : row n ≠ [] := fun h => hempty (List.length_eq_zero_iff.mpr h)
      by_cases hmatch : ∃ i, MatchesAt fix (row n) 0 i
      · obtain ⟨i, hi⟩ := hmatch
        refine .inl ⟨n, by omega, i, hnone, hi, ?_⟩
        rw [scanColumn_of_matchesAt rfl hi]
      · have hno := not_exists.mp hmatch
        rcases scanColumn_of_not_matchesAt (j := n) (x := ⟨-1, 0, m, false⟩) rfl
          (List.length_pos_iff.mpr hcol) hno with ⟨-, heq⟩ | ⟨-, heq⟩ <;>
          exact .inr ⟨_, hnone.succ hcol hno, heq⟩
  · rintro n u u' - hn (⟨j, hj, i, hnone, hi, heq⟩ | ⟨m, hnone, rfl⟩) hbody
    · obtain ⟨rfl, rfl⟩ := Prod.mk.inj heq
      rw [startRound, if_pos rfl] at hbody
      obtain rfl := ForInStep.done.inj hbody
      exact .inl ⟨j, hj, i, hnone, hi, rfl⟩
    · rw [startRound, if_neg Bool.false_ne_true] at hbody
      split_ifs at hbody with hempty
      obtain rfl := ForInStep.done.inj hbody
      exact .inr ⟨n, m, .inr ⟨hn, List.length_eq_zero_iff.mp hempty⟩, hnone, rfl⟩
  · rintro u (hfound | ⟨m, hnone, rfl⟩)
    · exact .inl hfound
    · exact .inr ⟨10, m, .inl rfl, hnone, rfl⟩

end Columns

end Gauge
