import Gauge.Recorder.Files

/-!
Positions whose codes are their indexes, `numbered`, and the way back from a code to a place.

* `searchOrAppend_numbered`: a handler appends a place only if it is far from all others.
* `indexed_searchOrAppend`: a handler keeps the codes equal to the indexes modulo `2 ^ 16`.
* `getLatLonByCode_numbered`: the place of a code, and of a number that is no code.
* `meaning_iff`: which indexes keep their place when the zeros that a load appends come to
  stand behind positions that were written later.
-/

namespace Gauge

/-- Two places that do not count as the same. -/
def Far (p q : LatLon) : Prop := maxDiffLatLon ≤ posDist p q

lemma Far.symm {p q : LatLon} (h : Far p q) : Far q p := by
  rw [Far, posDist_comm]
  exact h

lemma Far.ne {p q : LatLon} (h : Far p q) : p ≠ q := by
  rintro rfl
  rw [Far, posDist_self] at h
  exact absurd h (by norm_num [maxDiffLatLon])

lemma posNear_eq_false_iff (e : GPSPos) (q : LatLon) : posNear e q = false ↔ Far e.toLatLon q := by
  rw [posNear, decide_eq_false_iff_not, not_lt, Far]

/-! ### Numbered positions -/

@[simp] lemma length_numbered (ps : List LatLon) : (numbered ps).length = ps.length :=
  List.length_mapIdx

@[simp] lemma map_toLatLon_numbered (ps : List LatLon) :
    (numbered ps).map (·.toLatLon) = ps :=
  List.ext_getElem (by simp) fun i _ _ => by simp [numbered, newPos]

lemma numbered_concat (ps : List LatLon) (q : LatLon) :
    numbered (ps ++ [q]) = numbered ps ++ [newPos ps.length q] := by
  rw [numbered, List.mapIdx_append]
  simp [numbered]

lemma mem_numbered {ps : List LatLon} {p : LatLon} (hp : p ∈ ps) :
    ∃ e ∈ numbered ps, e.toLatLon = p := by
  rw [← map_toLatLon_numbered ps] at hp
  exact List.mem_map.mp hp

/-- A handler keeps the positions numbered, and appends a place only if it is far from all
the others. -/
lemma searchOrAppend_numbered (ps : List LatLon) (q : LatLon) :
    searchOrAppend (numbered ps) q = numbered ps ∨
      (∀ p ∈ ps, Far p q) ∧ searchOrAppend (numbered ps) q = numbered (ps ++ [q]) := by
  refine (searchOrAppend_cases (numbered ps) q).imp_right fun ⟨hfar, happ⟩ => ⟨?_, ?_⟩
  · intro p hp
    obtain ⟨e, he, rfl⟩ := mem_numbered hp
    exact (posNear_eq_false_iff e q).mp (hfar e he)
  · rw [numbered_concat, happ, length_numbered]

/-! ### Codes as indexes -/

/-- The code of each entry is its index, as a `short` keeps it. -/
def Indexed (vec : List GPSPos) : Prop := ∀ i (hi : i < vec.length), vec[i].code = Int16.ofNat i

lemma indexed_nil : Indexed [] := fun _ hi => absurd hi (Nat.not_lt_zero _)

lemma indexed_numbered (ps : List LatLon) : Indexed (numbered ps) := fun i hi => by
  simp [numbered, newPos]

lemma ofNat_inj_of_lt {i j : ℕ} (hi : i < 65536) (hj : j < 65536) :
    Int16.ofNat i = Int16.ofNat j ↔ i = j := by
  refine ⟨fun h => ?_, congrArg _⟩
  have hint := congrArg Int16.toInt h
  rw [Int16.toInt_ofNat', Int16.toInt_ofNat', Int.bmod_def, Int.bmod_def] at hint
  norm_num at hint
  split_ifs at hint <;> omega

lemma indexed_searchOrAppend {vec : List GPSPos} (h : Indexed vec) (q : LatLon) :
    Indexed (searchOrAppend vec q) := by
  rcases searchOrAppend_cases vec q with heq | ⟨-, heq⟩
  · rwa [heq]
  · rw [heq]
    intro i hi
    rw [List.length_append, List.length_singleton] at hi
    rcases Nat.lt_or_ge i vec.length with hlt | hge
    · rw [List.getElem_append_left hlt]
      exact h i hlt
    · obtain rfl : i = vec.length := by omega
      rw [List.getElem_concat_length rfl]
      rfl

/-! ### From a code to a place -/

/-- The loop of `getLatLonByCode` is a search for the code that returns its variable. -/
lemma latLonLoop_eq_searchVar (code : ℤ) (pos : GPSPos) (vec : List GPSPos) :
    latLonLoop code pos vec =
      FirstMatch.searchVar (fun p : GPSPos => p.code.toInt = code) pos vec := by
  induction vec generalizing pos with
  | nil => rfl
  | cons p ps ih =>
      rw [latLonLoop, FirstMatch.searchVar, ih]
      simp only [decide_eq_true_eq]

/-- The loop of `getLatLonByCode` stops at the first entry with the code. -/
lemma latLonLoop_eq {code : ℤ} {vec : List GPSPos} {i : ℕ} (hi : i < vec.length)
    (hcode : vec[i].code.toInt = code)
    (hfirst : ∀ j (hj : j < i), vec[j].code.toInt ≠ code) (pos : GPSPos) :
    latLonLoop code pos vec = vec[i] := by
  have hfind : vec.find? (fun p => p.code.toInt = code) = some vec[i] := by
    rw [List.find?_eq_some_iff_getElem]
    exact ⟨decide_eq_true hcode, i, hi, rfl, fun j hj => by simpa using hfirst j hj⟩
  rw [latLonLoop_eq_searchVar, FirstMatch.searchVar_eq, hfind]
  rfl

lemma getLatLonByCode_of_indexed {vec : List GPSPos} (h : Indexed vec) {i : ℕ}
    (hi : i < vec.length) (hlen : vec.length ≤ 65535) :
    getLatLonByCode vec (Int16.ofNat i).toInt = vec[i] := by
  refine latLonLoop_eq hi (by rw [h i hi]) (fun j hj heq => ?_) _
  rw [h j (by omega), Int16.toInt_inj, ofNat_inj_of_lt (by omega) (by omega)] at heq
  omega

/-- **The place of a code** is the one at its index, and the last one for a number that is no
code. -/
lemma getLatLonByCode_numbered {ps : List LatLon} (hps : ps.length ≤ 32768) (i : ℕ) :
    (getLatLonByCode (numbered ps) i).toLatLon = ps.getD i (ps.getLastD zeroPos) := by
  have hcode : ∀ j (hj : j < (numbered ps).length), (numbered ps)[j].code.toInt = j :=
    fun j hj => by
      have hlt : j < 2 ^ 15 := by rw [length_numbered] at hj; omega
      rw [indexed_numbered ps j hj, Int16.toInt_ofNat_of_lt hlt]
  rcases lt_or_ge i ps.length with hi | hi
  · have hi' : i < (numbered ps).length := by rwa [length_numbered]
    have hfound := latLonLoop_eq hi' (hcode i hi') (fun j hj => by rw [hcode]; omega)
    rw [getLatLonByCode, hfound]
    simp [numbered, newPos, List.getD_eq_getElem?_getD, hi]
  · -- no entry has the code, so that the variable is left at the last one
    have hnone : (numbered ps).find? (fun p => p.code.toInt = (i : ℤ)) = none := by
      rw [List.find?_eq_none]
      intro p hp
      obtain ⟨j, hj, rfl⟩ := List.getElem_of_mem hp
      rw [hcode j hj, decide_eq_true_eq]
      rw [length_numbered] at hj
      omega
    calc (getLatLonByCode (numbered ps) i).toLatLon
        = ((numbered ps).getLastD ⟨zeroPos, 0⟩).toLatLon := by
          rw [getLatLonByCode, latLonLoop_eq_searchVar, FirstMatch.searchVar_eq, hnone]
          rfl
      _ = ((numbered ps).map (·.toLatLon)).getLastD zeroPos :=
          (List.getLastD_map (f := fun p : GPSPos => p.toLatLon) (a := ⟨zeroPos, 0⟩)).symm
      _ = ps.getLastD zeroPos := by rw [map_toLatLon_numbered]
      _ = ps.getD i (ps.getLastD zeroPos) := by
          rw [List.getD_eq_getElem?_getD, List.getElem?_eq_none hi, Option.getD_none]

/-! ### Zeros in the middle and at the end -/

/-- The positions that a session starts with: those of the file and one more, of zeros, or
none if there is no file. -/
def base : Option (List LatLon) → List LatLon
  | some file => file ++ [zeroPos]
  | none => []

/-- Behind the old file stands what was written later, and then zeros. -/
lemma getD_grown (file rest : List LatLon) (j : ℕ) :
    (file ++ rest ++ [zeroPos]).getD (file.length + j) zeroPos = rest.getD j zeroPos := by
  rw [List.append_assoc, List.getD_eq_getElem?_getD, List.getElem?_append_right (by omega),
    Nat.add_sub_cancel_left, List.getD_eq_getElem?_getD]
  rcases lt_or_ge j rest.length with hj | hj
  · rw [List.getElem?_append_left hj]
  · rw [List.getElem?_append_right hj, List.getElem?_eq_none hj]
    cases j - rest.length <;> rfl

/-- **Which codes keep their meaning.**  A session starts with the positions `base G` and adds
`news`; a later load finds these and `later` behind the old file, and adds zeros at the end.
The zeros that stood before `news` are gone, so that the codes behind them have moved. -/
lemma meaning_iff {G : Option (List LatLon)} {news later : List LatLon}
    (hfar : (news ++ later).Pairwise Far)
    (hzero : G.isSome → ∀ p ∈ news ++ later, Far zeroPos p) {i : ℕ}
    (hi : i < (base G ++ news).length) :
    (G.getD [] ++ (news ++ later) ++ [zeroPos]).getD i zeroPos =
        (base G ++ news).getD i zeroPos ↔
      ∀ file, G = some file → i < file.length ∨
        i = file.length ∧ (G.getD [] ++ (news ++ later)).length = file.length := by
  cases G with
  | none =>
      have hi' : i < news.length := by simpa [base] using hi
      refine iff_of_true ?_ (by simp)
      simp [base, List.getD_eq_getElem?_getD, List.getElem?_append_left, hi']
  | some file =>
      have hz : ∀ p ∈ news ++ later, p ≠ zeroPos := fun p hp => (hzero rfl p hp).ne.symm
      simp only [Option.getD_some, Option.some.injEq, forall_eq', base] at hi ⊢
      rcases lt_trichotomy i file.length with hlt | rfl | hgt
      · -- a position of the old file stays
        refine iff_of_true ?_ (Or.inl hlt)
        simp [List.getD_eq_getElem?_getD, List.getElem?_append_left, hlt]
      · -- the zeros stay if nothing has been written behind the old file
        have hleft : (file ++ [zeroPos] ++ news).getD file.length zeroPos = zeroPos := by simp
        have hright := getD_grown file (news ++ later) 0
        rw [Nat.add_zero] at hright
        rw [hleft, hright]
        cases hrest : news ++ later with
        | nil => simp
        | cons p ps => simp [hz p (by simp [hrest])]
      · -- everything behind the zeros has moved by one
        obtain ⟨j, rfl⟩ : ∃ j, i = file.length + (j + 1) := ⟨i - file.length - 1, by omega⟩
        have hj : j < news.length := by simp at hi; omega
        have hj' : j < (news ++ later).length := by simp; omega
        have hleft : (file ++ [zeroPos] ++ news).getD (file.length + (j + 1)) zeroPos =
            (news ++ later)[j] := by
          rw [List.append_assoc, List.getD_eq_getElem?_getD,
            List.getElem?_append_right (by omega), Nat.add_sub_cancel_left]
          simp [List.getElem_append_left, hj]
        rw [hleft, getD_grown]
        refine iff_of_false ?_ (by omega)
        rcases lt_or_ge (j + 1) (news ++ later).length with hlt | hge
        · rw [List.getD_eq_getElem?_getD, List.getElem?_eq_getElem hlt, Option.getD_some]
          exact (List.pairwise_iff_getElem.mp hfar j (j + 1) hj' hlt (by omega)).ne.symm
        · rw [List.getD_eq_getElem?_getD, List.getElem?_eq_none hge, Option.getD_none]
          exact (hz _ (List.getElem_mem hj')).symm

end Gauge
