import Gauge.Base.Tally
import Gauge.Predict.Candidates
import Gauge.Recorder.State

/-!
The prediction, `getDestAndRate`.

The candidates of the four drawers are votes for their destinations, with the weight of the
drawer and the share of the start's trips; the result list is a tally of these votes with
room for three destinations (`mergeLoop_eq`, `getDestAndRate_spec`).

* `bestDestinations_iff`: when the three entries are the best destinations with their full
  scores.
-/

namespace Gauge

/-- `weights`. -/
def weights : List ℚ := [1 / 2, 3 / 10, 3 / 20, 1 / 20]

/-- `Float_Compare`. -/
def floatCompare (l r : GPSPosResRate) : Bool := l.rate > r.rate

/-- `mGpsRetLst.sort(Float_Compare)`, a stable sort. -/
def sortRates (l : List GPSPosResRate) : List GPSPosResRate :=
  l.insertionSort fun a b => floatCompare b a = false

/-- The value of `countOfStart` for a start. -/
def countOfStart (P : Platform) (m : StartCountMap) (c : ℤ) : ℤ :=
  if P.findNeNull m c then (m c).getD P.endSecond else 0

/-- What a candidate of weight `w` adds to the rate of its destination; nothing if the start
count is 0. -/
def rateShare (c : GPSPosRes) (n : ℤ) (w : ℚ) : ℚ :=
  if n ≠ 0 then (c.count : ℚ) / (n : ℚ) * w else 0

/-- The loop over `mGpsRetLst`: the list with the rate added to the entry of the code, `none`
if the iterator reaches the end. -/
def addRate (code : Int16) (r : ℚ) : List GPSPosResRate → Option (List GPSPosResRate)
  | [] => none
  | e :: es =>
      if e.code = code then some ({ e with rate := e.rate + r } :: es)
      else (addRate code r es).map (e :: ·)

/-- The two nested loops of `getDestAndRate` over the candidates, each with the weight of
its drawer, from the accesses and the result list so far. -/
def mergeLoop (P : Platform) (m : StartCountMap) :
    List Access → List GPSPosResRate → List (GPSPosRes × ℚ) → List Access × List GPSPosResRate
  | acc, lst, [] => (acc, sortRates lst)
  | acc, lst, (c, w) :: cs =>
      let code := c.codeS.toInt
      let acc := acc ++ P.lookupAccess m code
      let r := rateShare c (countOfStart P m code) w
      match addRate c.codeD r lst with
      | some lst' => mergeLoop P m acc lst' cs
      | none =>
          let lst' := lst ++ [⟨c.codeD, 0, 0, c.dateD, c.timeD, r⟩]
          if lst'.length = 3 then (acc, sortRates lst') else mergeLoop P m acc lst' cs

/-- The four arrays in the order of the categories. -/
def categories : List DrawerArray :=
  [.mBehavWeek, .mBehavHour, .mBehavDatePerMon, .mBehavDatePerYear]

/-- The candidate list `vecCate[i]` that the array `a` contributes. -/
def vecCate (P : Platform) (s : GaugeArrival) (a : DrawerArray) : List GPSPosRes :=
  getDestRateFromDraw P [] (s.drawers a) (drawerIdx s.mFirstGPS.toTripRecord a) s.mFirstGPS

/-- All candidates in the order of the loops, with their weights. -/
def candidates (P : Platform) (s : GaugeArrival) : List (GPSPosRes × ℚ) :=
  (categories.zip weights).flatMap fun aw => (vecCate P s aw.1).map fun c => (c, aw.2)

/-- `GaugeArrival::getDestAndRate`. -/
def getDestAndRate (P : Platform) (s : GaugeArrival) : GaugeArrival :=
  let acc := s.accesses ++
    categories.map fun a => .drawer a (drawerIdx s.mFirstGPS.toTripRecord a)
  let res := mergeLoop P s.mStCntMap acc [] (candidates P s)
  { s with accesses := res.1, mGpsRetLst := res.2 }

/-! ### The result list is a tally -/

/-- The destination and the rate of the entries of a result list. -/
def ratePairs (l : List GPSPosResRate) : List (Int16 × ℚ) := l.map fun e => (e.code, e.rate)

/-- A candidate as a vote for its destination. -/
def vote (P : Platform) (m : StartCountMap) (cw : GPSPosRes × ℚ) : Int16 × ℚ :=
  (cw.1.codeD, rateShare cw.1 (countOfStart P m cw.1.codeS.toInt) cw.2)

@[simp] lemma keys_ratePairs (l : List GPSPosResRate) :
    Tally.keys (ratePairs l) = l.map (·.code) := by
  simp [Tally.keys, ratePairs]

@[simp] lemma length_ratePairs (l : List GPSPosResRate) : (ratePairs l).length = l.length :=
  List.length_map _

/-- The loop over `mGpsRetLst` fails exactly for a new destination. -/
lemma addRate_eq_none {code : Int16} {r : ℚ} {l : List GPSPosResRate} :
    addRate code r l = none ↔ code ∉ l.map (·.code) := by
  induction l with
  | nil => simp [addRate]
  | cons e es ih =>
      rw [addRate]
      split
      · rename_i h
        simp [h]
      · rename_i h
        simp [ih, Ne.symm h]

/-- Otherwise it casts the vote. -/
lemma ratePairs_of_addRate {code : Int16} {r : ℚ} {l l' : List GPSPosResRate}
    (h : addRate code r l = some l') : ratePairs l' = Tally.cast (code, r) (ratePairs l) := by
  induction l generalizing l' with
  | nil => simp [addRate] at h
  | cons e es ih =>
      rw [addRate] at h
      split at h
      · rename_i hc
        obtain rfl := Option.some_inj.mp h
        simp [ratePairs, Tally.cast, hc]
      · rename_i hc
        obtain ⟨es', hes', rfl⟩ := Option.map_eq_some_iff.mp h
        have := ih hes'
        simp only [ratePairs, List.map_cons, Tally.cast, if_neg hc] at this ⊢
        rw [this]

/-- Casting a vote for a new key appends it. -/
lemma ratePairs_append_new {l : List GPSPosResRate} {e : GPSPosResRate}
    (h : e.code ∉ l.map (·.code)) :
    ratePairs (l ++ [e]) = Tally.cast (e.code, e.rate) (ratePairs l) := by
  induction l with
  | nil => rfl
  | cons f fs ih =>
      rw [List.map_cons, List.mem_cons, not_or] at h
      have := ih h.2
      simp only [ratePairs, List.cons_append, List.map_cons, Tally.cast] at this ⊢
      rw [if_neg (Ne.symm h.1), this]

/-- **The loops tally the votes**, with room for three destinations, and sort. -/
lemma mergeLoop_eq (P : Platform) (m : StartCountMap) (acc : List Access)
    (l : List GPSPosResRate) (cs : List (GPSPosRes × ℚ)) :
    ∃ l', (mergeLoop P m acc l cs).2 = sortRates l' ∧
      ratePairs l' = Tally.tally 3 (ratePairs l) (cs.map (vote P m)) := by
  induction cs generalizing acc l with
  | nil => exact ⟨l, rfl, rfl⟩
  | cons cw cs ih =>
      obtain ⟨c, w⟩ := cw
      simp only [mergeLoop, List.map_cons, Tally.tally]
      cases hadd : addRate c.codeD (rateShare c (countOfStart P m c.codeS.toInt) w) l with
      | some l₁ =>
          have hmem : c.codeD ∈ l.map (·.code) := by
            by_contra hnot
            rw [addRate_eq_none.mpr hnot] at hadd
            exact absurd hadd (by simp)
          obtain ⟨l', h1, h2⟩ := ih (acc ++ P.lookupAccess m c.codeS.toInt) l₁
          refine ⟨l', h1, ?_⟩
          rw [if_neg (fun h => h.1 (by simpa [vote] using hmem)), h2, ratePairs_of_addRate hadd]
          rfl
      | none =>
          have hnot := addRate_eq_none.mp hadd
          set e : GPSPosResRate :=
            ⟨c.codeD, 0, 0, c.dateD, c.timeD, rateShare c (countOfStart P m c.codeS.toInt) w⟩
            with he
          have hcast : Tally.cast (vote P m (c, w)) (ratePairs l) = ratePairs (l ++ [e]) :=
            (ratePairs_append_new (e := e) hnot).symm
          rw [hcast, length_ratePairs]
          have hkey : (vote P m (c, w)).1 ∉ Tally.keys (ratePairs l) := by simpa [vote] using hnot
          by_cases hfull : (l ++ [e]).length = 3
          · rw [if_pos (And.intro hkey hfull), if_pos hfull]
            exact ⟨l ++ [e], rfl, rfl⟩
          · rw [if_neg (fun h => hfull (And.right h)), if_neg hfull]
            exact ih _ (l ++ [e])

/-- The accesses do not influence the result list. -/
lemma mergeLoop_snd (P : Platform) (m : StartCountMap) (acc acc' : List Access)
    (l : List GPSPosResRate) (cs : List (GPSPosRes × ℚ)) :
    (mergeLoop P m acc l cs).2 = (mergeLoop P m acc' l cs).2 := by
  induction cs generalizing acc acc' l with
  | nil => rfl
  | cons cw cs ih =>
      obtain ⟨c, w⟩ := cw
      simp only [mergeLoop]
      cases addRate c.codeD (rateShare c (countOfStart P m c.codeS.toInt) w) l with
      | some l₁ => exact ih _ _ l₁
      | none =>
          dsimp only
          split
          · rfl
          · exact ih _ _ _

/-- Predicting again gives the same result list. -/
lemma mGpsRetLst_getDestAndRate (P : Platform) (s : GaugeArrival) :
    (getDestAndRate P (getDestAndRate P s)).mGpsRetLst = (getDestAndRate P s).mGpsRetLst :=
  mergeLoop_snd P s.mStCntMap _ _ [] (candidates P s)

/-! ### Sorting -/

instance : IsTrans GPSPosResRate fun a b => floatCompare b a = false :=
  ⟨fun a b c hab hbc => by
    simp only [floatCompare, decide_eq_false_iff_not, gt_iff_lt, not_lt] at hab hbc ⊢
    exact hbc.trans hab⟩

instance : Std.Total fun a b : GPSPosResRate => floatCompare b a = false :=
  ⟨fun a b => by
    simp only [floatCompare, decide_eq_false_iff_not, gt_iff_lt, not_lt]
    exact le_total b.rate a.rate⟩

lemma sortRates_perm (l : List GPSPosResRate) : (sortRates l).Perm l :=
  List.perm_insertionSort _ l

/-- The sorted list has its rates in non-increasing order. -/
lemma sortRates_pairwise (l : List GPSPosResRate) :
    (sortRates l).Pairwise fun a b => b.rate ≤ a.rate := by
  refine (List.pairwise_insertionSort (fun a b => floatCompare b a = false) l).imp ?_
  intro a b h
  simpa [floatCompare] using h

/-- **The result of a prediction**: the tally of the candidates' votes, sorted. -/
theorem getDestAndRate_spec (P : Platform) (s : GaugeArrival) :
    (ratePairs (getDestAndRate P s).mGpsRetLst).Perm
        (Tally.tally 3 [] ((candidates P s).map (vote P s.mStCntMap))) ∧
      (getDestAndRate P s).mGpsRetLst.Pairwise fun a b => b.rate ≤ a.rate := by
  obtain ⟨l, hl, hpairs⟩ := mergeLoop_eq P s.mStCntMap
    (s.accesses ++ categories.map fun a => .drawer a (drawerIdx s.mFirstGPS.toTripRecord a)) []
    (candidates P s)
  have hres : (getDestAndRate P s).mGpsRetLst = sortRates l := hl
  rw [hres]
  refine ⟨?_, sortRates_pairwise l⟩
  rw [show ([] : List (Int16 × ℚ)) = ratePairs [] from rfl, ← hpairs]
  exact (sortRates_perm l).map _

/-! ### The best destinations -/

/-- The score of a destination among candidates: the sum of `count / n * weight`. -/
def score (cs : List (GPSPosRes × ℚ)) (n : ℤ) (d : Int16) : ℚ :=
  ((cs.filter fun cw => cw.1.codeD = d).map fun cw => (cw.1.count : ℚ) / n * cw.2).sum

/-- The destinations of the candidates. -/
def destinations (cs : List (GPSPosRes × ℚ)) : List Int16 := cs.map fun cw => cw.1.codeD

/-- A result list holds the three best destinations, or all of them if there are fewer, with
their full scores and the best ones first. -/
structure BestDestinations (cs : List (GPSPosRes × ℚ)) (n : ℤ) (l : List GPSPosResRate) :
    Prop where
  length_eq : l.length = min 3 (destinations cs).toFinset.card
  nodup : (l.map (·.code)).Nodup
  sorted : l.Pairwise fun a b => b.rate ≤ a.rate
  mem_destinations : ∀ e ∈ l, e.code ∈ destinations cs
  rate_eq : ∀ e ∈ l, e.rate = score cs n e.code
  best : ∀ d ∈ destinations cs, d ∉ l.map (·.code) → ∀ e ∈ l, score cs n d ≤ score cs n e.code

/-- Every destination of the result list is one of the candidates. -/
lemma code_mem_destinations {P : Platform} {s : GaugeArrival} {e : GPSPosResRate}
    (he : e ∈ (getDestAndRate P s).mGpsRetLst) : e.code ∈ destinations (candidates P s) := by
  have hkey : e.code ∈ Tally.keys (Tally.tally 3 [] ((candidates P s).map (vote P s.mStCntMap))) :=
    (Tally.keys_perm (getDestAndRate_spec P s).1).subset
      (by rw [keys_ratePairs]; exact List.mem_map_of_mem he)
  have hvote := Tally.mem_keys_of_mem_keys_tally hkey
  rw [Tally.keys, List.map_map] at hvote
  exact hvote

/-- A candidate as a vote, for a start with `n` trips. -/
def voteOf (n : ℤ) (cw : GPSPosRes × ℚ) : Int16 × ℚ :=
  (cw.1.codeD, (cw.1.count : ℚ) / n * cw.2)

lemma total_voteOf (cs : List (GPSPosRes × ℚ)) (n : ℤ) (d : Int16) :
    Tally.total (cs.map (voteOf n)) d = score cs n d := by
  rw [Tally.total, List.filter_map, List.map_map]
  rfl

lemma keys_voteOf (cs : List (GPSPosRes × ℚ)) (n : ℤ) :
    Tally.keys (cs.map (voteOf n)) = destinations cs := by
  rw [Tally.keys, List.map_map]
  rfl

/-- Every candidate has the start of the query. -/
lemma codeS_of_mem_candidates {P : Platform} {s : GaugeArrival} {cw : GPSPosRes × ℚ}
    (h : cw ∈ candidates P s) : cw.1.codeS = s.mFirstGPS.codeS := by
  obtain ⟨aw, -, h⟩ := List.mem_flatMap.mp h
  obtain ⟨c, hc, rfl⟩ := List.mem_map.mp h
  obtain ⟨e, -, hS, rfl⟩ := exists_of_mem_getDestRateFromDraw P hc
  exact hS

/-- With a start count that is not 0 the votes are the ones of the score. -/
lemma map_vote_candidates {P : Platform} {s : GaugeArrival} {n : ℤ}
    (hn : s.mStCntMap s.mFirstGPS.codeS.toInt = some n) (hpos : n ≠ 0) :
    (candidates P s).map (vote P s.mStCntMap) = (candidates P s).map (voteOf n) := by
  refine List.map_congr_left fun cw hcw => ?_
  rw [vote, voteOf, codeS_of_mem_candidates hcw, countOfStart, Platform.findNeNull, hn]
  simp [rateShare, hpos]

/-- Drawers with `week` for every day of the week and `hour` for every hour. -/
def drawersOf (week hour : List BehaviorGPS) : DrawerArray → ℤ → List BehaviorGPS
  | .mBehavWeek, _ => week
  | .mBehavHour, _ => hour
  | .mBehavDatePerMon, _ => []
  | .mBehavDatePerYear, _ => []

/-- **The best destinations are returned** exactly if the candidates that come after the one
that brings the third destination make no difference. -/
theorem bestDestinations_iff (P : Platform) (s : GaugeArrival) (n : ℤ)
    (hn : s.mStCntMap s.mFirstGPS.codeS.toInt = some n) (hpos : 0 < n) :
    BestDestinations (candidates P s) n (getDestAndRate P s).mGpsRetLst ↔
      Tally.StopHarmless 3 ((candidates P s).map (voteOf n)) := by
  obtain ⟨hperm, hsorted⟩ := getDestAndRate_spec P s
  rw [map_vote_candidates hn hpos.ne'] at hperm
  set cs := candidates P s
  set l := (getDestAndRate P s).mGpsRetLst
  set vs := cs.map (voteOf n) with hvs
  have hkeys : (l.map (·.code)).Perm (Tally.keys (Tally.tally 3 [] vs)) := by
    rw [← keys_ratePairs]
    exact Tally.keys_perm hperm
  have hmem : ∀ k, k ∈ l.map (·.code) ↔ k ∈ Tally.keys (Tally.tally 3 [] vs) := fun k =>
    hkeys.mem_iff
  have htally : ∀ q : Int16 × ℚ → Prop,
      (∀ e ∈ Tally.tally 3 [] vs, q e) ↔ ∀ e ∈ l, q (e.code, e.rate) := by
    intro q
    have h : (∀ e ∈ Tally.tally 3 [] vs, q e) ↔ ∀ e ∈ ratePairs l, q e :=
      forall_congr' fun e => by rw [hperm.mem_iff]
    rw [h, ratePairs, List.forall_mem_map]
  have hdest : Tally.keys vs = destinations cs := keys_voteOf cs n
  have htotal : ∀ d, Tally.total vs d = score cs n d := total_voteOf cs n
  rw [← Tally.tally_exact_iff, htally]
  constructor
  · intro h
    refine ⟨fun e he => by rw [htotal]; exact h.rate_eq e he, fun k hk hnot => ?_⟩
    rw [htally fun e => Tally.total vs k ≤ Tally.total vs e.1]
    intro e he
    rw [htotal, htotal]
    exact h.best k (hdest ▸ hk) (fun h' => hnot ((hmem k).mp h')) e he
  · rintro ⟨hfull, hbest⟩
    refine ⟨?_, ?_, hsorted, ?_, fun e he => by rw [← htotal]; exact hfull e he, ?_⟩
    · rw [← length_ratePairs, hperm.length_eq, Tally.tally_length (by norm_num), hdest]
    · rw [hkeys.nodup_iff, Tally.tally_eq_book]
      exact Tally.nodup_keys_book _
    · intro e he
      exact code_mem_destinations he
    · intro d hd hnot e he
      have h := hbest d (hdest.symm ▸ hd) fun h' => hnot ((hmem d).mpr h')
      rw [htally fun e => Tally.total vs d ≤ Tally.total vs e.1] at h
      rw [← htotal, ← htotal]
      exact h e he

theorem bestDestinations_iff_two :
    BestDestinations
      (candidates .keyed (morningInstance (fun _ => some 3)
        (drawersOf [(morningTrip 0 1).single, (morningTrip 0 2).single]
          [(morningTrip 0 1).single])))
      3
      (getDestAndRate .keyed (morningInstance (fun _ => some 3)
        (drawersOf [(morningTrip 0 1).single, (morningTrip 0 2).single]
          [(morningTrip 0 1).single]))).mGpsRetLst :=
  (bestDestinations_iff .keyed _ 3 rfl (by norm_num)).mpr
    (Tally.stopHarmless_of_unread_eq_nil (by decide +kernel))

/-- A fourth candidate for the first of three destinations is not added. -/
theorem not_forall_bestDestinations :
    ¬ ∀ (P : Platform) (s : GaugeArrival) (n : ℤ),
      s.mStCntMap s.mFirstGPS.codeS.toInt = some n → 0 < n →
        BestDestinations (candidates P s) n (getDestAndRate P s).mGpsRetLst := by
  intro h
  have hrate := (h .keyed (morningInstance (fun _ => some 4)
    (drawersOf [(morningTrip 0 1).single, (morningTrip 0 2).single, (morningTrip 0 3).single]
      [(morningTrip 0 1).single])) 4 rfl (by norm_num)).rate_eq
  revert hrate
  decide +kernel

end Gauge
