import Gauge.Base.Clusters
import Gauge.History.Record

/-!
The shape of a drawer after any sequence of calls of `putInDrawer`.

* `putInDrawer_conserves`: the counts are the numbers of calls, and no other drawer changes.
* `filter_fill`: what the entries of one start are depends on the calls of that start alone.
* `frontLoaded_fill`: among them only the first one ever gets a count above one.
* `clustered_iff`: when the entries of every start stand together.  An entry for a further
  destination of a start goes to the end of the drawer, wherever the others are.
-/

namespace Gauge

/-! ### Counts -/

/-- **A drawer loses and invents no trips**: for each route the counts add up to the number of
calls, no count is below one, and the other drawers stay as they are. -/
theorem putInDrawer_conserves (vecDraw : ℤ → List BehaviorGPS) (idx : ℤ)
    (hempty : vecDraw idx = []) (bs : List BehaviorGPS) :
    (∀ r, sumCount (fun r' => r' = r)
        (bs.foldl (fun vd b => putInDrawer vd idx b) vecDraw idx) =
          bs.countP fun b => b.route = r) ∧
      (∀ e ∈ bs.foldl (fun vd b => putInDrawer vd idx b) vecDraw idx, 1 ≤ e.count) ∧
      ∀ i ≠ idx, bs.foldl (fun vd b => putInDrawer vd idx b) vecDraw i = vecDraw i := by
  rw [putInDrawer_foldl vecDraw hempty, Function.update_self]
  exact ⟨fun r => sumCount_fill _ bs, one_le_count_fill bs, fun i hi =>
    Function.update_of_ne hi _ _⟩

theorem putInDrawer_conserves_three_trips :
    sumCount (fun r => r = (1, 2)) ([morningTrip 1 2, morningTrip 1 3, morningTrip 1 2].foldl
      (fun vd b => putInDrawer vd 0 b) (fun _ => []) 0) = 2 :=
  (putInDrawer_conserves (fun _ => []) 0 rfl _).1 (1, 2)

/-! ### One start -/

lemma firstDest_filter (v : List BehaviorGPS) (s : Int16) :
    firstDest (v.filter fun e => e.codeS = s) s = firstDest v s := by
  simp [firstDest, List.find?_filter]

/-- A call for another start leaves the entries of a start alone. -/
lemma filter_put_of_ne {b : BehaviorGPS} {s : Int16} (h : b.codeS ≠ s) (v : List BehaviorGPS) :
    (put b v).filter (fun e => e.codeS = s) = v.filter fun e => e.codeS = s := by
  rcases put_cases b v with ⟨-, front, e, back, rfl, -, hroute, hput⟩ | ⟨-, hput⟩
  · have he : e.codeS ≠ s := by rwa [show e.codeS = b.codeS from congrArg Prod.fst hroute]
    rw [hput]
    simp [he]
  · have hb : b.single.codeS ≠ s := h
    rw [hput]
    simp [hb]

/-- A call for a start sees its entries as if they were alone. -/
lemma filter_put_self (b : BehaviorGPS) (v : List BehaviorGPS) :
    (put b v).filter (fun e => e.codeS = b.codeS) =
      put b (v.filter fun e => e.codeS = b.codeS) := by
  rcases put_cases b v with ⟨-, front, e, back, rfl, hfront, hroute, hput⟩ | ⟨hfirst, hput⟩
  · have hS : e.codeS = b.codeS := congrArg Prod.fst hroute
    have hD : e.codeD = b.codeD := congrArg Prod.snd hroute
    have hnil : front.filter (fun e => e.codeS = b.codeS) = [] := by
      simpa [List.filter_eq_nil_iff] using hfront
    rw [hput, List.filter_append, List.filter_append, hnil]
    simp [hS, hD, put]
  · have hnew : put b (v.filter fun e => e.codeS = b.codeS) =
        (v.filter fun e => e.codeS = b.codeS) ++ [b.single] := by
      rcases put_cases b (v.filter fun e => e.codeS = b.codeS) with ⟨h, -⟩ | ⟨-, h⟩
      · rw [firstDest_filter] at h
        exact absurd h hfirst
      · exact h
    have hb : b.single.codeS = b.codeS := rfl
    rw [hput, hnew, List.filter_append]
    simp [hb]

/-- **The entries of a start** are those that the calls of this start leave alone. -/
theorem filter_fill (bs : List BehaviorGPS) (s : Int16) :
    (fill bs).filter (fun e => e.codeS = s) = fill (bs.filter fun b => b.codeS = s) := by
  induction bs using List.reverseRecOn with
  | nil => rfl
  | append_singleton bs b ih =>
      rw [fill_concat, List.filter_append]
      rcases eq_or_ne b.codeS s with rfl | h
      · rw [filter_put_self, ih, List.filter_cons_of_pos (by simp), List.filter_nil, fill_concat]
      · rw [filter_put_of_ne h, ih, List.filter_cons_of_neg (by simpa using h), List.filter_nil,
          List.append_nil]

/-- Only the first entry has a count above one. -/
def FrontLoaded : List BehaviorGPS → Prop
  | [] => True
  | e :: es => 1 ≤ e.count ∧ ∀ f ∈ es, f.count = 1

lemma frontLoaded_put {b : BehaviorGPS} {v : List BehaviorGPS} (hS : ∀ e ∈ v, e.codeS = b.codeS)
    (hv : FrontLoaded v) : FrontLoaded (put b v) := by
  cases v with
  | nil => exact ⟨le_rfl, by simp⟩
  | cons e es =>
      rw [put, if_pos (hS e List.mem_cons_self)]
      split
      · exact ⟨by show 1 ≤ e.count + 1; linarith [hv.1], hv.2⟩
      · refine ⟨hv.1, fun f hf => ?_⟩
        rcases List.mem_append.mp hf with hf | hf
        · exact hv.2 f hf
        · rw [List.mem_singleton.mp hf, count_single]

lemma frontLoaded_fill {bs : List BehaviorGPS} {s : Int16} (hS : ∀ b ∈ bs, b.codeS = s) :
    FrontLoaded (fill bs) := by
  induction bs using List.reverseRecOn with
  | nil => trivial
  | append_singleton bs b ih =>
      have hbs : ∀ c ∈ bs, c.codeS = s := fun c hc => hS c (List.mem_append_left _ hc)
      rw [fill_concat]
      refine frontLoaded_put (fun e he => ?_) (ih hbs)
      obtain ⟨c, hc, hce⟩ := exists_route_of_mem_fill he
      calc e.codeS = c.codeS := (congrArg Prod.fst hce).symm
        _ = s := hbs c hc
        _ = b.codeS := (hS b (by simp)).symm

/-- **Big counts stay in front** among the entries of a start. -/
theorem pairwise_count_fill (bs : List BehaviorGPS) (s : Int16) :
    ((fill bs).filter fun e => e.codeS = s).Pairwise fun e f => f.count ≤ e.count := by
  rw [filter_fill]
  have h : FrontLoaded (fill (bs.filter fun b => b.codeS = s)) :=
    frontLoaded_fill fun b hb => of_decide_eq_true (List.mem_filter.mp hb).2
  cases hv : fill (bs.filter fun b => b.codeS = s) with
  | nil => exact List.Pairwise.nil
  | cons e es =>
      rw [hv] at h
      refine List.pairwise_cons.mpr ⟨fun f hf => (h.2 f hf).le.trans h.1, ?_⟩
      exact List.pairwise_of_forall_mem_list fun f hf g hg => by rw [h.2 f hf, h.2 g hg]

/-! ### Clusters -/

/-- The starts of the calls that add an entry, behind the calls `seen`: the first call of a
start, and each call with another destination than that one. -/
def openingsFrom (seen : List BehaviorGPS) : List BehaviorGPS → List Int16
  | [] => []
  | b :: bs =>
      if firstDest seen b.codeS = some b.codeD then openingsFrom (seen ++ [b]) bs
      else b.codeS :: openingsFrom (seen ++ [b]) bs

def openings (bs : List BehaviorGPS) : List Int16 := openingsFrom [] bs

lemma openingsFrom_concat (seen bs : List BehaviorGPS) (b : BehaviorGPS) :
    openingsFrom seen (bs ++ [b]) = openingsFrom seen bs ++
      if firstDest (seen ++ bs) b.codeS = some b.codeD then [] else [b.codeS] := by
  induction bs generalizing seen with
  | nil => simp [openingsFrom]
  | cons c bs ih =>
      rw [List.cons_append, openingsFrom, openingsFrom, ih, List.append_assoc,
        List.singleton_append]
      split <;> simp

lemma openings_concat (bs : List BehaviorGPS) (b : BehaviorGPS) :
    openings (bs ++ [b]) = openings bs ++
      if firstDest bs b.codeS = some b.codeD then [] else [b.codeS] :=
  openingsFrom_concat [] bs b

/-- A call adds its entry at the end, if it adds one. -/
lemma map_codeS_put (b : BehaviorGPS) (v : List BehaviorGPS) :
    (put b v).map (·.codeS) = v.map (·.codeS) ++
      if firstDest v b.codeS = some b.codeD then [] else [b.codeS] := by
  have hroutes := congrArg (List.map Prod.fst) (map_route_put b v)
  rw [List.map_append, List.map_map, List.map_map] at hroutes
  refine hroutes.trans (congrArg _ ?_)
  split <;> rfl

lemma map_codeS_fill (bs : List BehaviorGPS) : (fill bs).map (·.codeS) = openings bs := by
  induction bs using List.reverseRecOn with
  | nil => rfl
  | append_singleton bs b ih =>
      rw [fill_concat, map_codeS_put, ih, firstDest_fill, openings_concat]

lemma mem_openings_iff {bs : List BehaviorGPS} {s : Int16} :
    s ∈ openings bs ↔ (firstDest bs s).isSome := by
  rw [← map_codeS_fill, ← firstDest_fill, firstDest, Option.isSome_map, List.find?_isSome,
    List.mem_map]
  simp

/-- A call that has another destination than the first one of its start comes only while this
start is the last one that an entry was added for. -/
def DetoursInPlace (bs : List BehaviorGPS) : Prop :=
  ∀ n (hn : n < bs.length), firstDest (bs.take n) bs[n].codeS ≠ none →
    firstDest (bs.take n) bs[n].codeS ≠ some bs[n].codeD →
      (openings (bs.take n)).getLast? = some bs[n].codeS

instance (bs : List BehaviorGPS) : Decidable (DetoursInPlace bs) :=
  inferInstanceAs (Decidable (∀ n (hn : n < bs.length), firstDest (bs.take n) bs[n].codeS ≠ none →
    firstDest (bs.take n) bs[n].codeS ≠ some bs[n].codeD →
      (openings (bs.take n)).getLast? = some bs[n].codeS))

lemma detoursInPlace_concat_iff (bs : List BehaviorGPS) (b : BehaviorGPS) :
    DetoursInPlace (bs ++ [b]) ↔ DetoursInPlace bs ∧
      (firstDest bs b.codeS ≠ none → firstDest bs b.codeS ≠ some b.codeD →
        (openings bs).getLast? = some b.codeS) := by
  have hold : ∀ n (hn : n < bs.length), (bs ++ [b]).take n = bs.take n := fun n hn =>
    List.take_append_of_le_length hn.le
  constructor
  · refine fun h => ⟨fun n hn => ?_, ?_⟩
    · have hn' := h n (by simp; omega)
      rwa [hold n hn, List.getElem_append_left hn] at hn'
    · have hlast := h bs.length (by simp)
      rwa [List.take_left, List.getElem_concat_length rfl] at hlast
  · rintro ⟨h, hlast⟩ n hn
    rw [List.length_append, List.length_singleton] at hn
    rcases Nat.lt_or_ge n bs.length with hlt | hge
    · rw [hold n hlt, List.getElem_append_left hlt]
      exact h n hlt
    · obtain rfl : n = bs.length := by omega
      rw [List.take_left, List.getElem_concat_length rfl]
      exact hlast

lemma clustered_openings_iff (bs : List BehaviorGPS) :
    Clusters.Clustered (openings bs) ↔ DetoursInPlace bs := by
  induction bs using List.reverseRecOn with
  | nil => exact iff_of_true Clusters.clustered_nil fun n hn => absurd hn (by simp)
  | append_singleton bs b ih =>
      rw [openings_concat, detoursInPlace_concat_iff, ← ih]
      cases hfirst : firstDest bs b.codeS with
      | none =>
          have hnew : b.codeS ∉ openings bs := by simp [mem_openings_iff, hfirst]
          simp [Clusters.clustered_concat_iff, hnew]
      | some d =>
          have hknown : b.codeS ∈ openings bs := by simp [mem_openings_iff, hfirst]
          rcases eq_or_ne d b.codeD with hd | hd <;> simp [Clusters.clustered_concat_iff, hknown, hd]

/-- **One cluster for each start**, exactly if no call gives a further destination to a start
after an entry has been added for another one. -/
theorem clustered_iff (vecDraw : ℤ → List BehaviorGPS) (idx : ℤ) (hempty : vecDraw idx = [])
    (bs : List BehaviorGPS) :
    Clusters.Clustered ((bs.foldl (fun vd b => putInDrawer vd idx b) vecDraw idx).map (·.codeS)) ↔
      DetoursInPlace bs := by
  rw [putInDrawer_foldl vecDraw hempty, Function.update_self, map_codeS_fill,
    clustered_openings_iff]

theorem clustered_iff_blocks :
    Clusters.Clustered (([morningTrip 1 2, morningTrip 1 3, morningTrip 2 1].foldl
      (fun vd b => putInDrawer vd 0 b) (fun _ => []) 0).map (·.codeS)) :=
  (clustered_iff (fun _ => []) 0 rfl _).mpr (by decide)

/-- The second destination of the start 1 comes after the start 2. -/
theorem not_forall_clustered :
    ¬ ∀ (vecDraw : ℤ → List BehaviorGPS) (idx : ℤ) (bs : List BehaviorGPS), vecDraw idx = [] →
      Clusters.Clustered
        ((bs.foldl (fun vd b => putInDrawer vd idx b) vecDraw idx).map (·.codeS)) := by
  intro h
  have hcl := h (fun _ => []) 0 [morningTrip 1 2, morningTrip 2 1, morningTrip 1 3] rfl
  revert hcl
  decide +kernel

end Gauge
