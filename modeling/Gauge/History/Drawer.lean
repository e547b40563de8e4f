import Mathlib.Tactic

/-!
One drawer of the trip statistics, and `putInDrawer`.

A drawer is a vector of trips with counts.  `putInVec` is the body of `putInDrawer` as the
source has it: the search for an entry of the same start, the increment with the backward
scan that is to keep big counts in front, and the three ways to append.  The scan starts
right before the first entry of the start, so it never moves anything, and an entry that
is not the first of its start is never found; `put` is what remains, and `putInVec_eq_put`
says so.

* `put_cases`: what a call can do; the lemmas about single calls follow from it.
* `sumCount_put`: a call adds one to the count of its pair, and to no other.
* `firstDest_put`, `entries_put`: the first entry of a start never changes its destination, and
  every call with another destination adds an entry of its own.
* `entries_fill`: how many entries a pair has after any sequence of calls.
-/

namespace Gauge

/-- The part of `Behavior_GPS` that is written to the behaviour file, its first
`sizeof(Behavior_GPS)-4` bytes. -/
structure TripRecord where
  codeS : Int16
  codeD : Int16
  date : ℤ
  time : ℤ
  dateD : ℤ
  timeD : ℤ
  deriving DecidableEq

/-- `Behavior_GPS`. -/
structure BehaviorGPS extends TripRecord where
  count : ℤ
  deriving DecidableEq

/-- The pair of position codes of a trip. -/
def TripRecord.route (b : TripRecord) : Int16 × Int16 := (b.codeS, b.codeD)

/-- The assignment `behav.count = 1`, before a trip is inserted. -/
def BehaviorGPS.single (behav : BehaviorGPS) : BehaviorGPS := { behav with count := 1 }

@[simp] lemma route_single (b : BehaviorGPS) : b.single.route = b.route := rfl

@[simp] lemma count_single (b : BehaviorGPS) : b.single.count = 1 := rfl

/-! ### `putInDrawer` -/

/-- The scan `while (k > 0 && v[k].code_s == e.code_s && v[k].count <= e.count) k--`. -/
def scanBack (v : List BehaviorGPS) (e : BehaviorGPS) : ℕ → ℕ
  | 0 => 0
  | k + 1 =>
      if v[k + 1]?.any fun f => f.codeS = e.codeS ∧ f.count ≤ e.count then scanBack v e k
      else k + 1

/-- The move of the incremented entry `e` at `j` behind the place where the scan stops.
For `j = 0` the scan has nowhere to go. -/
def stayOnFront (v : List BehaviorGPS) (e : BehaviorGPS) : ℕ → List BehaviorGPS
  | 0 => v
  | j + 1 =>
      let k := scanBack v e j
      if k ≠ j then (v.eraseIdx (j + 1)).insertIdx (k + 1) e else v

/-- The body of `putInDrawer`, on the drawer that it addresses. -/
def putInVec (v : List BehaviorGPS) (behav : BehaviorGPS) : List BehaviorGPS :=
  let heapLen := v.length
  if heapLen = 0 then v ++ [behav.single]
  else
    -- the loop runs up to the first entry of the same start and breaks there
    let j := v.findIdx fun e => e.codeS = behav.codeS
    if h : j < heapLen then
      if v[j].codeD = behav.codeD then
        let e := { v[j] with count := v[j].count + 1 }
        stayOnFront (v.set j e) e j
      else v.insertIdx heapLen behav.single
    else v ++ [behav.single]

/-- `GaugeArrival::putInDrawer`, on an array of drawers that is addressed with a C `int`.
Whether the index lies inside the array is the business of its callers. -/
def putInDrawer (vecDraw : ℤ → List BehaviorGPS) (idx : ℤ) (behav : BehaviorGPS) :
    ℤ → List BehaviorGPS :=
  Function.update vecDraw idx (putInVec (vecDraw idx) behav)

/-! ### What a call comes to -/

/-- What `putInDrawer` does to its drawer: the first entry of the start is incremented if it
has the destination, every other call appends. -/
def put (behav : BehaviorGPS) : List BehaviorGPS → List BehaviorGPS
  | [] => [behav.single]
  | e :: es =>
      if e.codeS = behav.codeS then
        if e.codeD = behav.codeD then { e with count := e.count + 1 } :: es
        else e :: es ++ [behav.single]
      else e :: put behav es

/-- The scan stops at once at an entry of another start. -/
lemma scanBack_eq_self {v : List BehaviorGPS} {e : BehaviorGPS} {k : ℕ}
    (h : ∀ f ∈ v[k]?, f.codeS ≠ e.codeS) : scanBack v e k = k := by
  cases k with
  | zero => rfl
  | succ k =>
      rw [scanBack, if_neg]
      cases hf : v[k + 1]? with
      | none => simp
      | some f => simp [h f (by rw [hf]; rfl)]

/-- The entry before the first one of its start never has that start: nothing moves. -/
lemma stayOnFront_eq_self {v : List BehaviorGPS} {e : BehaviorGPS} {j : ℕ}
    (h : ∀ i < j, ∀ f ∈ v[i]?, f.codeS ≠ e.codeS) : stayOnFront v e j = v := by
  cases j with
  | zero => rfl
  | succ j =>
      rw [stayOnFront, scanBack_eq_self (h j (Nat.lt_succ_self j))]
      simp

lemma put_eq_append {v : List BehaviorGPS} {b : BehaviorGPS} (h : ∀ e ∈ v, e.codeS ≠ b.codeS) :
    put b v = v ++ [b.single] := by
  induction v with
  | nil => rfl
  | cons e es ih =>
      rw [put, if_neg (h e List.mem_cons_self), ih fun f hf => h f (List.mem_cons_of_mem e hf),
        List.cons_append]

/-- `put` at the first entry of the start. -/
lemma put_eq_at {v : List BehaviorGPS} {b : BehaviorGPS} {j : ℕ} (hj : j < v.length)
    (hS : v[j].codeS = b.codeS) (hfirst : ∀ i (hi : i < j), v[i].codeS ≠ b.codeS) :
    put b v = if v[j].codeD = b.codeD then v.set j { v[j] with count := v[j].count + 1 }
      else v ++ [b.single] := by
  induction v generalizing j with
  | nil => simp at hj
  | cons e es ih =>
      cases j with
      | zero =>
          have h0 : e.codeS = b.codeS := hS
          rw [put, if_pos h0]
          rfl
      | succ j =>
          have h0 : e.codeS ≠ b.codeS := hfirst 0 (Nat.succ_pos j)
          rw [put, if_neg h0, ih (j := j) (by simpa using hj) (by simpa using hS)
            fun i hi => by simpa using hfirst (i + 1) (by omega)]
          simp only [List.getElem_cons_succ, List.set_cons_succ]
          split <;> rfl

/-- **`putInDrawer` reduced**: the backward scan and the choice among the insertions leave
the function `put`. -/
theorem putInVec_eq_put (v : List BehaviorGPS) (b : BehaviorGPS) : putInVec v b = put b v := by
  rw [putInVec]
  by_cases hnil : v.length = 0
  · rw [if_pos hnil, List.length_eq_zero_iff.mp hnil]
    rfl
  rw [if_neg hnil]
  set j := v.findIdx fun e => e.codeS = b.codeS with hj
  by_cases hlt : j < v.length
  · have hS : v[j].codeS = b.codeS := by
      have h : decide (v[j].codeS = b.codeS) = true :=
        List.findIdx_getElem (p := fun e : BehaviorGPS => decide (e.codeS = b.codeS)) (w := hlt)
      exact of_decide_eq_true h
    have hfirst : ∀ i (hi : i < j), v[i].codeS ≠ b.codeS := fun i hi =>
      of_decide_eq_false (by simpa using List.not_of_lt_findIdx hi)
    rw [dif_pos hlt, put_eq_at hlt hS hfirst]
    split
    · refine stayOnFront_eq_self fun i hi f hf => ?_
      rw [List.getElem?_set_ne (by omega), List.getElem?_eq_getElem (by omega)] at hf
      obtain rfl := Option.some_inj.mp hf
      exact hS ▸ hfirst i hi
    · exact List.insertIdx_length_self ..
  · rw [dif_neg hlt, put_eq_append]
    intro e he
    have hlen : v.findIdx (fun e => decide (e.codeS = b.codeS)) = v.length :=
      le_antisymm List.findIdx_le_length (not_lt.mp hlt)
    exact of_decide_eq_false (List.findIdx_eq_length.mp hlen e he)

/-! ### What a call can do -/

/-- The destination of the first trip of a list that starts at `s`. -/
def firstDest (v : List BehaviorGPS) (s : Int16) : Option Int16 :=
  (v.find? fun e => e.codeS = s).map fun e => e.codeD

lemma firstDest_cons (e : BehaviorGPS) (es : List BehaviorGPS) (s : Int16) :
    firstDest (e :: es) s = if e.codeS = s then some e.codeD else firstDest es s := by
  rcases eq_or_ne e.codeS s with h | h <;> simp [firstDest, h]

lemma firstDest_append (v w : List BehaviorGPS) (s : Int16) :
    firstDest (v ++ w) s = (firstDest v s).or (firstDest w s) := by
  rw [firstDest, List.find?_append, Option.map_or]
  rfl

lemma firstDest_concat (v : List BehaviorGPS) (b : BehaviorGPS) (s : Int16) :
    firstDest (v ++ [b]) s =
      (firstDest v s).or (if b.codeS = s then some b.codeD else none) := by
  rw [firstDest_append, firstDest_cons]
  rfl

/-- **The two things a call can do**: it increments the first entry of its start if this has its
destination, and appends an entry otherwise. -/
theorem put_cases (b : BehaviorGPS) (v : List BehaviorGPS) :
    (firstDest v b.codeS = some b.codeD ∧ ∃ front e back, v = front ++ e :: back ∧
        (∀ f ∈ front, f.codeS ≠ b.codeS) ∧ e.route = b.route ∧
        put b v = front ++ { e with count := e.count + 1 } :: back) ∨
      (firstDest v b.codeS ≠ some b.codeD ∧ put b v = v ++ [b.single]) := by
  induction v with
  | nil => exact Or.inr ⟨by simp [firstDest], rfl⟩
  | cons e es ih =>
      rw [put, firstDest_cons]
      rcases eq_or_ne e.codeS b.codeS with hS | hS
      · rw [if_pos hS, if_pos hS]
        rcases eq_or_ne e.codeD b.codeD with hD | hD
        · rw [if_pos hD, hD]
          exact Or.inl ⟨rfl, [], e, es, rfl, by simp, Prod.ext hS hD, rfl⟩
        · rw [if_neg hD]
          exact Or.inr ⟨by simpa using hD, rfl⟩
      · rw [if_neg hS, if_neg hS]
        rcases ih with ⟨hfirst, front, f, back, rfl, hfront, hroute, hput⟩ | ⟨hfirst, hput⟩
        · exact Or.inl ⟨hfirst, e :: front, f, back, rfl, List.forall_mem_cons.mpr ⟨hS, hfront⟩,
            hroute, by rw [hput]; rfl⟩
        · exact Or.inr ⟨hfirst, by rw [hput]; rfl⟩

/-- The routes of the entries. -/
lemma map_route_put (b : BehaviorGPS) (v : List BehaviorGPS) :
    (put b v).map (·.route) = v.map (·.route) ++
      if firstDest v b.codeS = some b.codeD then [] else [b.route] := by
  rcases put_cases b v with ⟨hfirst, front, e, back, rfl, -, -, hput⟩ | ⟨hfirst, hput⟩
  · rw [hput, if_pos hfirst, List.append_nil, List.map_append, List.map_append]
    rfl
  · rw [hput, if_neg hfirst, List.map_append]
    rfl

/-- An entry has the route of the call or of an older entry. -/
lemma route_of_mem_put {v : List BehaviorGPS} {b f : BehaviorGPS} (hf : f ∈ put b v) :
    f.route = b.route ∨ ∃ e ∈ v, e.route = f.route := by
  have hmem : f.route ∈ (put b v).map (·.route) := List.mem_map_of_mem hf
  rw [map_route_put, List.mem_append] at hmem
  rcases hmem with hold | hnew
  · exact Or.inr (List.mem_map.mp hold)
  · split at hnew
    · simp at hnew
    · exact Or.inl (List.mem_singleton.mp hnew)

/-! ### Counts -/

/-- The counts of the entries whose route satisfies `p`, added up. -/
def sumCount (p : Int16 × Int16 → Bool) (v : List BehaviorGPS) : ℤ :=
  ((v.filter fun e => p e.route).map (·.count)).sum

lemma sumCount_cons (p : Int16 × Int16 → Bool) (e : BehaviorGPS) (es : List BehaviorGPS) :
    sumCount p (e :: es) = (if p e.route then e.count else 0) + sumCount p es := by
  by_cases h : p e.route <;> simp [sumCount, h]

lemma sumCount_append (p : Int16 × Int16 → Bool) (v w : List BehaviorGPS) :
    sumCount p (v ++ w) = sumCount p v + sumCount p w := by
  simp [sumCount]

/-- **A call counts once**, for the route it is made with. -/
theorem sumCount_put (p : Int16 × Int16 → Bool) (b : BehaviorGPS) (v : List BehaviorGPS) :
    sumCount p (put b v) = sumCount p v + if p b.route then 1 else 0 := by
  rcases put_cases b v with ⟨-, front, e, back, rfl, -, hroute, hput⟩ | ⟨-, hput⟩
  · rw [hput, sumCount_append, sumCount_append, sumCount_cons, sumCount_cons, hroute]
    split <;> ring
  · rw [hput, sumCount_append, sumCount_cons, route_single, count_single]
    exact congrArg _ (add_zero _)

/-- Counts never fall below one. -/
lemma one_le_count_put {v : List BehaviorGPS} (hv : ∀ e ∈ v, 1 ≤ e.count) (b : BehaviorGPS) :
    ∀ e ∈ put b v, 1 ≤ e.count := by
  rcases put_cases b v with ⟨-, front, e, back, rfl, -, -, hput⟩ | ⟨-, hput⟩
  · rw [hput]
    rw [List.forall_mem_append, List.forall_mem_cons] at hv ⊢
    exact ⟨hv.1, hv.2.1.trans (Int.le_add_one le_rfl), hv.2.2⟩
  · rw [hput, List.forall_mem_append]
    exact ⟨hv, by simp⟩

/-! ### Entries -/

/-- The number of entries with route `r`. -/
def entries (v : List BehaviorGPS) (r : Int16 × Int16) : ℕ := v.countP fun e => e.route = r

lemma entries_eq_count (v : List BehaviorGPS) (r : Int16 × Int16) :
    entries v r = (v.map (·.route)).count r := by
  rw [List.count, List.countP_map, entries]
  exact List.countP_congr fun e _ => by simp

lemma entries_concat (v : List BehaviorGPS) (b : BehaviorGPS) (r : Int16 × Int16) :
    entries (v ++ [b]) r = entries v r + if b.route = r then 1 else 0 := by
  rcases eq_or_ne b.route r with h | h <;> simp [entries, h]

/-- A call never changes which destination comes first. -/
lemma firstDest_put (b : BehaviorGPS) (v : List BehaviorGPS) (s : Int16) :
    firstDest (put b v) s =
      (firstDest v s).or (if b.codeS = s then some b.codeD else none) := by
  rcases put_cases b v with ⟨hfirst, front, e, back, rfl, -, -, hput⟩ | ⟨-, hput⟩
  · have hsame : firstDest (put b (front ++ e :: back)) s = firstDest (front ++ e :: back) s := by
      rw [hput, firstDest_append, firstDest_append, firstDest_cons, firstDest_cons]
    rw [hsame]
    rcases eq_or_ne b.codeS s with rfl | h
    · rw [hfirst, Option.some_or]
    · rw [if_neg h, Option.or_none]
  · rw [hput]
    exact firstDest_concat v b.single s

/-- A call adds an entry unless its destination is the first one of its start. -/
lemma entries_put (b : BehaviorGPS) (v : List BehaviorGPS) (r : Int16 × Int16) :
    entries (put b v) r =
      entries v r + if b.route = r ∧ firstDest v r.1 ≠ some r.2 then 1 else 0 := by
  rw [entries_eq_count, entries_eq_count, map_route_put, List.count_append]
  refine congrArg _ ?_
  rcases eq_or_ne b.route r with rfl | hr
  · rcases eq_or_ne (firstDest v b.codeS) (some b.codeD) with h | h <;>
      simp [h, TripRecord.route]
  · have hno : ¬ (b.route = r ∧ firstDest v r.1 ≠ some r.2) := fun h => hr h.1
    rw [if_neg hno]
    split <;> simp [hr]

/-! ### Sequences of calls -/

/-- The drawer left by a sequence of calls on an empty drawer. -/
def fill (bs : List BehaviorGPS) : List BehaviorGPS := bs.foldl (fun v b => put b v) []

lemma fill_concat (bs : List BehaviorGPS) (b : BehaviorGPS) :
    fill (bs ++ [b]) = put b (fill bs) := by
  rw [fill, List.foldl_append]
  rfl

/-- The counts in a drawer are the numbers of calls. -/
lemma sumCount_fill (p : Int16 × Int16 → Bool) (bs : List BehaviorGPS) :
    sumCount p (fill bs) = bs.countP fun b => p b.route := by
  induction bs using List.reverseRecOn with
  | nil => rfl
  | append_singleton bs b ih =>
      rw [fill_concat, sumCount_put, ih, List.countP_append, List.countP_singleton]
      push_cast
      rfl

lemma one_le_count_fill (bs : List BehaviorGPS) : ∀ e ∈ fill bs, 1 ≤ e.count := by
  induction bs using List.reverseRecOn with
  | nil => simp [fill]
  | append_singleton bs b ih =>
      rw [fill_concat]
      exact one_le_count_put ih b

/-- Every entry of a drawer has the route of some call. -/
lemma exists_route_of_mem_fill {bs : List BehaviorGPS} {e : BehaviorGPS} (he : e ∈ fill bs) :
    ∃ b ∈ bs, b.route = e.route := by
  induction bs using List.reverseRecOn generalizing e with
  | nil => simp [fill] at he
  | append_singleton bs b ih =>
      rw [fill_concat] at he
      rcases route_of_mem_put he with h | ⟨f, hf, hfe⟩
      · exact ⟨b, by simp, h.symm⟩
      · obtain ⟨c, hc, hcf⟩ := ih hf
        exact ⟨c, List.mem_append_left _ hc, hcf.trans hfe⟩

lemma firstDest_fill (bs : List BehaviorGPS) (s : Int16) :
    firstDest (fill bs) s = firstDest bs s := by
  induction bs using List.reverseRecOn with
  | nil => rfl
  | append_singleton bs b ih => rw [fill_concat, firstDest_put, firstDest_concat, ih]

/-- **The entries of a route** after any sequence of calls: one for the first destination of
its start, one for each call otherwise. -/
theorem entries_fill (bs : List BehaviorGPS) (r : Int16 × Int16) :
    entries (fill bs) r = if firstDest bs r.1 = some r.2 then 1 else entries bs r := by
  induction bs using List.reverseRecOn with
  | nil => simp [fill, entries, firstDest]
  | append_singleton bs b ih =>
      rw [fill_concat, entries_put, ih, firstDest_fill, firstDest_concat, entries_concat]
      cases hfirst : firstDest bs r.1 with
      | some d =>
          by_cases hd : d = r.2 <;> simp [hd]
      | none =>
          have hnone : entries bs r = 0 := by
            rw [firstDest, Option.map_eq_none_iff, List.find?_eq_none] at hfirst
            rw [entries, List.countP_eq_zero]
            intro e he hroute
            have h1 : e.codeS = r.1 := congrArg Prod.fst (of_decide_eq_true hroute)
            exact hfirst e he (by simpa using h1)
          by_cases hr : b.route = r
          · have h1 : b.codeS = r.1 := congrArg Prod.fst hr
            have h2 : b.codeD = r.2 := congrArg Prod.snd hr
            simp [hr, h1, h2, hnone]
          · by_cases h1 : b.codeS = r.1
            · have h2 : b.codeD ≠ r.2 := fun h2 => hr (Prod.ext h1 h2)
              simp [hr, h1, h2]
            · simp [hr, h1]

/-- Every call leaves an entry with its route. -/
lemma exists_mem_fill_of_mem {bs : List BehaviorGPS} {b : BehaviorGPS} (hb : b ∈ bs) :
    ∃ e ∈ fill bs, e.route = b.route := by
  have hpos : 0 < entries (fill bs) b.route := by
    rw [entries_fill]
    split
    · exact one_pos
    · exact List.countP_pos_iff.mpr ⟨b, hb, decide_eq_true rfl⟩
  obtain ⟨e, he, hroute⟩ := List.countP_pos_iff.mp hpos
  exact ⟨e, he, of_decide_eq_true hroute⟩

/-- Only the first destination of a start is driven to more than once. -/
def NoRepeatedDetour (bs : List BehaviorGPS) : Prop :=
  ∀ b ∈ bs, firstDest bs b.codeS ≠ some b.codeD → entries bs b.route ≤ 1

instance (bs : List BehaviorGPS) : Decidable (NoRepeatedDetour bs) :=
  inferInstanceAs (Decidable (∀ b ∈ bs, _ → _))

/-- When a drawer has one entry for each route. -/
lemma nodup_route_fill_iff (bs : List BehaviorGPS) :
    ((fill bs).map (·.route)).Nodup ↔ NoRepeatedDetour bs := by
  have hcount : ∀ r, ((fill bs).map (·.route)).count r = entries (fill bs) r := fun r =>
    (entries_eq_count _ r).symm
  rw [List.nodup_iff_count_le_one]
  constructor
  · intro h b _ hfirst
    have hb := h b.route
    have hfirst' : ¬ firstDest bs b.route.1 = some b.route.2 := hfirst
    rwa [hcount, entries_fill, if_neg hfirst'] at hb
  · intro h r
    rw [hcount, entries_fill]
    split
    · exact le_rfl
    · rename_i hfirst
      by_cases hr : ∃ b ∈ bs, b.route = r
      · obtain ⟨b, hb, rfl⟩ := hr
        exact h b hb hfirst
      · have hzero : entries bs r = 0 := by
          rw [entries, List.countP_eq_zero]
          exact fun b hb hroute => hr ⟨b, hb, of_decide_eq_true hroute⟩
        omega

/-- A sequence of calls of `putInDrawer` on one drawer that is empty at first. -/
lemma putInDrawer_foldl (vecDraw : ℤ → List BehaviorGPS) {idx : ℤ} (hempty : vecDraw idx = [])
    (bs : List BehaviorGPS) :
    bs.foldl (fun vd b => putInDrawer vd idx b) vecDraw =
      Function.update vecDraw idx (fill bs) := by
  induction bs using List.reverseRecOn with
  | nil =>
      show vecDraw = Function.update vecDraw idx []
      rw [← hempty, Function.update_eq_self]
  | append_singleton bs b ih =>
      rw [List.foldl_append, ih, fill_concat]
      simp [putInDrawer, putInVec_eq_put]

end Gauge
