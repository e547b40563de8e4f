import Gauge.Predict.Saturation

/-!
Where a predicted arrival comes from.

The loops of `getDestAndRate` store the date and the time of the first candidate for a destination,
and only add to its rate afterwards; and the entry behind this candidate has kept the date and the
time of the first trip that was put into it.

* `origin`: the trip whose arrival is shown for a destination.
* `arrival_of_mem`: a prediction shows the arrivals of these trips.
-/

namespace Gauge

open Firsts

/-! ### The loops -/

/-- What the loops store for a destination and do not change again. -/
def GPSPosResRate.arrival (e : GPSPosResRate) : Int16 × ℤ × ℤ := (e.code, e.dateD, e.timeD)

lemma arrivals_of_addRate {code : Int16} {r : ℚ} {l l' : List GPSPosResRate}
    (h : addRate code r l = some l') : l'.map (·.arrival) = l.map (·.arrival) := by
  induction l generalizing l' with
  | nil => simp [addRate] at h
  | cons e es ih =>
      rw [addRate] at h
      split at h
      · obtain rfl := Option.some_inj.mp h
        rfl
      · obtain ⟨es', hes', rfl⟩ := Option.map_eq_some_iff.mp h
        rw [List.map_cons, ih hes', List.map_cons]

/-- The destination `e` is in the list, or it is not and has the arrival of its first candidate. -/
def Stored (l : List GPSPosResRate) (cs : List (GPSPosRes × ℚ)) (e : GPSPosResRate) : Prop :=
  e.arrival ∈ l.map (·.arrival) ∨
    e.code ∉ l.map (·.code) ∧ ∃ cw, cs.find? (fun cw => cw.1.codeD = e.code) = some cw ∧
      (e.dateD, e.timeD) = (cw.1.dateD, cw.1.timeD)

section Loops

variable {l l' : List GPSPosResRate} {cs : List (GPSPosRes × ℚ)} {e f : GPSPosResRate}
  {c : GPSPosRes} {w : ℚ}

/-- A candidate for a destination that is in the list is passed over. -/
lemma Stored.cons_of_mem (h : Stored l cs e) (hmem : c.codeD ∈ l.map (·.code)) :
    Stored l ((c, w) :: cs) e := by
  refine h.imp_right fun ⟨hnew, cw, hcw, harrival⟩ => ⟨hnew, cw, ?_, harrival⟩
  have hne : c.codeD ≠ e.code := fun heq => hnew (heq ▸ hmem)
  rwa [List.find?_cons_of_neg (by simpa using hne)]

/-- A candidate for another one is pushed. -/
lemma Stored.cons_of_push (h : Stored (l ++ [f]) cs e) (hnot : c.codeD ∉ l.map (·.code))
    (hf : f.arrival = (c.codeD, c.dateD, c.timeD)) : Stored l ((c, w) :: cs) e := by
  rw [Stored, List.map_append, List.mem_append] at h
  rcases h with (hold | hpushed) | ⟨hnew, cw, hcw, harrival⟩
  · exact Or.inl hold
  · have heq := (List.mem_singleton.mp hpushed).trans hf
    have hcode : e.code = c.codeD := congrArg Prod.fst heq
    refine Or.inr ⟨hcode ▸ hnot, (c, w), ?_, congrArg Prod.snd heq⟩
    rw [List.find?_cons_of_pos (by simpa using hcode.symm)]
  · rw [List.map_append, List.mem_append, not_or] at hnew
    have hcode : f.code = c.codeD := congrArg Prod.fst hf
    have hne : c.codeD ≠ e.code := fun heq =>
      hnew.2 (List.mem_singleton.mpr (heq.symm.trans hcode.symm))
    refine Or.inr ⟨hnew.1, cw, ?_, harrival⟩
    rwa [List.find?_cons_of_neg (by simpa using hne)]

lemma Stored.of_arrivals (h : Stored l' cs e) (heq : l'.map (·.arrival) = l.map (·.arrival)) :
    Stored l cs e := by
  have hcodes := congrArg (List.map Prod.fst) heq
  rw [List.map_map, List.map_map] at hcodes
  have hcodes : l'.map (·.code) = l.map (·.code) := hcodes
  rwa [Stored, heq, hcodes] at h

/-- **What the loops store**: an arrival of the list, or that of the first candidate. -/
lemma stored_mergeLoop {P : Platform} {m : StartCountMap} {acc : List Access}
    (he : e ∈ (mergeLoop P m acc l cs).2) : Stored l cs e := by
  induction cs generalizing acc l with
  | nil => exact Or.inl (List.mem_map_of_mem ((sortRates_perm l).subset he))
  | cons cw cs ih =>
      obtain ⟨c, w⟩ := cw
      rw [mergeLoop] at he
      cases hadd : addRate c.codeD (rateShare c (countOfStart P m c.codeS.toInt) w) l with
      | some l₁ =>
          have hmem : c.codeD ∈ l.map (·.code) := by
            by_contra hnot
            rw [addRate_eq_none.mpr hnot] at hadd
            cases hadd
          simp only [hadd] at he
          exact ((ih he).of_arrivals (arrivals_of_addRate hadd)).cons_of_mem hmem
      | none =>
          simp only [hadd] at he
          have hnot := addRate_eq_none.mp hadd
          split at he
          · -- the list is full, and the loops end
            have hpushed := (sortRates_perm _).subset he
            exact Stored.cons_of_push (Or.inl (List.mem_map_of_mem hpushed)) hnot rfl
          · exact (ih he).cons_of_push hnot rfl

end Loops

/-! ### The entries -/

/-- The first entry of a kind of route is that of the first trip of this kind. -/
lemma find?_fill (p : Int16 × Int16 → Bool) (bs : List BehaviorGPS) :
    ((fill bs).find? fun e => p e.route).map (·.toTripRecord) =
      (bs.find? fun b => p b.route).map (·.toTripRecord) := by
  induction bs using List.reverseRecOn with
  | nil => rfl
  | append_singleton bs b ih =>
      rw [fill_concat, List.find?_append, Option.map_or, ← ih]
      rcases put_cases b (fill bs) with ⟨-, front, e, back, hfill, -, hroute, hput⟩ | ⟨-, hput⟩
      · rw [hput, hfill, List.find?_append, List.find?_append, List.find?_cons, List.find?_cons,
          List.find?_singleton, ← hroute]
        have hsame : ({ e with count := e.count + 1 } : BehaviorGPS).route = e.route := rfl
        rw [hsame]
        cases front.find? fun e => p e.route with
        | some f => rfl
        | none => cases hp : p e.route <;> simp
      · rw [hput, List.find?_append, Option.map_or, List.find?_singleton, List.find?_singleton]
        rw [show b.single.route = b.route from rfl]
        cases p b.route <;> rfl

/-! ### The trips -/

/-- The date and the time of arrival that are shown for the trip `r` when `behav` departs. -/
def arrivalOf (P : Platform) (r : TripRecord) (behav : BehaviorGPS) : ℤ × ℤ :=
  (if P.noReturn r.time r.timeD behav.time then getDateByDiffDay behav.date else behav.date,
    r.timeD)

/-- The trip whose arrival is shown for the destination `d` after the trips `rs`: the oldest one to
it that belongs into the first drawer `idx a` that offers it. -/
def origin (c : Int16) (idx : DrawerArray → ℤ) (rs : List TripRecord) (d : Int16) :
    Option TripRecord :=
  categories.findSome? fun a =>
    if d ∈ offers c a (idx a) rs then
      (rs.filter fun r => r.codeS = c ∧ drawerIdx r a = idx a).find? fun r => r.codeD = d
    else none

/-- It is one of the trips. -/
lemma mem_of_origin {c d : Int16} {idx : DrawerArray → ℤ} {rs : List TripRecord} {r : TripRecord}
    (h : origin c idx rs d = some r) : r ∈ rs ∧ r.route = (c, d) := by
  obtain ⟨a, -, ha⟩ := List.exists_of_findSome?_eq_some h
  split at ha
  · have hmem := List.mem_filter.mp (List.mem_of_find?_eq_some ha)
    have hD := of_decide_eq_true
      (List.find?_some (p := fun r : TripRecord => decide (r.codeD = d)) ha)
    exact ⟨hmem.1, Prod.ext (of_decide_eq_true hmem.2).1 hD⟩
  · cases ha

/-- The trips from other places do not matter. -/
lemma origin_filter (c : Int16) (idx : DrawerArray → ℤ) (rs : List TripRecord) (d : Int16) :
    origin c idx (rs.filter fun r => r.codeS = c) d = origin c idx rs d := by
  rw [origin, origin]
  simp only [offers_filter, filter_filter_start]

/-- Where what the drawers offer is saturated, the trip for a predicted destination stays the same,
whatever is driven. -/
lemma origin_append {c d : Int16} {idx : DrawerArray → ℤ} {known : List TripRecord}
    (later : List TripRecord)
    (hsat : Saturated 5 3 [] (categories.map fun a => offers c a (idx a) known))
    (hd : d ∈ firsts 3 [] (categories.map fun a => offers c a (idx a) known).flatten) :
    origin c idx (known ++ later) d = origin c idx known d := by
  refine findSome?_of_saturated (by norm_num) hsat
    (fun a _ => ⟨prefix_offers _ _, length_offers_le _⟩) (fun a _ hmem => ?_) List.not_mem_nil hd
  obtain ⟨e, he, hD⟩ := List.mem_map.mp (List.mem_of_mem_take hmem)
  obtain ⟨b, hb, hroute⟩ := exists_route_of_mem_fill he
  obtain ⟨r, hr, rfl⟩ := List.mem_map.mp hb
  have hsome : ((known.filter fun r => r.codeS = c ∧ drawerIdx r a = idx a).find? fun r =>
      r.codeD = d).isSome = true :=
    List.find?_isSome.mpr ⟨r, hr, decide_eq_true ((congrArg Prod.snd hroute).trans hD)⟩
  refine ⟨hsome, ?_⟩
  rw [List.filter_append, List.find?_append, Option.or_of_isSome hsome]

section Candidates

variable (P : Platform) (bs : List BehaviorGPS) (s : GaugeArrival)

/-- The first candidate of a drawer for a destination. -/
lemma find?_vecCate (a : DrawerArray) (d : Int16) :
    ((vecCate P (s.withTrips P bs) a).find? fun c => c.codeD = d).map
        (fun c => (c.dateD, c.timeD)) =
      (if d ∈ offers s.mFirstGPS.codeS a (drawerIdx s.mFirstGPS.toTripRecord a)
          (bs.map (·.toTripRecord)) then
        ((bs.map (·.toTripRecord)).filter fun r => r.codeS = s.mFirstGPS.codeS ∧
          drawerIdx r a = drawerIdx s.mFirstGPS.toTripRecord a).find? fun r => r.codeD = d
      else none).map fun r => arrivalOf P r s.mFirstGPS := by
  rw [offers_map, vecCate_withTrips, List.find?_map, Option.map_map]
  set trips := bs.filter fun b => b.codeS = s.mFirstGPS.codeS ∧
    drawerIdx b.toTripRecord a = drawerIdx s.mFirstGPS.toTripRecord a with htrips
  have hrecords : (((bs.map (·.toTripRecord)).filter fun r => r.codeS = s.mFirstGPS.codeS ∧
      drawerIdx r a = drawerIdx s.mFirstGPS.toTripRecord a).find? fun r => r.codeD = d) =
        (trips.find? fun b => b.route.2 = d).map (·.toTripRecord) := by
    rw [List.filter_map, List.find?_map]
    rfl
  have hfirst := find?_fill (fun r => r.2 = d) trips
  rw [← List.take_append_drop 5 (fill trips), List.find?_append] at hfirst
  rw [hrecords, ← hfirst]
  show (((fill trips).take 5).find? fun e => e.route.2 = d).map
    (fun e => arrivalOf P e.toTripRecord s.mFirstGPS) = _
  cases hfind : ((fill trips).take 5).find? fun e => e.route.2 = d with
  | none =>
      rw [if_neg fun hd => ?_]
      · rfl
      · obtain ⟨e, he, hD⟩ := List.mem_map.mp hd
        exact List.find?_eq_none.mp hfind e he (decide_eq_true hD)
  | some e =>
      have hD := of_decide_eq_true
        (List.find?_some (p := fun e : BehaviorGPS => decide (e.route.2 = d)) hfind)
      rw [if_pos (List.mem_map.mpr ⟨e, List.mem_of_find?_eq_some hfind, hD⟩)]
      rfl

/-- The first candidate for a destination. -/
lemma find?_candidates (d : Int16) :
    ((candidates P (s.withTrips P bs)).find? fun cw => cw.1.codeD = d).map
        (fun cw => (cw.1.dateD, cw.1.timeD)) =
      (origin s.mFirstGPS.codeS (drawerIdx s.mFirstGPS.toTripRecord) (bs.map (·.toTripRecord))
        d).map fun r => arrivalOf P r s.mFirstGPS := by
  have hcategories : categories = (categories.zip weights).map Prod.fst := rfl
  rw [candidates, List.find?_flatMap, List.map_findSome?, origin, List.map_findSome?, hcategories,
    List.findSome?_map]
  refine congrArg (List.findSome? · _) (funext fun aw => ?_)
  refine Eq.trans ?_ (find?_vecCate P bs s aw.1 d)
  rw [Function.comp_apply, List.find?_map, Option.map_map]
  rfl

/-- **A prediction shows arrivals of the history**: for each destination that of the trip
`origin`. -/
lemma arrival_of_mem {e : GPSPosResRate}
    (he : e ∈ (getDestAndRate P (s.withTrips P bs)).mGpsRetLst) :
    ∃ r, origin s.mFirstGPS.codeS (drawerIdx s.mFirstGPS.toTripRecord) (bs.map (·.toTripRecord))
        e.code = some r ∧ (e.dateD, e.timeD) = arrivalOf P r s.mFirstGPS := by
  rcases stored_mergeLoop he with hnil | ⟨-, cw, hcw, harrival⟩
  · cases hnil
  · have hfind := find?_candidates P bs s e.code
    rw [hcw, Option.map_some, ← harrival] at hfind
    obtain ⟨r, hr, heq⟩ := Option.map_eq_some_iff.mp hfind.symm
    exact ⟨r, hr, heq.symm⟩

end Candidates

end Gauge
