import Gauge.Base.Firsts
import Gauge.Predict.Locality

/-!
What a prediction can still learn.

A drawer offers the destinations of the first five entries of a start, and entries are never
removed or reordered; and the result list takes the first three destinations that are offered.  So
the destinations for a place and a time are settled at some point, whatever is driven afterwards.

* `codes_getDestAndRate`: the predicted destinations are the first three that are offered.
* `frozen_iff`: no trip will ever change them exactly if each drawer, in the order of the weights,
  has five entries of the start, up to the one with which three destinations are found.
-/

namespace Gauge

open Firsts

/-- The destinations that each drawer offers for the query. -/
def offered (P : Platform) (s : GaugeArrival) : List (List Int16) :=
  categories.map fun a => (vecCate P s a).map (·.codeD)

/-- The destinations that the drawer `i` of the array `a` offers for the start `c`, after the trips
`rs`. -/
def offers (c : Int16) (a : DrawerArray) (i : ℤ) (rs : List TripRecord) : List Int16 :=
  ((fill ((rs.filter fun r => r.codeS = c ∧ drawerIdx r a = i).map (·.toBehavior))).map
    (·.codeD)).take 5

section Offers

variable (P : Platform)

/-- **The predicted destinations** are the first three that are offered. -/
lemma codes_getDestAndRate (s : GaugeArrival) :
    ((getDestAndRate P s).mGpsRetLst.map (·.code)).Perm (firsts 3 [] (offered P s).flatten) := by
  have hkeys := Tally.keys_perm (getDestAndRate_spec P s).1
  have hoffered : Tally.keys ((candidates P s).map (vote P s.mStCntMap)) =
      (offered P s).flatten := by
    simp [Tally.keys, candidates, offered, categories, weights, vote, Function.comp_def]
  rwa [keys_ratePairs, keys_tally, hoffered] at hkeys

/-- The candidates of a drawer after the trips `bs`: those of the trips from the start that belong
into it. -/
lemma vecCate_withTrips (s : GaugeArrival) (bs : List BehaviorGPS) (a : DrawerArray) :
    vecCate P (s.withTrips P bs) a =
      ((fill (bs.filter fun b => b.codeS = s.mFirstGPS.codeS ∧
        drawerIdx b.toTripRecord a = drawerIdx s.mFirstGPS.toTripRecord a)).take 5).map
          fun e => destResult P e s.mFirstGPS := by
  have hentries : ((s.withTrips P bs).drawers a (drawerIdx s.mFirstGPS.toTripRecord a)).filter
      (fun e => e.codeS = s.mFirstGPS.codeS) =
        fill (bs.filter fun b => b.codeS = s.mFirstGPS.codeS ∧
          drawerIdx b.toTripRecord a = drawerIdx s.mFirstGPS.toTripRecord a) := by
    rw [withTrips_drawers, filter_fill, List.filter_filter]
    simp only [Bool.decide_and]
  rw [← hentries, vecCate, getDestRateFromDraw_eq]
  rfl

/-- What a drawer offers depends on the records of the trips only. -/
lemma offers_map (c : Int16) (a : DrawerArray) (i : ℤ) (bs : List BehaviorGPS) :
    offers c a i (bs.map (·.toTripRecord)) =
      ((fill (bs.filter fun b => b.codeS = c ∧ drawerIdx b.toTripRecord a = i)).take 5).map
        (·.codeD) := by
  have hrecords : ((bs.map (·.toTripRecord)).filter fun r =>
      r.codeS = c ∧ drawerIdx r a = i).map (·.toBehavior) =
        (bs.filter fun b => b.codeS = c ∧ drawerIdx b.toTripRecord a = i).map fun b =>
          b.toTripRecord.toBehavior := by
    rw [List.filter_map, List.map_map]
    rfl
  rw [offers, hrecords, fill_map_toBehavior, List.map_take]

lemma offered_withTrips (s : GaugeArrival) (bs : List BehaviorGPS) :
    offered P (s.withTrips P bs) = categories.map fun a =>
      offers s.mFirstGPS.codeS a (drawerIdx s.mFirstGPS.toTripRecord a)
        (bs.map (·.toTripRecord)) := by
  refine List.map_congr_left fun a _ => ?_
  rw [offers_map, vecCate_withTrips, List.map_map]
  rfl

end Offers

/-- The trips of a start in a drawer are found among those of the start. -/
lemma filter_filter_start (c : Int16) (a : DrawerArray) (i : ℤ) (rs : List TripRecord) :
    (rs.filter fun r => r.codeS = c).filter (fun r => r.codeS = c ∧ drawerIdx r a = i) =
      rs.filter fun r => r.codeS = c ∧ drawerIdx r a = i := by
  rw [List.filter_filter]
  refine List.filter_congr fun r _ => ?_
  by_cases hS : r.codeS = c <;> simp [hS]

/-- A drawer offers what it would after the trips of the start alone. -/
lemma offers_filter (c : Int16) (a : DrawerArray) (i : ℤ) (rs : List TripRecord) :
    offers c a i (rs.filter fun r => r.codeS = c) = offers c a i rs := by
  rw [offers, offers, filter_filter_start]

/-! ### More trips -/

section Growth

variable {c : Int16} {a : DrawerArray} {i : ℤ}

/-- The entries of a drawer keep their routes and their order. -/
lemma prefix_map_route_fill (bs bs' : List BehaviorGPS) :
    (fill bs).map (·.route) <+: (fill (bs ++ bs')).map (·.route) := by
  induction bs' using List.reverseRecOn with
  | nil => rw [List.append_nil]
  | append_singleton bs' b ih =>
      rw [← List.append_assoc, fill_concat, map_route_put]
      exact ih.trans (List.prefix_append _ _)

lemma length_offers_le (rs : List TripRecord) : (offers c a i rs).length ≤ 5 := by
  rw [offers, List.length_take]
  exact min_le_left _ _

/-- A drawer goes on offering what it has offered. -/
lemma prefix_offers (rs rs' : List TripRecord) :
    offers c a i rs <+: offers c a i (rs ++ rs') := by
  have hroutes := (prefix_map_route_fill
    ((rs.filter fun r => r.codeS = c ∧ drawerIdx r a = i).map (·.toBehavior))
    ((rs'.filter fun r => r.codeS = c ∧ drawerIdx r a = i).map (·.toBehavior))).map Prod.snd
  rw [List.map_map, List.map_map, ← List.map_append, ← List.filter_append] at hroutes
  exact hroutes.take 5

/-- What a drawer offers after a trip to a place that it has not offered. -/
lemma offers_concat {rs : List TripRecord} {r : TripRecord} (hS : r.codeS = c)
    (hi : drawerIdx r a = i) (hD : r.codeD ∉ offers c a i rs) :
    offers c a i (rs ++ [r]) = grow 5 r.codeD (offers c a i rs) := by
  set bs := (rs.filter fun r => r.codeS = c ∧ drawerIdx r a = i).map (·.toBehavior) with hbs
  have hstarts : ∀ e ∈ fill bs, e.codeS = c := fun e he => by
    obtain ⟨b, hb, hroute⟩ := exists_route_of_mem_fill he
    obtain ⟨r', hr', rfl⟩ := List.mem_map.mp hb
    have hkept := of_decide_eq_true (List.mem_filter.mp hr').2
    exact (congrArg Prod.fst hroute).symm.trans hkept.1
  -- the first entry is offered
  have hfirst : firstDest (fill bs) c ≠ some r.codeD := fun hfirst => by
    rw [offers, ← hbs] at hD
    cases hfill : fill bs with
    | nil =>
        rw [hfill] at hfirst
        cases hfirst
    | cons e es =>
        rw [hfill, firstDest_cons, if_pos (hstarts e (by rw [hfill]; exact List.mem_cons_self)),
          Option.some_inj] at hfirst
        rw [hfill, List.map_cons, List.take_succ_cons, hfirst] at hD
        exact hD List.mem_cons_self
  have hcodes : (fill (bs ++ [r.toBehavior])).map (·.codeD) =
      (fill bs).map (·.codeD) ++ [r.codeD] := by
    have hroutes := congrArg (List.map Prod.snd) (map_route_put r.toBehavior (fill bs))
    rw [if_neg (by rw [show r.toBehavior.codeS = c from hS]; exact hfirst)] at hroutes
    rw [List.map_append, List.map_map, List.map_map] at hroutes
    rw [fill_concat]
    exact hroutes
  have hfilter : ((rs ++ [r]).filter fun r => r.codeS = c ∧ drawerIdx r a = i).map (·.toBehavior) =
      bs ++ [r.toBehavior] := by
    rw [List.filter_append, List.map_append, List.filter_cons_of_pos (by simp [hS, hi])]
    rfl
  rw [offers, hfilter, hcodes, grow, offers, ← hbs]
  rcases Nat.lt_or_ge ((fill bs).map (·.codeD)).length 5 with hlt | hge
  · rw [List.take_of_length_le hlt.le, if_pos hlt, List.take_of_length_le]
    rw [List.length_append, List.length_singleton]
    omega
  · rw [if_neg (by rw [List.length_take_of_le hge]; omega), List.take_append_of_le_length hge]

end Growth

/-! ### When nothing is learned any more -/

/-- The destinations that are predicted for the query after the trips. -/
def predicted (P : Platform) (s : GaugeArrival) (bs : List BehaviorGPS) : List Int16 :=
  (getDestAndRate P (s.withTrips P bs)).mGpsRetLst.map (·.code)

/-- There are more codes than can be offered. -/
lemma exists_not_mem_of_length_lt {ds : List Int16} (h : ds.length < 32) : ∃ d : Int16, d ∉ ds := by
  by_contra hall
  rw [not_exists_not] at hall
  have hnodup : ((List.range 32).map Int16.ofNat).Nodup := by decide
  have hle := (hnodup.subperm fun d _ => hall d).length_le
  rw [List.length_map, List.length_range] at hle
  omega

/-- **When a prediction is settled**: no trips that may follow change the destinations that are
predicted for the query, exactly if what the drawers offer is saturated. -/
theorem frozen_iff (P : Platform) (s : GaugeArrival) (bs : List BehaviorGPS) :
    (∀ bs', (predicted P s (bs ++ bs')).Perm (predicted P s bs)) ↔
      Saturated 5 3 [] (offered P (s.withTrips P bs)) := by
  have hcodes : ∀ bs, (predicted P s bs).Perm
      (firsts 3 [] (offered P (s.withTrips P bs)).flatten) := fun bs =>
    codes_getDestAndRate P (s.withTrips P bs)
  have hlen : ∀ l ∈ offered P (s.withTrips P bs), l.length ≤ 5 := by
    rw [offered_withTrips]
    intro l hl
    obtain ⟨a, -, rfl⟩ := List.mem_map.mp hl
    exact length_offers_le _
  constructor
  · intro hall
    have hflat : (offered P (s.withTrips P bs)).flatten.length ≤ 4 * 5 := by
      rw [List.length_flatten]
      have hsum := List.sum_le_card_nsmul ((offered P (s.withTrips P bs)).map List.length) 5
        (by simpa using hlen)
      simpa [offered, categories] using hsum
    obtain ⟨d, hd⟩ := exists_not_mem_of_length_lt (hflat.trans_lt (by norm_num))
    -- a trip to `d` from the place and at the time of the query
    set b : BehaviorGPS := { s.mFirstGPS with codeD := d } with hb
    have hgrow : offered P (s.withTrips P (bs ++ [b])) =
        (offered P (s.withTrips P bs)).map (grow 5 d) := by
      rw [offered_withTrips, offered_withTrips, List.map_map]
      refine List.map_congr_left fun a ha => ?_
      rw [List.map_append]
      refine offers_concat rfl rfl fun hmem => hd ?_
      rw [offered_withTrips]
      exact List.mem_flatten.mpr ⟨_, List.mem_map_of_mem ha, hmem⟩
    refine (saturated_iff (by norm_num) hlen List.not_mem_nil hd).mpr fun k hk => ?_
    rw [← hgrow] at hk
    exact (hcodes bs).subset ((hall [b]).subset ((hcodes _).symm.subset hk))
  · intro hsat bs'
    refine (hcodes _).trans (List.Perm.trans ?_ (hcodes bs).symm)
    rw [firsts_flatten_of_saturated (by norm_num) hsat]
    rw [offered_withTrips, offered_withTrips]
    refine List.forall₂_map_left_iff.mpr (List.forall₂_map_right_iff.mpr
      (List.forall₂_same.mpr fun a _ => ⟨?_, length_offers_le _⟩))
    rw [List.map_append]
    exact prefix_offers _ _

end Gauge
