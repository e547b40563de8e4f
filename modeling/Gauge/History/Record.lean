import Gauge.Calendar.Utils
import Gauge.History.Drawer

/-!
The trip history in memory: the vector of trips, the start counter and the four arrays of
drawers, and what is done with one trip, by `saveDriverBehavior` when it is driven and by
`loadDriverBehavior` when it is read back.

Two things of the source have no defined meaning in C++ for some arguments, a drawer index
outside the array and the use of an iterator that `find` returned for an absent key.  The
model goes on in both cases (an index addresses a cell of its own, such an iterator changes
nothing) and keeps the list `accesses` of what was accessed, so that one can say when it does
not happen; nothing in the program reads this list.

* `recordTrips_drawers`: a drawer holds what its own trips fill it with.
* `recordTrips_mStCntMap`: the start counter counts, if `find(c) != NULL` tells the keys.
* `drawerIdx_mem`: the index of a trip with a valid time stamp is inside its array.
-/

namespace Gauge

/-- What the source leaves to the platform. -/
structure Platform where
  /-- Whether the iterator `end()` of a map compares equal to `NULL`. -/
  endIsNull : Bool
  /-- What reading the value through `end()` yields. -/
  endSecond : ℤ
  /-- What a call of `getArriveTime`, which ends without a `return`, yields. -/
  noReturn : ℤ → ℤ → ℤ → Bool

/-- A platform on which `find(c) != NULL` tells the keys. -/
def Platform.keyed : Platform := ⟨true, 0, fun _ _ _ => false⟩

/-- A platform with the standard `std::map`, whose `end()` is not a null iterator. -/
def Platform.standard : Platform := ⟨false, 0, fun _ _ _ => false⟩

/-- `StartCountMap`: what is stored for each key, if anything. -/
abbrev StartCountMap := ℤ → Option ℤ

/-- The test `find(c) != NULL`: true for a key, and for every other `c` too on a platform
whose `end()` is not a null iterator. -/
def Platform.findNeNull (P : Platform) (m : StartCountMap) (c : ℤ) : Bool :=
  (m c).isSome || !P.endIsNull

/-- The four arrays of drawers. -/
inductive DrawerArray
  | mBehavWeek
  | mBehavHour
  | mBehavDatePerMon
  | mBehavDatePerYear
  deriving DecidableEq

namespace DrawerArray

/-- The declared length. -/
def size : DrawerArray → ℤ
  | mBehavWeek => 7
  | mBehavHour => 24
  | mBehavDatePerMon => 31
  | mBehavDatePerYear => 366

end DrawerArray

/-- An access that C++ defines for some arguments only. -/
inductive Access
  /-- `array[idx]`, by `putInDrawer` or `getDestRateFromDraw`. -/
  | drawer (array : DrawerArray) (idx : ℤ)
  /-- `mStCntMap.find(c)->second`, with whether `c` is a key. -/
  | iter (isKey : Bool)
  deriving DecidableEq

namespace Access

/-- A drawer index is inside its array. -/
def InRange : Access → Prop
  | drawer a idx => 0 ≤ idx ∧ idx < a.size
  | iter _ => True

/-- An iterator that is used belongs to a key. -/
def OfKey : Access → Prop
  | drawer _ _ => True
  | iter isKey => isKey = true

end Access

/-- The use of the iterator in `if (find(c) != NULL) … find(c)->second …`, if there is one. -/
def Platform.lookupAccess (P : Platform) (m : StartCountMap) (c : ℤ) : List Access :=
  if P.findNeNull m c then [.iter (m c).isSome] else []

/-- The history members of the class. -/
structure History where
  mBehavGpsVec : List BehaviorGPS
  mStCntMap : StartCountMap
  drawers : DrawerArray → ℤ → List BehaviorGPS
  accesses : List Access

/-- The empty structures of a new instance. -/
def History.empty : History := ⟨[], fun _ => none, fun _ _ => [], []⟩

/-! ### One trip -/

/-- The drawer of each array that a trip, or a prediction, belongs to: day of the week, hour,
day of the month and day of the year. -/
def drawerIdx (b : TripRecord) : DrawerArray → ℤ
  | .mBehavWeek =>
      let (ye, mon, da) := yearMonDateDvt b.date
      caculateWeekDay ye mon da
  | .mBehavHour =>
      let (hr, _, _) := timeDvt b.time
      hr
  | .mBehavDatePerMon =>
      let (_, _, da) := yearMonDateDvt b.date
      da - 1
  | .mBehavDatePerYear =>
      let (ye, mon, da) := yearMonDateDvt b.date
      getIdxOfDate ye mon da

/-- `putInDrawer(array, idx, behav)`. -/
def History.putInDrawer (h : History) (a : DrawerArray) (idx : ℤ) (behav : BehaviorGPS) :
    History :=
  { h with
    drawers := Function.update h.drawers a (Gauge.putInDrawer (h.drawers a) idx behav)
    accesses := h.accesses ++ [.drawer a idx] }

/-- `if (find(c) != NULL) find(c)->second++; else insert(MapItem(c, 1))`. -/
def History.countStart (P : Platform) (h : History) (c : ℤ) : History :=
  if P.findNeNull h.mStCntMap c then
    { h with
      mStCntMap := Function.update h.mStCntMap c ((h.mStCntMap c).map (· + 1))
      accesses := h.accesses ++ P.lookupAccess h.mStCntMap c }
  else { h with mStCntMap := Function.update h.mStCntMap c (some 1) }

/-- What `saveDriverBehavior` and the loop of `loadDriverBehavior` both do with a trip. -/
def recordTrip (P : Platform) (h : History) (behav : BehaviorGPS) : History :=
  let h := { h with mBehavGpsVec := h.mBehavGpsVec ++ [behav] }
  let h := h.countStart P behav.codeS.toInt
  let h := h.putInDrawer .mBehavWeek (drawerIdx behav.toTripRecord .mBehavWeek) behav
  let h := h.putInDrawer .mBehavHour (drawerIdx behav.toTripRecord .mBehavHour) behav
  let h := h.putInDrawer .mBehavDatePerMon (drawerIdx behav.toTripRecord .mBehavDatePerMon) behav
  h.putInDrawer .mBehavDatePerYear (drawerIdx behav.toTripRecord .mBehavDatePerYear) behav

/-- A sequence of trips. -/
def recordTrips (P : Platform) (h : History) (bs : List BehaviorGPS) : History :=
  bs.foldl (recordTrip P) h

/-! ### What recording a trip does -/

section RecordTrip

variable (P : Platform) (h : History) (b : BehaviorGPS)

@[simp] lemma putInDrawer_mBehavGpsVec (a : DrawerArray) (idx : ℤ) :
    (h.putInDrawer a idx b).mBehavGpsVec = h.mBehavGpsVec := rfl

@[simp] lemma putInDrawer_mStCntMap (a : DrawerArray) (idx : ℤ) :
    (h.putInDrawer a idx b).mStCntMap = h.mStCntMap := rfl

@[simp] lemma putInDrawer_accesses (a : DrawerArray) (idx : ℤ) :
    (h.putInDrawer a idx b).accesses = h.accesses ++ [.drawer a idx] := rfl

/-- A call changes the drawer it addresses and no other. -/
lemma putInDrawer_drawers (a : DrawerArray) (idx : ℤ) (a' : DrawerArray) (i : ℤ) :
    (h.putInDrawer a idx b).drawers a' i =
      if a' = a ∧ i = idx then put b (h.drawers a' i) else h.drawers a' i := by
  rw [History.putInDrawer]
  by_cases ha : a' = a
  · subst ha
    by_cases hi : i = idx
    · subst hi
      simp [Gauge.putInDrawer, putInVec_eq_put]
    · simp [Gauge.putInDrawer, hi]
  · simp [ha]

@[simp] lemma countStart_mBehavGpsVec (c : ℤ) :
    (h.countStart P c).mBehavGpsVec = h.mBehavGpsVec := by
  rw [History.countStart]
  split <;> rfl

@[simp] lemma countStart_drawers (c : ℤ) : (h.countStart P c).drawers = h.drawers := by
  rw [History.countStart]
  split <;> rfl

/-- Counting a start adds one, from 0 for a new key, if `find(c) != NULL` tells the keys. -/
lemma countStart_mStCntMap {P : Platform} {c : ℤ}
    (hP : P.endIsNull = true ∨ (h.mStCntMap c).isSome) :
    (h.countStart P c).mStCntMap =
      Function.update h.mStCntMap c (some ((h.mStCntMap c).getD 0 + 1)) := by
  rw [History.countStart, Platform.findNeNull]
  cases hc : h.mStCntMap c with
  | none =>
      have hnull : P.endIsNull = true := hP.resolve_right (by simp [hc])
      simp [hnull]
  | some n => simp

/-- The accesses of counting a start. -/
lemma countStart_accesses (c : ℤ) :
    (h.countStart P c).accesses = h.accesses ++ P.lookupAccess h.mStCntMap c := by
  rw [History.countStart, Platform.lookupAccess]
  split <;> simp

lemma recordTrip_mBehavGpsVec : (recordTrip P h b).mBehavGpsVec = h.mBehavGpsVec ++ [b] := by
  simp [recordTrip]

lemma recordTrip_mStCntMap :
    (recordTrip P h b).mStCntMap = (h.countStart P b.codeS.toInt).mStCntMap := by
  simp only [recordTrip, putInDrawer_mStCntMap, History.countStart]
  split <;> rfl

/-- A trip goes into one drawer of each array. -/
lemma recordTrip_drawers (a : DrawerArray) (i : ℤ) :
    (recordTrip P h b).drawers a i =
      if drawerIdx b.toTripRecord a = i then put b (h.drawers a i) else h.drawers a i := by
  simp only [recordTrip, putInDrawer_drawers, countStart_drawers]
  cases a <;> simp [eq_comm]

/-- The accesses of recording a trip. -/
lemma recordTrip_accesses :
    (recordTrip P h b).accesses = h.accesses ++ P.lookupAccess h.mStCntMap b.codeS.toInt ++
      [.drawer .mBehavWeek (drawerIdx b.toTripRecord .mBehavWeek),
        .drawer .mBehavHour (drawerIdx b.toTripRecord .mBehavHour),
        .drawer .mBehavDatePerMon (drawerIdx b.toTripRecord .mBehavDatePerMon),
        .drawer .mBehavDatePerYear (drawerIdx b.toTripRecord .mBehavDatePerYear)] := by
  simp only [recordTrip, putInDrawer_accesses, countStart_accesses, List.append_assoc,
    List.cons_append, List.nil_append]

end RecordTrip

/-! ### Sequences of trips -/

section RecordTrips

variable (P : Platform) (h : History) (bs : List BehaviorGPS)

@[simp] lemma recordTrips_nil : recordTrips P h [] = h := rfl

lemma recordTrips_concat (b : BehaviorGPS) :
    recordTrips P h (bs ++ [b]) = recordTrip P (recordTrips P h bs) b := by
  rw [recordTrips, List.foldl_append]
  rfl

lemma recordTrips_mBehavGpsVec :
    (recordTrips P h bs).mBehavGpsVec = h.mBehavGpsVec ++ bs := by
  induction bs using List.reverseRecOn with
  | nil => simp
  | append_singleton bs b ih =>
      rw [recordTrips_concat, recordTrip_mBehavGpsVec, ih, List.append_assoc]

/-- **Each drawer holds its own trips**, in the order in which they were made. -/
lemma recordTrips_drawers (a : DrawerArray) (i : ℤ) :
    (recordTrips P .empty bs).drawers a i =
      fill (bs.filter fun b => drawerIdx b.toTripRecord a = i) := by
  induction bs using List.reverseRecOn with
  | nil => rfl
  | append_singleton bs b ih =>
      rw [recordTrips_concat, recordTrip_drawers, ih, List.filter_append]
      by_cases hb : drawerIdx b.toTripRecord a = i
      · rw [if_pos hb, List.filter_cons_of_pos (by simpa using hb), List.filter_nil, fill_concat]
      · rw [if_neg hb, List.filter_cons_of_neg (by simpa using hb), List.filter_nil,
          List.append_nil]

/-- The destinations in the drawers are those of the trips. -/
lemma forall_codeD_recordTrips_iff {p : Int16 → Prop} :
    (∀ a i, ∀ e ∈ (recordTrips P .empty bs).drawers a i, p e.codeD) ↔ ∀ b ∈ bs, p b.codeD := by
  constructor
  · intro h b hb
    have hmem : b ∈ bs.filter fun c =>
        drawerIdx c.toTripRecord .mBehavWeek = drawerIdx b.toTripRecord .mBehavWeek :=
      List.mem_filter.mpr ⟨hb, decide_eq_true rfl⟩
    obtain ⟨e, he, hroute⟩ := exists_mem_fill_of_mem hmem
    have hcode : e.codeD = b.codeD := congrArg Prod.snd hroute
    rw [← recordTrips_drawers P] at he
    exact hcode ▸ h _ _ e he
  · intro h a i e he
    rw [recordTrips_drawers] at he
    obtain ⟨b, hb, hroute⟩ := exists_route_of_mem_fill he
    have hcode : b.codeD = e.codeD := congrArg Prod.snd hroute
    exact hcode ▸ h b (List.mem_filter.mp hb).1

/-- The number of trips that start at the code `c`. -/
def startCount (bs : List BehaviorGPS) (c : ℤ) : ℕ := bs.countP fun b => b.codeS.toInt = c

/-- What a start counter says of a sequence of trips. -/
def countMap (bs : List BehaviorGPS) : StartCountMap := fun c =>
  if startCount bs c = 0 then none else some (startCount bs c)

lemma startCount_concat (b : BehaviorGPS) (c : ℤ) :
    startCount (bs ++ [b]) c = startCount bs c + if b.codeS.toInt = c then 1 else 0 := by
  by_cases hb : b.codeS.toInt = c <;> simp [startCount, hb]

variable {P}

/-- **The start counter equals the history**, if `find(c) != NULL` tells the keys. -/
theorem recordTrips_mStCntMap (hP : P.endIsNull = true) :
    (recordTrips P .empty bs).mStCntMap = countMap bs := by
  induction bs using List.reverseRecOn with
  | nil => rfl
  | append_singleton bs b ih =>
      rw [recordTrips_concat, recordTrip_mStCntMap, countStart_mStCntMap _ (Or.inl hP), ih]
      funext c
      by_cases hc : b.codeS.toInt = c
      · subst hc
        by_cases hz : startCount bs b.codeS.toInt = 0 <;> simp [countMap, startCount_concat, hz]
      · have hne : c ≠ b.codeS.toInt := fun h' => hc h'.symm
        simp [countMap, startCount_concat, hne, hc]

end RecordTrips

/-! ### The indexes of a trip -/

/-- The date and the time of day of a trip, the ones at which it began, are those of some
reading of the clock. -/
def ValidStamp (b : TripRecord) : Prop :=
  ∃ c : Clock, b.date = c.date.packed ∧ b.time = c.time.packed

/-- The morning of 9 January 2014. -/
def Clock.morning : Clock :=
  ⟨⟨2014, 1, 9, by decide, by decide, by decide⟩, ⟨8, 30, 0, by decide, by decide, by decide⟩⟩

/-- A trip that begins and ends on that morning. -/
def morningTrip (s d : Int16) : BehaviorGPS where
  codeS := s
  codeD := d
  date := Clock.morning.date.packed
  time := Clock.morning.time.packed
  dateD := Clock.morning.date.packed
  timeD := Clock.morning.time.packed
  count := 0

lemma validStamp_morningTrip (s d : Int16) : ValidStamp (morningTrip s d).toTripRecord :=
  ⟨Clock.morning, rfl, rfl⟩

/-- The drawers of a trip with a valid time stamp exist. -/
lemma drawerIdx_mem {b : TripRecord} (hb : ValidStamp b) (a : DrawerArray) :
    0 ≤ drawerIdx b a ∧ drawerIdx b a < a.size := by
  obtain ⟨⟨date, time⟩, hdate, htime⟩ := hb
  cases a with
  | mBehavWeek =>
      have h := caculateWeekDay_mem date
      simp only [drawerIdx, hdate, date.dvt_packed, DrawerArray.size]
      omega
  | mBehavHour =>
      have h := time.hour_mem
      simp only [drawerIdx, htime, time.dvt_packed, DrawerArray.size]
      omega
  | mBehavDatePerMon =>
      have h := date.day_mem.1
      have h' := date.day_le
      simp only [drawerIdx, hdate, date.dvt_packed, DrawerArray.size]
      omega
  | mBehavDatePerYear =>
      have h := getIdxOfDate_mem date
      simp only [drawerIdx, hdate, date.dvt_packed, DrawerArray.size]
      omega

end Gauge
