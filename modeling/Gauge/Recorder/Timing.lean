import Gauge.Base.Debounce
import Gauge.Recorder.Segmentation

/-!
The recorder in time.  A signal that finds no timer creates one, due 1000 ms later; one that finds
a timer makes it due 5000 ms later; a callback comes when the timer is due, or up to `slack` ms
after it.  Signals and callbacks exclude each other.

* `timed_trips`: which trips are recorded, from the times and places of the signals alone.
* `sparse_trips`: where signals come more than a second apart, each at another place than the one
  before, every second leg of the drive is recorded, and the others are lost.
-/

namespace Gauge

open FirstMatch Machine

/-! ### The machine with a clock -/

/-- `new Timer(1000, …)`. -/
def startInterval : ℕ := 1000

/-- `restart(5000)`. -/
def restartInterval : ℕ := 5000

/-- A process, the time of its last event, and when its timer is due, if there is one. -/
structure Timed extends World where
  now : ℕ
  due : Option ℕ

/-- When the timer is due after an event at the time `t`. -/
def Timed.nextDue (s : Timed) (t : ℕ) : Event → Option ℕ
  | .start _ _ _ => none
  | .signal _ => some (t + if s.mLastGPSTimer then restartInterval else startInterval)
  | .callback _ _ => none
  | .predict _ _ _ => s.due

/-- A timer event. -/
def Event.isCallback : Event → Bool
  | .callback _ _ => true
  | _ => false

/-- One event, with its time. -/
def timedStep (P : Platform) (slack : ℕ) (s : Timed) (e : ℕ × Event) : Option Timed :=
  if s.now ≤ e.1 ∧ (s.due.all fun d => e.1 ≤ d + slack) ∧
      (e.2.isCallback → s.due.any fun d => d ≤ e.1) then
    (step P s.toWorld e.2).map fun w =>
      { toWorld := w, now := e.1, due := s.nextDue e.1 e.2 }
  else none

/-- The fix of a signal. -/
def Event.fix? : Event → Option Fix
  | .signal fix => some fix
  | _ => none

/-- The signals of a run, with their times. -/
def signals (es : List (ℕ × Event)) : List (ℕ × Fix) :=
  Debounce.items (es.map fun e => (e.1, e.2.fix?))

/-! ### The trips of a timed stream -/

/-- The trips that the bursts of signals are, where `o` is the opening of the trip that is open:
a burst that ends at the place where the trip opened leaves it open. -/
def legs (same : LatLon → LatLon → Bool) : Option Fix → List (Fix × Fix) → List (Fix × Fix)
  | _, [] => []
  | o, (f, l) :: bs =>
      if same (o.getD f).pos l.pos then legs same (some (o.getD f)) bs
      else (o.getD f, l) :: legs same none bs

/-- The places have the same code. -/
def Segmentation.same (s : Segmentation) (p q : LatLon) : Bool := s.code p = s.code q

namespace Segmentation

variable {s u : Segmentation}

/-- The signal, or the timer event for `none`. -/
def eventOf : Option Fix → Event
  | some fix => .signal fix
  | none => .callback true true

lemma step_eventOf {e : Event} (he : RecorderEvent e) : s.step e = s.step (eventOf e.fix?) := by
  cases e with
  | start raw ok1 ok2 => exact he.elim
  | signal fix => rfl
  | callback ok1 ok2 => rfl
  | predict clock lat lon => exact he.elim

lemma run_eventOf {es : List Event} (hes : ∀ e ∈ es, RecorderEvent e) :
    run step s (es.map fun e => eventOf e.fix?) = run step s es := by
  induction es generalizing s with
  | nil => rfl
  | cons e es ih =>
      rw [List.map_cons, run_cons, run_cons, ← step_eventOf (hes e List.mem_cons_self)]
      refine congrArg _ (funext fun v => ?_)
      exact ih fun e he => hes e (List.mem_cons_of_mem _ he)

lemma places_visit (s : Segmentation) (q : LatLon) : s.places <+: (s.visit q).places :=
  @prefix_register _ _ placeNear (fun _ q => q) s.places q

/-- What a timer event does to the open trip. -/
lemma callback_spec {o l : Fix} {ok1 ok2 : Bool} (harmed : s.armed = true)
    (htrip : s.trip = some (o, l)) (h : s.step (.callback ok1 ok2) = some u) :
    u.places = (s.visit l.pos).places ∧
      ((s.visit l.pos).code o.pos = (s.visit l.pos).code l.pos ∧ u.trip = some (o, l) ∧
          u.trips = s.trips ∨
        (s.visit l.pos).code o.pos ≠ (s.visit l.pos).code l.pos ∧ u.trip = none ∧
          u.trips = s.trips ++ [(o, l)]) := by
  simp only [step, harmed, htrip] at h
  split_ifs at h with hcode <;> rw [← Option.some_inj.mp h]
  · exact ⟨rfl, .inl ⟨hcode, htrip, rfl⟩⟩
  · exact ⟨rfl, .inr ⟨hcode, rfl, rfl⟩⟩

lemma callback_armed {ok1 ok2 : Bool} (h : s.step (.callback ok1 ok2) = some u) :
    s.armed = true ∧ ∃ o l, s.trip = some (o, l) := by
  rcases Bool.eq_false_or_eq_true s.armed with harmed | harmed
  · cases htrip : s.trip with
    | none =>
        simp only [step, harmed, htrip] at h
        cases h
    | some trip => exact ⟨harmed, trip.1, trip.2, rfl⟩
  · simp only [step, harmed] at h
    cases h

/-- A place is known. -/
def Knows (s : Segmentation) (q : LatLon) : Prop := s.code q < s.places.length

lemma knows_visit (s : Segmentation) (q : LatLon) : (s.visit q).Knows q := by
  have hself : ∀ (n : ℕ) (q : LatLon), placeNear q q = true := fun _ q => by
    simp [placeNear, posDist_self, maxDiffLatLon]
  rw [Knows, code, visit, firstMatch_register hself]
  exact @firstMatch_lt_register _ _ placeNear (fun _ q => q) s.places q

lemma Knows.mono {q : LatLon} (h : s.Knows q) (hplaces : s.places <+: u.places) : u.Knows q := by
  rw [Knows, code, firstMatch_stable h hplaces]
  exact h.trans_le hplaces.length_le

/-- A signal goes on with the open trip, or opens one. -/
lemma signal_spec {x : Fix} (h : s.step (.signal x) = some u) :
    s.places <+: u.places ∧ u.armed = true ∧ u.trips = s.trips ∧
      u.trip = some ((s.trip.map Prod.fst).getD x, x) ∧ (s.trip = none → u.Knows x.pos) := by
  cases htrip : s.trip with
  | none =>
      simp only [step, htrip, Option.some_inj] at h
      rw [← h]
      exact ⟨places_visit s x.pos, rfl, rfl, rfl, fun _ => knows_visit s x.pos⟩
  | some trip =>
      simp only [step, htrip, Option.some_inj] at h
      rw [← h]
      exact ⟨List.prefix_rfl, rfl, rfl, rfl, fun h => absurd h (by simp)⟩

/-- Places are never forgotten. -/
lemma places_step {e : Event} (h : s.step e = some u) : s.places <+: u.places := by
  cases e with
  | start raw ok1 ok2 => cases h
  | signal fix => exact (signal_spec h).1
  | callback ok1 ok2 =>
      obtain ⟨harmed, o, l, htrip⟩ := callback_armed h
      rw [(callback_spec harmed htrip h).1]
      exact places_visit s l.pos
  | predict clock lat lon => cases h

lemma places_run {es : List Event} (h : run step s es = some u) : s.places <+: u.places :=
  run_inv (P := fun x : Segmentation => s.places <+: x.places) (Q := fun _ => True)
    (fun _ _ _ _ hx h => hx.trans (places_step h)) (fun _ _ => trivial) List.prefix_rfl h

/-- A callback compares the codes that the places still have at the end. -/
lemma same_iff {p q : LatLon} (hp : s.Knows p) (hu : (s.visit q).places <+: u.places) :
    u.same p q = true ↔ (s.visit q).code p = (s.visit q).code q := by
  have hp' : u.code p = (s.visit q).code p := firstMatch_stable (hp.mono (places_visit s q)) hu
  have hq' : u.code q = (s.visit q).code q := firstMatch_stable (knows_visit s q) hu
  rw [same, hp', hq', decide_eq_true_iff]

/-- **The trips of a scheduled run**, from a state with an armed timer. -/
lemma trips_scheduledFrom {xs : List (ℕ × Fix)} {due : ℕ} {o l : Fix} (harmed : s.armed = true)
    (htrip : s.trip = some (o, l)) (hknown : s.Knows o.pos)
    (hrun : run step s ((Debounce.scheduledFrom startInterval restartInterval due xs).map eventOf) =
      some u) {o' : Option Fix} {f : Fix} (hopen : o'.getD f = o) :
    u.trips = s.trips ++ legs u.same o'
      (Debounce.burstsFrom startInterval restartInterval f l due xs) := by
  induction xs generalizing s o l due o' f with
  | nil =>
      obtain ⟨v, hv, hrest⟩ := run_cons_some.mp hrun
      obtain rfl := Option.some_inj.mp hrest
      obtain ⟨hplaces, hcases⟩ := callback_spec harmed htrip hv
      have hsame := same_iff hknown (by rw [hplaces])
      rw [Debounce.burstsFrom, legs, hopen]
      rcases hcases with ⟨hcode, -, htrips⟩ | ⟨hcode, -, htrips⟩
      · rw [if_pos (hsame.mpr hcode), legs, List.append_nil, htrips]
      · rw [if_neg (mt hsame.mp hcode), legs, htrips]
  | cons y xs ih =>
      obtain ⟨t, x⟩ := y
      rcases Nat.lt_or_ge t due with hlt | hge
      · rw [Debounce.scheduledFrom, if_pos hlt] at hrun
        rw [Debounce.burstsFrom, if_pos hlt]
        obtain ⟨v, hv, hrest⟩ := run_cons_some.mp hrun
        obtain ⟨hplaces, hvarmed, hvtrips, hvtrip, -⟩ := signal_spec hv
        rw [htrip] at hvtrip
        rw [← hvtrips]
        exact ih hvarmed hvtrip (hknown.mono hplaces) hrest hopen
      · rw [Debounce.scheduledFrom, if_neg (by omega)] at hrun
        rw [Debounce.burstsFrom, if_neg (by omega), legs, hopen]
        obtain ⟨v, hv, hrest⟩ := run_cons_some.mp hrun
        obtain ⟨v', hv', hrest'⟩ := run_cons_some.mp hrest
        obtain ⟨hplaces, hcases⟩ := callback_spec harmed htrip hv
        have hsame := same_iff hknown (hplaces ▸ places_run hrest)
        obtain ⟨hplaces', hvarmed, hvtrips, hvtrip, hvknows⟩ := signal_spec hv'
        rcases hcases with ⟨hcode, htrip', htrips⟩ | ⟨hcode, htrip', htrips⟩
        · -- the trip goes on
          have hknown' : v.Knows o.pos :=
            hknown.mono (hplaces ▸ places_visit s l.pos)
          rw [htrip'] at hvtrip
          rw [if_pos (hsame.mpr hcode), ← htrips, ← hvtrips]
          exact ih hvarmed hvtrip (hknown'.mono hplaces') hrest' rfl
        · -- a new trip opens
          rw [htrip'] at hvtrip
          have hrest : u.trips = v'.trips ++ legs u.same none (Debounce.burstsFrom startInterval
              restartInterval x x (t + startInterval) xs) :=
            ih hvarmed hvtrip (hvknows htrip') hrest' rfl
          rw [if_neg (mt hsame.mp hcode), hrest, hvtrips, htrips, List.append_assoc]
          rfl

/-- The trips of a scheduled run, from a state without an open trip. -/
lemma trips_scheduled {xs : List (ℕ × Fix)} (htrip : s.trip = none)
    (hrun : run step s ((Debounce.scheduled startInterval restartInterval xs).map eventOf) =
      some u) :
    u.trips = s.trips ++ legs u.same none
      (Debounce.burstsOf startInterval restartInterval xs) := by
  cases xs with
  | nil =>
      obtain rfl := Option.some_inj.mp hrun
      exact (List.append_nil _).symm
  | cons y xs =>
      obtain ⟨v, hv, hrest⟩ := run_cons_some.mp hrun
      obtain ⟨-, hvarmed, hvtrips, hvtrip, hvknows⟩ := signal_spec hv
      rw [htrip] at hvtrip
      rw [← hvtrips]
      exact trips_scheduledFrom hvarmed hvtrip (hvknows htrip) hrest rfl

end Segmentation

/-! ### The timer -/

section Timer

variable {P : Platform} {slack : ℕ} {s t : Timed} {es : List (ℕ × Event)}

lemma timedStep_some {e : ℕ × Event} (h : timedStep P slack s e = some t) :
    s.now ≤ e.1 ∧ (∀ d, s.due = some d → e.1 ≤ d + slack) ∧
      (e.2.isCallback → ∃ d, s.due = some d ∧ d ≤ e.1) ∧
      step P s.toWorld e.2 = some t.toWorld ∧ t.now = e.1 ∧ t.due = s.nextDue e.1 e.2 := by
  rw [timedStep] at h
  split_ifs at h with hguard
  obtain ⟨hnow, hlate, hdue⟩ := hguard
  obtain ⟨w, hw, rfl⟩ := Option.map_eq_some_iff.mp h
  refine ⟨hnow, fun d hd => ?_, fun he => ?_, hw, rfl, rfl⟩
  · rw [hd, Option.all_some] at hlate
    exact of_decide_eq_true hlate
  · cases hd : s.due with
    | none =>
        rw [hd] at hdue
        exact absurd (hdue he) (by simp)
    | some d =>
        rw [hd] at hdue
        exact ⟨d, rfl, of_decide_eq_true (hdue he)⟩

/-- The timer of the process is due at some time, if there is one. -/
def Timed.Armed (s : Timed) : Prop := s.due.isSome = s.mLastGPSTimer

/-- The events of a recorder are those of a timer that the signals restart. -/
lemma debounce_step {e : ℕ × Event} (he : RecorderEvent e.2) (hs : s.Armed)
    (h : timedStep P slack s e = some t) :
    Debounce.step startInterval restartInterval slack ⟨s.now, s.due⟩ (e.1, e.2.fix?) =
        some ⟨t.now, t.due⟩ ∧ t.Armed := by
  obtain ⟨hnow, hlate, hdue, hstep, htnow, htdue⟩ := timedStep_some h
  obtain ⟨time, e⟩ := e
  cases e with
  | start raw ok1 ok2 => exact he.elim
  | signal fix =>
      have htimer : t.mLastGPSTimer = true := by
        rw [← Option.some_inj.mp hstep]
        rfl
      have harmed : t.Armed := by
        rw [Timed.Armed, htdue, htimer]
        rfl
      refine ⟨?_, harmed⟩
      cases hd : s.due with
      | none =>
          have hoff : s.mLastGPSTimer = false := by rw [← hs, hd]; rfl
          simp [Debounce.step, Event.fix?, hnow, htnow, htdue, Timed.nextDue, hoff]
      | some d =>
          have hon : s.mLastGPSTimer = true := by rw [← hs, hd]; rfl
          simp [Debounce.step, Event.fix?, hnow, hlate d hd, htnow, htdue, Timed.nextDue, hon]
  | callback ok1 ok2 =>
      obtain ⟨d, hd, hle⟩ := hdue rfl
      have hoff : t.mLastGPSTimer = false := by
        obtain ⟨-, ⟨-, hw⟩ | ⟨-, hw⟩⟩ := callback_some hstep <;> rw [hw]
        · rfl
        · exact saveDriverBehavior_mLastGPSTimer P (closeTrip s.toWorld) ok1 ok2
      have harmed : t.Armed := by
        rw [Timed.Armed, htdue, hoff]
        rfl
      refine ⟨?_, harmed⟩
      simp [Debounce.step, Event.fix?, hd, hnow, hle, hlate d hd, htnow, htdue, Timed.nextDue]
  | predict clock lat lon => exact he.elim

/-- A timed run is one of the timer, and one of the recorder. -/
lemma debounce_run (hes : ∀ e ∈ es, RecorderEvent e.2) (hs : s.Armed)
    (hrun : run (timedStep P slack) s es = some t) :
    run (Debounce.step startInterval restartInterval slack) ⟨s.now, s.due⟩
        (es.map fun e => (e.1, e.2.fix?)) = some ⟨t.now, t.due⟩ ∧
      run (step P) s.toWorld (es.map Prod.snd) = some t.toWorld := by
  induction es generalizing s with
  | nil =>
      obtain rfl := Option.some_inj.mp hrun
      exact ⟨rfl, rfl⟩
  | cons e es ih =>
      obtain ⟨v, hv, hrest⟩ := run_cons_some.mp hrun
      obtain ⟨hstep, harmed⟩ := debounce_step (hes e List.mem_cons_self) hs hv
      obtain ⟨hdebounce, hrecorder⟩ :=
        ih (fun e he => hes e (List.mem_cons_of_mem _ he)) harmed hrest
      constructor
      · rw [List.map_cons, run_cons, hstep, Option.bind_some, hdebounce]
      · rw [List.map_cons, run_cons, (timedStep_some hv).2.2.2.1, Option.bind_some, hrecorder]

end Timer

/-! ### The trips of a timed run -/

section Run

variable {P : Platform}

/-- The segmentation of a timed run has the `legs` of its bursts. -/
lemma refines_legs {slack : ℕ} {s t : Timed} {es : List (ℕ × Event)}
    (hflag : s.mGetFirstGPSSig = 0) (htimer : s.mLastGPSTimer = false) (hdue : s.due = none)
    (hes : ∀ e ∈ es, RecorderEvent e.2)
    (hclear : Debounce.Clear startInterval restartInterval slack (signals es))
    (hrun : run (timedStep P slack) s es = some t) (hend : t.due = none)
    (hlen : t.mGpsPosVec.length < 32768) :
    ∃ v : Segmentation, Refines s.mBehavGpsVec t.toWorld v ∧
      v.trips = legs (fun p q => searchPos t.mGpsPosVec p = searchPos t.mGpsPosVec q) none
        (Debounce.burstsOf startInterval restartInterval (signals es)) := by
  have harmed : s.Armed := by
    rw [Timed.Armed, hdue, htimer]
    rfl
  obtain ⟨hdebounce, hrecorder⟩ := debounce_run hes harmed hrun
  have hevents : ∀ e ∈ es.map Prod.snd, RecorderEvent e := by
    intro e he
    obtain ⟨x, hx, rfl⟩ := List.mem_map.mp he
    exact hes x hx
  obtain ⟨v, hv, href⟩ := refines_run (refines_start hflag htimer) hevents hrecorder hlen
  -- the segmentation does not look at the outcomes of `fopen`
  have hscheduled : run Segmentation.step ⟨s.mGpsPosVec.map (·.toLatLon), none, false, []⟩
      ((Debounce.scheduled startInterval restartInterval (signals es)).map
        Segmentation.eventOf) = some v := by
    rw [signals, ← Debounce.trace_eq_scheduled hclear hdue hdebounce hend, List.map_map,
      List.map_map, ← hv, ← Segmentation.run_eventOf hevents, List.map_map]
    rfl
  have hsame : v.same = fun p q => decide (searchPos t.mGpsPosVec p = searchPos t.mGpsPosVec q) := by
    funext p q
    rw [Segmentation.same, Segmentation.code, Segmentation.code, ← href.places,
      firstMatch_toLatLon, firstMatch_toLatLon]
  refine ⟨v, href, ?_⟩
  rw [Segmentation.trips_scheduled rfl hscheduled, List.nil_append, hsame]

end Run

/-- **What is recorded when.**  In a process that starts without an open trip and without a timer,
and stops when its timer has expired, the records appended to `mBehavGpsVec` are those of the
`legs` of the bursts of signals, if no signal comes while an expiry may be under way. -/
theorem timed_trips (P : Platform) {slack : ℕ} {s t : Timed} {es : List (ℕ × Event)}
    (hflag : s.mGetFirstGPSSig = 0) (htimer : s.mLastGPSTimer = false) (hdue : s.due = none)
    (hes : ∀ e ∈ es, RecorderEvent e.2)
    (hclear : Debounce.Clear startInterval restartInterval slack (signals es))
    (hrun : run (timedStep P slack) s es = some t) (hend : t.due = none)
    (hlen : t.mGpsPosVec.length < 32768) :
    ∃ recs, t.mBehavGpsVec = s.mBehavGpsVec ++ recs ∧
      List.Forall₂ (Records t.mGpsPosVec) recs
        (legs (fun p q => searchPos t.mGpsPosVec p = searchPos t.mGpsPosVec q) none
          (Debounce.burstsOf startInterval restartInterval (signals es))) := by
  obtain ⟨v, href, htrips⟩ := refines_legs hflag htimer hdue hes hclear hrun hend hlen
  obtain ⟨recs, hrecs, hforall⟩ := href.trips
  exact ⟨recs, hrecs, htrips ▸ hforall⟩

/-- A process over no files, before its first event. -/
def timedStart : Timed := { toWorld := firstWorld blankInstance false none, now := 0, due := none }

/-- From home to the office with two signals in a second, and the callback five seconds later. -/
def timedCommute : List (ℕ × Event) :=
  [(0, .signal ⟨.morning, ⟨1, 1⟩⟩), (500, .signal ⟨.morning, ⟨1, 2⟩⟩), (5500, .callback true true)]

theorem timed_trips_timedCommute :
    ∃ t, run (timedStep .keyed 100) timedStart timedCommute = some t ∧
      ∃ recs, t.mBehavGpsVec = [] ++ recs ∧ List.Forall₂ (Records t.mGpsPosVec) recs
        (legs (fun p q => searchPos t.mGpsPosVec p = searchPos t.mGpsPosVec q) none
          [(⟨.morning, ⟨1, 1⟩⟩, ⟨.morning, ⟨1, 2⟩⟩)]) := by
  have hsome : (run (timedStep .keyed 100) timedStart timedCommute).map
      (fun t => (t.mGpsPosVec.length, t.due)) = some (2, none) := by decide +kernel
  obtain ⟨t, ht, hlen⟩ := Option.map_eq_some_iff.mp hsome
  obtain ⟨hpos, hdue⟩ := Prod.mk.inj hlen
  have hclear : Debounce.Clear startInterval restartInterval 100 (signals timedCommute) :=
    .inl ⟨by decide, trivial⟩
  exact ⟨t, ht, timed_trips .keyed rfl rfl rfl (by simp [timedCommute, RecorderEvent]) hclear ht
    hdue (by omega)⟩

/-! ### Signals that are more than a second apart -/

/-- The first leg of the drive, the third, and so on. -/
def everySecond : List Fix → List (Fix × Fix)
  | a :: b :: fs => (a, b) :: everySecond fs
  | _ => []

lemma length_everySecond : ∀ fs : List Fix, (everySecond fs).length = fs.length / 2
  | [] => rfl
  | [_] => by simp [everySecond]
  | a :: b :: fs => by
      rw [everySecond, List.length_cons, length_everySecond fs, List.length_cons, List.length_cons]
      omega

/-- A burst of one signal opens a trip or ends one. -/
lemma legs_singles {same : LatLon → LatLon → Bool} (hself : ∀ p, same p p = true) :
    ∀ {fs : List Fix}, fs.IsChain (fun a b => same a.pos b.pos = false) →
      legs same none (fs.map fun f => (f, f)) = everySecond fs
  | [], _ => rfl
  | [a], _ => by simp [legs, everySecond, hself]
  | a :: b :: fs, h => by
      obtain ⟨hab, hrest⟩ := List.isChain_cons_cons.mp h
      have hlegs := legs_singles hself hrest.tail
      simp only [List.tail_cons] at hlegs
      simp [legs, everySecond, hself, hab, hlegs]

/-- **Half of the legs are lost** where the signals come more than a second apart, each at another
place than the one before: the trips that are recorded go from the first place to the second, from
the third to the fourth, and so on. -/
theorem sparse_trips (P : Platform) {slack : ℕ} {s t : Timed} {es : List (ℕ × Event)}
    (hflag : s.mGetFirstGPSSig = 0) (htimer : s.mLastGPSTimer = false) (hdue : s.due = none)
    (hes : ∀ e ∈ es, RecorderEvent e.2)
    (hapart : Debounce.Apart (startInterval + slack) (signals es))
    (hrun : run (timedStep P slack) s es = some t) (hend : t.due = none)
    (hmoves : ((signals es).map Prod.snd).IsChain fun a b =>
      searchPos t.mGpsPosVec a.pos ≠ searchPos t.mGpsPosVec b.pos)
    (hlen : t.mGpsPosVec.length < 32768) :
    ∃ recs, t.mBehavGpsVec = s.mBehavGpsVec ++ recs ∧
      recs.length = (signals es).length / 2 ∧
      List.Forall₂ (Records t.mGpsPosVec) recs (everySecond ((signals es).map Prod.snd)) := by
  obtain ⟨v, href, htrips⟩ := refines_legs hflag htimer hdue hes (Debounce.clear_of_apart hapart)
    hrun hend hlen
  obtain ⟨recs, hrecs, hforall⟩ := href.trips
  have hsingles : (signals es).map (fun y => (y.2, y.2)) =
      ((signals es).map Prod.snd).map fun f => (f, f) := by
    rw [List.map_map]
    rfl
  rw [Debounce.burstsOf_of_apart hapart, hsingles,
    legs_singles (fun p => decide_eq_true rfl) (hmoves.imp fun _ _ h => decide_eq_false h)]
    at htrips
  rw [htrips] at hforall
  refine ⟨recs, hrecs, ?_, hforall⟩
  rw [hforall.length_eq, length_everySecond, List.length_map]

/-- A drive past four places, with a signal every two seconds. -/
def sparseDrive : List (ℕ × Event) :=
  [(0, .signal ⟨.morning, ⟨1, 1⟩⟩), (1000, .callback true true),
    (2000, .signal ⟨.morning, ⟨1, 2⟩⟩), (3000, .callback true true),
    (4000, .signal ⟨.morning, ⟨1, 3⟩⟩), (5000, .callback true true),
    (6000, .signal ⟨.morning, ⟨1, 4⟩⟩), (7000, .callback true true)]

theorem sparse_trips_sparseDrive :
    ∃ t, run (timedStep .keyed 100) timedStart sparseDrive = some t ∧
      ∃ recs, t.mBehavGpsVec = [] ++ recs ∧ recs.length = 2 ∧
        List.Forall₂ (Records t.mGpsPosVec) recs
          [(⟨.morning, ⟨1, 1⟩⟩, ⟨.morning, ⟨1, 2⟩⟩), (⟨.morning, ⟨1, 3⟩⟩, ⟨.morning, ⟨1, 4⟩⟩)] := by
  have hsome : (run (timedStep .keyed 100) timedStart sparseDrive).map
      (fun t => (t.mGpsPosVec, t.due)) =
        some ([newPos 0 ⟨1, 1⟩, newPos 1 ⟨1, 2⟩, newPos 2 ⟨1, 3⟩, newPos 3 ⟨1, 4⟩], none) := by
    decide +kernel
  obtain ⟨t, ht, hends⟩ := Option.map_eq_some_iff.mp hsome
  obtain ⟨hpos, hdue⟩ := Prod.mk.inj hends
  refine ⟨t, ht, sparse_trips .keyed rfl rfl rfl (by simp [sparseDrive, RecorderEvent]) ?_ ht hdue
    ?_ (by rw [hpos]; decide)⟩
  · exact .cons_cons (by decide) (.cons_cons (by decide) (.cons_cons (by decide) (.singleton _)))
  · rw [hpos]
    exact .cons_cons (by decide +kernel) (.cons_cons (by decide +kernel)
      (.cons_cons (by decide +kernel) (.singleton _)))

end Gauge
