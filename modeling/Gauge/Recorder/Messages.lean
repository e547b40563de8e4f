import Gauge.Recorder.Ledger
import Gauge.Recorder.Payload

/-!
The process as the service bus sees it: signals with any name and any text, requests with any
parameters, timer events and restarts.  Nothing on the way from a handler to its caller catches an
exception, so that a handler that throws ends the process.

`messages_run`: the events of `Machine` are all that texts can do.  A run of messages is the run
of the events that `Message.event?` reads off the texts, up to the memory of a process that has
ended; so memory and disk agree whatever arrives.
-/

namespace Gauge

open Json Machine

/-! ### The process and its messages -/

/-- What reaches the process. -/
inductive Message
  | start (raw : GaugeArrival) (ok1 ok2 : Bool)
  /-- A signal with its name and its text. -/
  | signal (sigName data : String) (clock : Clock)
  | callback (ok1 ok2 : Bool)
  /-- A call of `predictDestinationAtStart` with the text of its parameters. -/
  | predict (parms : String) (clock : Clock)

/-- The world, and whether the process is running. -/
structure Service extends World where
  running : Bool

section Step

variable (P : Platform) (parse : String → Option Value)

/-- The handler of a message. -/
def Message.handle (w : World) : Message → Option (World × Exit)
  | .start raw ok1 ok2 => some (loadDriverBehavior P ok1 ok2 (w.construct raw), .returned)
  | .signal sigName data clock =>
      some (Payload.onGPSDataNDRServiceIPCSignal parse sigName data clock w)
  | .callback ok1 ok2 => (lastGPSCallback P ok1 ok2 w).map fun w' => (w', .returned)
  | .predict parms clock => some (Payload.predictDestinationAtStart P parse parms clock w)

/-- The message begins a new process. -/
def Message.isStart : Message → Bool
  | .start _ _ _ => true
  | _ => false

/-- One message. -/
def serviceStep (s : Service) (m : Message) : Option Service :=
  if s.running || m.isStart then
    (m.handle P parse s.toWorld).map fun r => { toWorld := r.1, running := r.2 = .returned }
  else none

end Step

/-! ### The event of a message -/

/-- What `ValidateJsonDouble` stores, if it returns. -/
def storedDouble (name : String) (v : Value) : Option (Option ℚ) :=
  if v.empty then some none
  else (v.get name).map fun m => if m.isDouble then m.asDouble else none

/-- The event that a message is, if its handler accepts it. -/
def Message.event? (parse : String → Option Value) : Message → Option Event
  | .start raw ok1 ok2 => some (.start raw ok1 ok2)
  | .signal sigName data clock =>
      if sigName = "GPSInfo" then
        (parse data).bind fun v => (v.memberAsDouble "latitude").bind fun lat =>
          (v.memberAsDouble "longitude").map fun lon => .signal ⟨clock, ⟨lat, lon⟩⟩
      else none
  | .callback ok1 ok2 => some (.callback ok1 ok2)
  | .predict parms clock =>
      match Payload.parseJsonString parse parms with
      | none => some (.predict clock none none)
      | some v =>
          (storedDouble "latitude" v).bind fun lat =>
            (storedDouble "longitude" v).map fun lon => .predict clock lat lon

/-- What a handler does to the world: what the event does, if there is one; and otherwise it
changes nothing, or it throws. -/
def Handled (P : Platform) (w : World) (r : World × Exit) : Option Event → Prop
  | some e => step P w e = some r.1 ∧ r.2 = .returned
  | none => r.1.behaviorFile = w.behaviorFile ∧ r.1.behaviorGpsFile = w.behaviorGpsFile ∧
      (r.2 = .returned → r.1 = w)

section Handlers

variable {P : Platform} {parse : String → Option Value} {w : World}

/-- A signal prints its sample anew, whatever was in `mGpsInfo`. -/
lemma signal_mGpsInfo_irrel (fix : Fix) (info : GPSInfo) :
    onGPSDataNDRServiceIPCSignal fix { w with mGpsInfo := info } =
      onGPSDataNDRServiceIPCSignal fix w := by
  rcases eq_or_ne w.mGetFirstGPSSig 0 with hflag | hflag
  · rw [signal_first fix hflag, signal_first fix (by exact hflag)]
  · rw [signal_next fix hflag, signal_next fix (by exact hflag)]

lemma handled_signal (sigName data : String) (clock : Clock) :
    Handled P w (Payload.onGPSDataNDRServiceIPCSignal parse sigName data clock w)
      ((Message.signal sigName data clock).event? parse) := by
  rw [Payload.onGPSDataNDRServiceIPCSignal, Message.event?]
  split_ifs with hname
  · cases parse data with
    | none => exact ⟨rfl, rfl, fun _ => rfl⟩
    | some v =>
        simp only [Option.bind_some]
        cases v.memberAsDouble "latitude" with
        | none => exact ⟨rfl, rfl, fun h => by cases h⟩
        | some lat =>
            simp only [Option.bind_some]
            cases v.memberAsDouble "longitude" with
            | none => exact ⟨rfl, rfl, fun h => by cases h⟩
            | some lon => exact ⟨congrArg some (signal_mGpsInfo_irrel _ _).symm, rfl⟩
  · exact ⟨rfl, rfl, fun _ => rfl⟩

lemma validateJsonDouble_eq_stored (name : String) (v : Value) (out : ℚ) :
    (Payload.validateJsonDouble name v out).map (·.2) = (storedDouble name v).map (·.getD out) := by
  rw [Payload.validateJsonDouble, Payload.validateJson, storedDouble]
  cases hempty : v.empty with
  | true => rfl
  | false =>
      cases hget : v.get name with
      | none => rfl
      | some m => cases m <;> rfl

lemma handled_predict (parms : String) (clock : Clock) :
    Handled P w (Payload.predictDestinationAtStart P parse parms clock w)
      ((Message.predict parms clock).event? parse) := by
  rw [Payload.predictDestinationAtStart, Message.event?]
  cases Payload.parseJsonString parse parms with
  | none => exact ⟨rfl, rfl⟩
  | some v =>
      have hlat := validateJsonDouble_eq_stored "latitude" v w.mStartLat
      have hlon := validateJsonDouble_eq_stored "longitude" v w.mStartLon
      dsimp only
      cases hlat' : storedDouble "latitude" v with
      | none =>
          rw [hlat', Option.map_none, Option.map_eq_none_iff] at hlat
          rw [hlat]
          exact ⟨rfl, rfl, fun h => by cases h⟩
      | some lat =>
          rw [hlat'] at hlat
          obtain ⟨⟨_, x⟩, hx, rfl⟩ := Option.map_eq_some_iff.mp hlat
          rw [hx]
          cases hlon' : storedDouble "longitude" v with
          | none =>
              rw [hlon', Option.map_none, Option.map_eq_none_iff] at hlon
              simp only [hlon]
              exact ⟨rfl, rfl, fun h => by cases h⟩
          | some lon =>
              rw [hlon'] at hlon
              obtain ⟨⟨_, y⟩, hy, rfl⟩ := Option.map_eq_some_iff.mp hlon
              simp only [hy]
              exact ⟨rfl, rfl⟩

/-- Every handler does what the event of its message says. -/
lemma handled_of_handle {m : Message} {r : World × Exit} (h : m.handle P parse w = some r) :
    Handled P w r (m.event? parse) := by
  cases m with
  | start raw ok1 ok2 =>
      obtain rfl := Option.some_inj.mp h
      exact ⟨rfl, rfl⟩
  | signal sigName data clock =>
      obtain rfl := Option.some_inj.mp h
      exact handled_signal sigName data clock
  | callback ok1 ok2 =>
      obtain ⟨u, hu, rfl⟩ := Option.map_eq_some_iff.mp h
      exact ⟨hu, rfl⟩
  | predict parms clock =>
      obtain rfl := Option.some_inj.mp h
      exact handled_predict parms clock

end Handlers

/-! ### Runs of messages -/

/-- The service has the files of `w`, and its memory as long as it runs. -/
structure Shows (s : Service) (w : World) : Prop where
  behaviorFile : s.behaviorFile = w.behaviorFile
  behaviorGpsFile : s.behaviorGpsFile = w.behaviorGpsFile
  toWorld : s.running = true → s.toWorld = w

section Run

variable {P : Platform} {parse : String → Option Value} {s t : Service}

lemma serviceStep_some {m : Message} (h : serviceStep P parse s m = some t) :
    (s.running = true ∨ m.isStart = true) ∧ ∃ exit,
      m.handle P parse s.toWorld = some (t.toWorld, exit) ∧
        (t.running = true ↔ exit = .returned) := by
  rw [serviceStep] at h
  split_ifs at h with hguard
  obtain ⟨⟨w, exit⟩, hr, rfl⟩ := Option.map_eq_some_iff.mp h
  exact ⟨(Bool.or_eq_true _ _).mp hguard, exit, hr, decide_eq_true_iff⟩

lemma start_of_isStart {m : Message} (h : m.isStart = true) :
    ∃ raw ok1 ok2, m = .start raw ok1 ok2 := by
  cases m with
  | start raw ok1 ok2 => exact ⟨raw, ok1, ok2, rfl⟩
  | signal sigName data clock => cases h
  | callback ok1 ok2 => cases h
  | predict parms clock => cases h

/-- No other message has a start as its event. -/
lemma isStart_of_event {m : Message} {e : Event} (he : m.event? parse = some e)
    (h : e.IsStart) : m.isStart = true := by
  cases m with
  | start raw ok1 ok2 => rfl
  | signal sigName data clock =>
      rw [Message.event?] at he
      split_ifs at he
      obtain ⟨v, -, he⟩ := Option.bind_eq_some_iff.mp he
      obtain ⟨lat, -, he⟩ := Option.bind_eq_some_iff.mp he
      obtain ⟨lon, -, rfl⟩ := Option.map_eq_some_iff.mp he
      exact h.elim
  | callback ok1 ok2 =>
      obtain rfl := Option.some_inj.mp he
      exact h.elim
  | predict parms clock =>
      rw [Message.event?] at he
      cases hparse : Payload.parseJsonString parse parms with
      | none =>
          rw [hparse] at he
          obtain rfl := Option.some_inj.mp he
          exact h.elim
      | some v =>
          rw [hparse] at he
          obtain ⟨lat, -, he⟩ := Option.bind_eq_some_iff.mp he
          obtain ⟨lon, -, rfl⟩ := Option.map_eq_some_iff.mp he
          exact h.elim

/-- A new process sees the files only. -/
lemma construct_congr {w w' : World} (raw : GaugeArrival)
    (hfile : w.behaviorFile = w'.behaviorFile) (hgps : w.behaviorGpsFile = w'.behaviorGpsFile) :
    w.construct raw = w'.construct raw := by
  rw [World.construct, World.construct, hfile, hgps]

lemma shows_step {m : Message} {w : World} (hs : Shows s w)
    (h : serviceStep P parse s m = some t) :
    ∃ w', run (step P) w (m.event? parse).toList = some w' ∧ Shows t w' := by
  obtain ⟨hrunning | hstart, exit, hr, hexit⟩ := serviceStep_some h
  · obtain rfl := hs.toWorld hrunning
    have hhandled := handled_of_handle hr
    cases he : m.event? parse with
    | none =>
        rw [he] at hhandled
        obtain ⟨hfile, hgps, hsame⟩ := hhandled
        exact ⟨s.toWorld, rfl, hfile, hgps, fun ht => hsame (hexit.mp ht)⟩
    | some e =>
        rw [he] at hhandled
        refine ⟨t.toWorld, ?_, rfl, rfl, fun _ => rfl⟩
        rw [Option.toList_some, run_cons, hhandled.1, Option.bind_some, run_nil]
  · obtain ⟨raw, ok1, ok2, rfl⟩ := start_of_isStart hstart
    refine ⟨t.toWorld, ?_, rfl, rfl, fun _ => rfl⟩
    obtain ⟨hw, -⟩ := Prod.mk.inj (Option.some_inj.mp hr)
    rw [← hw, construct_congr raw hs.behaviorFile hs.behaviorGpsFile]
    rfl

/-- In a process that runs, memory and disk agree. -/
lemma ledger_serviceStep {m : Message}
    (hs : s.running = true → ∃ loaded k, Ledger P loaded k s.toWorld)
    (h : serviceStep P parse s m = some t) (ht : t.running = true) :
    ∃ loaded k, Ledger P loaded k t.toWorld := by
  obtain ⟨hguard, exit, hr, hexit⟩ := serviceStep_some h
  have hhandled := handled_of_handle hr
  cases hstart : m.isStart with
  | true =>
      obtain ⟨raw, ok1, ok2, rfl⟩ := start_of_isStart hstart
      exact ⟨_, _, ledger_start hhandled.1⟩
  | false =>
      obtain ⟨loaded, k, hledger⟩ := hs (hguard.resolve_right (by simp [hstart]))
      cases he : m.event? parse with
      | none =>
          rw [he] at hhandled
          have hsame : t.toWorld = s.toWorld := hhandled.2.2 (hexit.mp ht)
          exact ⟨loaded, k, hsame ▸ hledger⟩
      | some e =>
          rw [he] at hhandled
          have hnot : ¬ e.IsStart := fun hes => by
            rw [isStart_of_event he hes] at hstart
            cases hstart
          exact ⟨loaded, k, ledger_step hnot hledger hhandled.1⟩

end Run

/-- **Texts are events.**  Whatever reaches a process, and however often it ends and starts again,
the files are those of a run of the events that its handlers accept, and so is its memory as long
as it runs.  So the behaviour file only grows, by the trips of this run, and the memory is what it
says. -/
theorem messages_run (P : Platform) (parse : String → Option Value) {s t : Service}
    {ms : List Message} (hs : s.running = false)
    (hrun : run (serviceStep P parse) s ms = some t) :
    (∃ w, run (step P) s.toWorld (ms.filterMap (Message.event? parse)) = some w ∧ Shows t w) ∧
      t.behaviorFile.getD [] = s.behaviorFile.getD [] ++
        written P s.toWorld (ms.filterMap (Message.event? parse)) ∧
      (t.running = true → ∃ loaded k, Ledger P loaded k t.toWorld) := by
  have hshows : Shows s s.toWorld := ⟨rfl, rfl, fun _ => rfl⟩
  obtain ⟨w, hw, htw⟩ := run_sim_erase (fun _ _ _ _ hR h => shows_step hR h) hshows hrun
  refine ⟨⟨w, hw, htw⟩, by rw [htw.behaviorFile, behaviorFile_run hw], ?_⟩
  exact run_inv (P := fun u : Service => u.running = true → ∃ loaded k, Ledger P loaded k u.toWorld)
    (Q := fun _ => True) (fun _ _ _ _ hu h => ledger_serviceStep hu h) (fun _ _ => trivial)
    (fun h => absurd h (by simp [hs])) hrun

/-- A parser that knows three texts. -/
def parseSome : String → Option Value
  | "home" => some (.objectValue [("latitude", .realValue 1), ("longitude", .realValue 1)])
  | "office" => some (.objectValue [("latitude", .realValue 1), ("longitude", .realValue 2)])
  | "name" => some (.objectValue [("latitude", .stringValue "home")])
  | _ => none

/-- A trip, a text that is not JSON, and one that ends the process. -/
def roughDrive : List Message :=
  [.start blankInstance true true, .signal "GPSInfo" "home" .morning,
    .signal "GPSInfo" "office" .morning, .callback true true, .signal "GPSInfo" "?" .morning,
    .signal "GPSInfo" "name" .morning, .start blankInstance true true]

theorem messages_run_roughDrive :
    ∃ t, run (serviceStep .keyed parseSome)
        { toWorld := firstWorld blankInstance true (some []), running := false } roughDrive = some t ∧
      t.mBehavGpsVec.length = 2 ∧ ∃ loaded k, Ledger .keyed loaded k t.toWorld := by
  have hsome : (run (serviceStep .keyed parseSome)
      { toWorld := firstWorld blankInstance true (some []), running := false } roughDrive).map
        (fun t => (t.mBehavGpsVec.length, t.running)) = some (2, true) := by decide +kernel
  obtain ⟨t, ht, hends⟩ := Option.map_eq_some_iff.mp hsome
  obtain ⟨hlen, hrunning⟩ := Prod.mk.inj hends
  exact ⟨t, ht, hlen, (messages_run .keyed parseSome rfl ht).2.2 hrunning⟩

end Gauge
