import Mathlib.Tactic

/-!
Machines with a partial step: a step that meets undefined behaviour, or that the
environment cannot make, gives `none`, and so does a run that contains it.

* `run`: the iterated step, with `run_append` and `run_concat` to cut a run in two.
* `run_inv`: what every step preserves, every run preserves.
* `run_sim`: a forward simulation of steps lifts to runs.
* `always_and_along_iff`, `always_iff_along`, `final_iff_along`: what holds in every state of a
  run, or at its end, as a condition on its steps.
* `since_iff`: a flag that some steps set and others keep, as a condition on the events.
* `run_map`, `along_map`: runs of a machine that is the image of another one.
* `run_erase`, `run_sim_erase`: runs of a machine with finer steps, some of which do not show.
-/

namespace Machine

variable {σ τ ε : Type*}

/-- The state after the events `es`, taken one after the other from `s`. -/
def run (step : σ → ε → Option σ) (s : σ) (es : List ε) : Option σ :=
  es.foldlM step s

variable {step : σ → ε → Option σ}

@[simp] lemma run_nil (s : σ) : run step s [] = some s := rfl

@[simp] lemma run_cons (s : σ) (e : ε) (es : List ε) :
    run step s (e :: es) = (step s e).bind fun s' => run step s' es := rfl

lemma run_append (s : σ) (es fs : List ε) :
    run step s (es ++ fs) = (run step s es).bind fun s' => run step s' fs := by
  simp [run, List.foldlM_append]

lemma run_concat (s : σ) (es : List ε) (e : ε) :
    run step s (es ++ [e]) = (run step s es).bind fun s' => step s' e := by
  rw [run_append]
  refine congrArg _ (funext fun s' => ?_)
  cases h : step s' e <;> simp [h]

lemma run_cons_some {s t : σ} {e : ε} {es : List ε} :
    run step s (e :: es) = some t ↔ ∃ s', step s e = some s' ∧ run step s' es = some t := by
  rw [run_cons, Option.bind_eq_some_iff]

/-- **The invariant rule.**  `Q` is what is assumed of the single events. -/
theorem run_inv {P : σ → Prop} {Q : ε → Prop}
    (hstep : ∀ s e s', Q e → P s → step s e = some s' → P s') {s t : σ} {es : List ε}
    (hQ : ∀ e ∈ es, Q e) (hs : P s) (hrun : run step s es = some t) : P t := by
  induction es generalizing s with
  | nil =>
      rw [run_nil, Option.some_inj] at hrun
      exact hrun ▸ hs
  | cons e es ih =>
      obtain ⟨s', hs', hrun'⟩ := run_cons_some.mp hrun
      exact ih (fun f hf => hQ f (List.mem_cons_of_mem e hf))
        (hstep s e s' (hQ e List.mem_cons_self) hs hs') hrun'

/-- **The simulation rule.**  A bound `B` on the concrete state, kept backwards by the
steps, may be assumed at the end of the run only. -/
theorem run_sim {astep : τ → ε → Option τ} {R : σ → τ → Prop} {Q : ε → Prop} {B : σ → Prop}
    (hback : ∀ s e s', Q e → step s e = some s' → B s' → B s)
    (hstep : ∀ s a e s', Q e → R s a → B s' → step s e = some s' →
      ∃ a', astep a e = some a' ∧ R s' a') {s t : σ} {a : τ} {es : List ε}
    (hQ : ∀ e ∈ es, Q e) (hs : R s a) (hrun : run step s es = some t) (ht : B t) :
    ∃ b, run astep a es = some b ∧ R t b := by
  have hbacks : ∀ (fs : List ε) (u : σ), (∀ e ∈ fs, Q e) → run step u fs = some t → B u := by
    intro fs
    induction fs with
    | nil =>
        intro u _ hu
        rw [run_nil, Option.some_inj] at hu
        exact hu ▸ ht
    | cons e fs ih =>
        intro u hQu hu
        obtain ⟨u', hu', hrest⟩ := run_cons_some.mp hu
        exact hback u e u' (hQu e List.mem_cons_self) hu'
          (ih u' (fun f hf => hQu f (List.mem_cons_of_mem e hf)) hrest)
  induction es generalizing s a with
  | nil =>
      rw [run_nil, Option.some_inj] at hrun
      exact ⟨a, rfl, hrun ▸ hs⟩
  | cons e es ih =>
      obtain ⟨s', hs', hrun'⟩ := run_cons_some.mp hrun
      have hQ' : ∀ f ∈ es, Q f := fun f hf => hQ f (List.mem_cons_of_mem e hf)
      obtain ⟨a', ha', hR⟩ :=
        hstep s a e s' (hQ e List.mem_cons_self) hs (hbacks es s' hQ' hrun') hs'
      obtain ⟨b, hb, hRb⟩ := ih hQ' hR hrun'
      exact ⟨b, by rw [run_cons, ha', Option.bind_some, hb], hRb⟩

/-! ### Assumptions on the environment -/

/-- The machine in an environment that makes only the steps that `G` allows. -/
def guarded (G : σ → ε → Prop) [∀ s e, Decidable (G s e)] (step : σ → ε → Option σ) (s : σ)
    (e : ε) : Option σ :=
  if G s e then step s e else none

lemma guarded_some {G : σ → ε → Prop} [∀ s e, Decidable (G s e)] {s s' : σ} {e : ε} :
    guarded G step s e = some s' ↔ G s e ∧ step s e = some s' := by
  rw [guarded]
  split <;> simp [*]

/-- A run in the environment is a run of the machine. -/
lemma run_of_guarded {G : σ → ε → Prop} [∀ s e, Decidable (G s e)] {s t : σ} {es : List ε}
    (hrun : run (guarded G step) s es = some t) : run step s es = some t := by
  induction es generalizing s with
  | nil => exact hrun
  | cons e es ih =>
      obtain ⟨s', hs', hrest⟩ := run_cons_some.mp hrun
      exact run_cons_some.mpr ⟨s', (guarded_some.mp hs').2, ih hrest⟩

/-! ### Every state and every step of a run -/

/-- `Q` holds in every state that the run of `es` from `s` goes through. -/
def Always (step : σ → ε → Option σ) (Q : σ → Prop) (s : σ) (es : List ε) : Prop :=
  ∀ fs t, fs <+: es → run step s fs = some t → Q t

/-- `C` holds of every step that the run of `es` from `s` takes. -/
def Along (step : σ → ε → Option σ) (C : σ → ε → Prop) (s : σ) (es : List ε) : Prop :=
  ∀ fs e t t', fs ++ [e] <+: es → run step s fs = some t → step t e = some t' → C t e

lemma always_of_along {Q : σ → Prop} {C : σ → ε → Prop}
    (hstep : ∀ s e s', Q s → C s e → step s e = some s' → Q s') {s : σ} (hs : Q s) {es : List ε}
    (h : Along step C s es) : Always step Q s es := by
  intro fs
  induction fs using List.reverseRecOn with
  | nil =>
      intro t _ ht
      rw [run_nil, Option.some_inj] at ht
      exact ht ▸ hs
  | append_singleton fs e ih =>
      intro t' hfs ht'
      rw [run_concat, Option.bind_eq_some_iff] at ht'
      obtain ⟨t, ht, ht'⟩ := ht'
      have hQ : Q t := ih t ((List.prefix_append _ _).trans hfs) ht
      exact hstep t e t' hQ (h fs e t t' hfs ht ht') ht'

/-- **The rule for exact step conditions.**  If a step from a state with `Q` ends in one and
does what `R` says exactly under the condition `C`, then `Q` holds always and `R` of every step
exactly if `C` holds of every step. -/
theorem always_and_along_iff {Q : σ → Prop} {R C : σ → ε → Prop}
    (hstep : ∀ s e s', Q s → step s e = some s' → (Q s' ∧ R s e ↔ C s e)) {s : σ} (hs : Q s)
    (es : List ε) : Always step Q s es ∧ Along step R s es ↔ Along step C s es := by
  constructor
  · rintro ⟨hQ, hR⟩ fs e t t' hfs ht ht'
    have hrun : run step s (fs ++ [e]) = some t' := by rw [run_concat, ht, Option.bind_some, ht']
    exact (hstep t e t' (hQ fs t ((List.prefix_append _ _).trans hfs) ht) ht').mp
      ⟨hQ _ t' hfs hrun, hR fs e t t' hfs ht ht'⟩
  · intro h
    have hQ := always_of_along (fun s e s' hs hC h' => ((hstep s e s' hs h').mpr hC).1) hs h
    refine ⟨hQ, fun fs e t t' hfs ht ht' => ?_⟩
    exact ((hstep t e t' (hQ fs t ((List.prefix_append _ _).trans hfs) ht) ht').mpr
      (h fs e t t' hfs ht ht')).2

/-- The rule for states alone. -/
theorem always_iff_along {Q : σ → Prop} {C : σ → ε → Prop}
    (hstep : ∀ s e s', Q s → step s e = some s' → (Q s' ↔ C s e)) {s : σ} (hs : Q s)
    (es : List ε) : Always step Q s es ↔ Along step C s es := by
  have hiff := always_and_along_iff (R := fun _ _ => True)
    (fun s e s' hQ h => by rw [and_true]; exact hstep s e s' hQ h) hs es
  rw [← hiff]
  exact ⟨fun h => ⟨h, fun _ _ _ _ _ _ _ => trivial⟩, And.left⟩

lemma along_concat_some {C : σ → ε → Prop} {s t t' : σ} {es : List ε} {e : ε}
    (ht : run step s es = some t) (ht' : step t e = some t') :
    Along step C s (es ++ [e]) ↔ Along step C s es ∧ C t e := by
  constructor
  · intro h
    refine ⟨fun fs f u u' hfs => h fs f u u' (hfs.trans (List.prefix_append _ _)), ?_⟩
    exact h es e t t' List.prefix_rfl ht ht'
  · rintro ⟨h, hC⟩ fs f u u' hfs hu hu'
    rcases List.prefix_concat_iff.mp hfs with heq | hfs
    · obtain ⟨rfl, hf⟩ := List.append_inj' heq rfl
      obtain rfl := List.singleton_inj.mp hf
      obtain rfl := Option.some_inj.mp (ht.symm.trans hu)
      exact hC
    · exact h fs f u u' hfs hu hu'

lemma along_nil {C : σ → ε → Prop} (s : σ) : Along step C s [] := fun fs e _ _ hfs => by
  simp at hfs

lemma along_cons {C : σ → ε → Prop} {s s' : σ} {e : ε} {es : List ε} (h : step s e = some s')
    (hC : C s e) (hes : Along step C s' es) : Along step C s (e :: es) := by
  intro fs f t t' hfs ht ht'
  cases fs with
  | nil =>
      rw [run_nil, Option.some_inj] at ht
      obtain ⟨rfl, -⟩ := List.cons_prefix_cons.mp hfs
      exact ht ▸ hC
  | cons g fs =>
      obtain ⟨rfl, hrest⟩ := List.cons_prefix_cons.mp hfs
      obtain ⟨u, hu, hrun⟩ := run_cons_some.mp ht
      obtain rfl := Option.some_inj.mp (h.symm.trans hu)
      exact hes fs f t t' hrest hrun ht'

/-- **The rule for properties that are lost for good.**  `I` and `Q` may speak of the events
so far.  If under `I` a step leads to `Q` exactly from `Q` and under the condition `C`, then
`Q` holds at the end of a run exactly if `C` holds of every step. -/
theorem final_iff_along {I Q : List ε → σ → Prop} {C : σ → ε → Prop}
    (hstep : ∀ es s e s', I es s → step s e = some s' →
      I (es ++ [e]) s' ∧ (Q (es ++ [e]) s' ↔ Q es s ∧ C s e)) {s t : σ} (hI : I [] s)
    (hQ : Q [] s) {es : List ε} (hrun : run step s es = some t) :
    Q es t ↔ Along step C s es := by
  have key : I es t ∧ (Q es t ↔ Along step C s es) := by
    induction es using List.reverseRecOn generalizing t with
    | nil =>
        rw [run_nil, Option.some_inj] at hrun
        subst hrun
        refine ⟨hI, iff_of_true hQ fun fs e u u' hfs => ?_⟩
        simp at hfs
    | append_singleton es e ih =>
        rw [run_concat, Option.bind_eq_some_iff] at hrun
        obtain ⟨u, hu, hut⟩ := hrun
        obtain ⟨hIu, hQu⟩ := ih hu
        obtain ⟨hIt, hQt⟩ := hstep es u e t hIu hut
        exact ⟨hIt, by rw [hQt, hQu, along_concat_some hu hut]⟩
  exact key.2

/-! ### Flags -/

/-- Some event of the run of `es` from `s` was as `Sets` says, and those after it as `Keeps`
says. -/
def Since (step : σ → ε → Option σ) (Sets : σ → ε → Prop) (Keeps : ε → Prop) (s : σ)
    (es : List ε) : Prop :=
  ∃ fs e gs u, es = fs ++ e :: gs ∧ run step s fs = some u ∧ Sets u e ∧ ∀ f ∈ gs, Keeps f

lemma since_concat {Sets : σ → ε → Prop} {Keeps : ε → Prop} {s t : σ} {es : List ε} {e : ε}
    (ht : run step s es = some t) :
    Since step Sets Keeps s (es ++ [e]) ↔ Sets t e ∨ Since step Sets Keeps s es ∧ Keeps e := by
  constructor
  · rintro ⟨fs, e', gs, u, heq, hu, hset, hkeep⟩
    rcases List.eq_nil_or_concat gs with rfl | ⟨gs, e'', rfl⟩
    · obtain ⟨rfl, hlast⟩ := List.append_inj' heq rfl
      obtain rfl := List.singleton_inj.mp hlast
      obtain rfl := Option.some_inj.mp (ht.symm.trans hu)
      exact .inl hset
    · rw [List.concat_eq_append, ← List.cons_append, ← List.append_assoc] at heq
      obtain ⟨rfl, hlast⟩ := List.append_inj' heq rfl
      obtain rfl := List.singleton_inj.mp hlast
      rw [List.concat_eq_append] at hkeep
      exact .inr ⟨⟨fs, e', gs, u, rfl, hu, hset, fun f hf => hkeep f (List.mem_append_left _ hf)⟩,
        hkeep e (List.mem_append_right _ List.mem_cons_self)⟩
  · rintro (hset | ⟨⟨fs, e', gs, u, rfl, hu, hset, hkeep⟩, he⟩)
    · exact ⟨es, e, [], t, rfl, ht, hset, fun f hf => absurd hf List.not_mem_nil⟩
    · refine ⟨fs, e', gs ++ [e], u, by simp, hu, hset, fun f hf => ?_⟩
      rcases List.mem_append.mp hf with hf | hf
      · exact hkeep f hf
      · exact List.mem_singleton.mp hf ▸ he

/-- **The rule for flags.**  If a step leads to `F` exactly if it sets `F`, or from `F` if it keeps
it, then `F` holds at the end of a run exactly if some event has set it since when all events
kept it, or if it held at first and all events kept it. -/
theorem since_iff {F : σ → Prop} {Sets : σ → ε → Prop} {Keeps : ε → Prop}
    (hstep : ∀ s e s', step s e = some s' → (F s' ↔ Sets s e ∨ F s ∧ Keeps e)) {s t : σ}
    {es : List ε} (hrun : run step s es = some t) :
    F t ↔ Since step Sets Keeps s es ∨ F s ∧ ∀ e ∈ es, Keeps e := by
  induction es using List.reverseRecOn generalizing t with
  | nil =>
      rw [run_nil, Option.some_inj] at hrun
      subst hrun
      refine ⟨fun h => .inr ⟨h, fun e he => absurd he List.not_mem_nil⟩, ?_⟩
      rintro (⟨fs, e, gs, u, heq, -⟩ | ⟨h, -⟩)
      · simp at heq
      · exact h
  | append_singleton es e ih =>
      rw [run_concat, Option.bind_eq_some_iff] at hrun
      obtain ⟨u, hu, hut⟩ := hrun
      rw [hstep u e t hut, ih hu, since_concat hu]
      simp only [List.forall_mem_append, List.forall_mem_singleton]
      tauto

/-! ### Images -/

section Map

variable {δ : Type*} {step' : τ → δ → Option τ} {f : σ → τ} {g : ε → δ}

lemma run_map (hstep : ∀ s e, step' (f s) (g e) = (step s e).map f) (s : σ) (es : List ε) :
    run step' (f s) (es.map g) = (run step s es).map f := by
  induction es generalizing s with
  | nil => rfl
  | cons e es ih =>
      rw [List.map_cons, run_cons, run_cons, hstep]
      cases step s e with
      | none => rfl
      | some s' => exact ih s'

/-- A condition on the steps of the image is one on the steps of the machine. -/
lemma along_map (hstep : ∀ s e, step' (f s) (g e) = (step s e).map f) {C : τ → δ → Prop} {s : σ}
    {es : List ε} :
    Along step' C (f s) (es.map g) ↔ Along step (fun s e => C (f s) (g e)) s es := by
  constructor
  · intro h fs e t t' hfs ht ht'
    refine h (fs.map g) (g e) (f t) (f t') ?_ ?_ ?_
    · simpa using hfs.map g
    · rw [run_map hstep, ht, Option.map_some]
    · rw [hstep, ht', Option.map_some]
  · intro h fs' d u u' hfs hu hu'
    -- a prefix of the image is the image of a prefix
    have htake := List.prefix_iff_eq_take.mp hfs
    rw [← List.map_take] at htake
    obtain ⟨fs, es', hes, rfl, hd⟩ := List.map_eq_append_iff.mp htake.symm
    obtain ⟨e, rfl, rfl⟩ := List.map_eq_singleton_iff.mp hd
    rw [run_map hstep, Option.map_eq_some_iff] at hu
    obtain ⟨t, ht, rfl⟩ := hu
    rw [hstep, Option.map_eq_some_iff] at hu'
    obtain ⟨t', ht', rfl⟩ := hu'
    exact h fs e t t' (hes ▸ List.take_prefix _ _) ht ht'

end Map

/-! ### Erasure -/

section Erase

variable {δ : Type*} {astep : τ → δ → Option τ} {abs : σ → τ} {erase : ε → Option δ}

/-- **The erasure rule.**  If under the invariant `I` and the condition `C` a step does to `abs`
what the coarser machine does with the event that `erase` leaves of it, if any, then so does a
run. -/
theorem run_erase {I : σ → Prop} {C : σ → ε → Prop}
    (hstep : ∀ s e s', I s → C s e → step s e = some s' →
      I s' ∧ run astep (abs s) (erase e).toList = some (abs s')) {s t : σ} {es : List ε}
    (hI : I s) (hC : Along step C s es) (hrun : run step s es = some t) :
    I t ∧ run astep (abs s) (es.filterMap erase) = some (abs t) := by
  induction es using List.reverseRecOn generalizing t with
  | nil =>
      rw [run_nil, Option.some_inj] at hrun
      exact hrun ▸ ⟨hI, rfl⟩
  | append_singleton es e ih =>
      rw [run_concat, Option.bind_eq_some_iff] at hrun
      obtain ⟨u, hu, hut⟩ := hrun
      obtain ⟨hCes, hCe⟩ := (along_concat_some hu hut).mp hC
      obtain ⟨hIu, habs⟩ := ih hCes hu
      obtain ⟨hIt, hlast⟩ := hstep u e t hIu hCe hut
      have hsingle : [e].filterMap erase = (erase e).toList := by
        cases h : erase e <;> simp [h]
      exact ⟨hIt, by rw [List.filterMap_append, run_append, habs, Option.bind_some, hsingle, hlast]⟩

/-- **Simulation with erasure.**  The same for a relation between the states of the two machines,
without a condition. -/
theorem run_sim_erase {R : σ → τ → Prop}
    (hstep : ∀ s a e s', R s a → step s e = some s' →
      ∃ a', run astep a (erase e).toList = some a' ∧ R s' a') {s t : σ} {a : τ} {es : List ε}
    (hs : R s a) (hrun : run step s es = some t) :
    ∃ b, run astep a (es.filterMap erase) = some b ∧ R t b := by
  induction es generalizing s a with
  | nil =>
      rw [run_nil, Option.some_inj] at hrun
      exact ⟨a, rfl, hrun ▸ hs⟩
  | cons e es ih =>
      obtain ⟨s', hs', hrun'⟩ := run_cons_some.mp hrun
      obtain ⟨a', ha', hR⟩ := hstep s a e s' hs hs'
      obtain ⟨b, hb, hRb⟩ := ih hR hrun'
      have hcons : (e :: es).filterMap erase = (erase e).toList ++ es.filterMap erase := by
        cases h : erase e <;> simp [h]
      exact ⟨b, by rw [hcons, run_append, ha', Option.bind_some, hb], hRb⟩

end Erase

end Machine
