import Gauge.Base.Machine

/-!
Timers that every item of a stream restarts, and that expire in a gap of the stream.

The timer is created by an item that finds none, and is due `first` later; an item that finds one
makes it due `next` later.  An expiry comes when the timer is due, or up to `slack` after it.

* `burstsOf`: the stream cut at the gaps, from the times of the items alone.
* `trace_eq_scheduled`: if no item comes while an expiry may be under way, then the items and the
  expiries come in the order that `scheduled` reads off the times.
* `burstsOf_of_apart`: in a stream with long gaps only, every item is a burst of its own.
-/

namespace Debounce

open Machine

variable {α : Type*} (first next slack : ℕ)

/-! ### Streams -/

/-- The bursts of a stream, each by its first and its last item, where the timer is due at `due`
and the items `f` to `l` have come. -/
def burstsFrom (f l : α) (due : ℕ) : List (ℕ × α) → List (α × α)
  | [] => [(f, l)]
  | (t, x) :: xs =>
      if t < due then burstsFrom f x (t + next) xs
      else (f, l) :: burstsFrom x x (t + first) xs

def burstsOf : List (ℕ × α) → List (α × α)
  | [] => []
  | (t, x) :: xs => burstsFrom first next x x (t + first) xs

/-- The items, and an expiry (`none`) in every gap and at the end. -/
def scheduledFrom (due : ℕ) : List (ℕ × α) → List (Option α)
  | [] => [none]
  | (t, x) :: xs =>
      if t < due then some x :: scheduledFrom (t + next) xs
      else none :: some x :: scheduledFrom (t + first) xs

def scheduled : List (ℕ × α) → List (Option α)
  | [] => []
  | (t, x) :: xs => some x :: scheduledFrom first next (t + first) xs

/-- No item comes from the time at which the timer is due until `slack` after it. -/
def ClearFrom (due : ℕ) : List (ℕ × α) → Prop
  | [] => True
  | (t, _) :: xs =>
      t < due ∧ ClearFrom (t + next) xs ∨ due + slack < t ∧ ClearFrom (t + first) xs

def Clear : List (ℕ × α) → Prop
  | [] => True
  | (t, _) :: xs => ClearFrom first next slack (t + first) xs

/-! ### The timer -/

/-- The time of the last event, and when the timer is due, if there is one. -/
structure Timer where
  now : ℕ
  due : Option ℕ

/-- An item, or an expiry (`none`). -/
def step (s : Timer) (e : ℕ × Option α) : Option Timer :=
  match e.2, s.due with
  | some _, none => if s.now ≤ e.1 then some ⟨e.1, some (e.1 + first)⟩ else none
  | some _, some d =>
      if s.now ≤ e.1 ∧ e.1 ≤ d + slack then some ⟨e.1, some (e.1 + next)⟩ else none
  | none, some d =>
      if s.now ≤ e.1 ∧ d ≤ e.1 ∧ e.1 ≤ d + slack then some ⟨e.1, none⟩ else none
  | none, none => none

/-- The items of a run. -/
def items (es : List (ℕ × Option α)) : List (ℕ × α) := es.filterMap fun e => e.2.map (e.1, ·)

variable {first next slack} {s s' u : Timer} {es : List (ℕ × Option α)} {t : ℕ} {x : α}

lemma step_item (h : step first next slack s (t, some x) = some s') :
    s.now ≤ t ∧ (s.due = none ∧ s' = ⟨t, some (t + first)⟩ ∨
      ∃ d, s.due = some d ∧ t ≤ d + slack ∧ s' = ⟨t, some (t + next)⟩) := by
  cases hdue : s.due with
  | none =>
      simp only [step, hdue] at h
      split_ifs at h with hnow
      exact ⟨hnow, .inl ⟨rfl, (Option.some_inj.mp h).symm⟩⟩
  | some d =>
      simp only [step, hdue] at h
      split_ifs at h with hnow
      exact ⟨hnow.1, .inr ⟨d, rfl, hnow.2, (Option.some_inj.mp h).symm⟩⟩

lemma step_expiry (h : step first next slack s (t, (none : Option α)) = some s') :
    s.now ≤ t ∧ s' = ⟨t, none⟩ ∧ ∃ d, s.due = some d ∧ d ≤ t := by
  cases hdue : s.due with
  | none =>
      simp only [step, hdue] at h
      cases h
  | some d =>
      simp only [step, hdue] at h
      split_ifs at h with hnow
      exact ⟨hnow.1, (Option.some_inj.mp h).symm, d, rfl, hnow.2.1⟩

lemma now_le_of_step {e : ℕ × Option α} (h : step first next slack s e = some s') :
    s.now ≤ e.1 ∧ s'.now = e.1 := by
  obtain ⟨t, x⟩ := e
  cases x with
  | none =>
      obtain ⟨hnow, rfl, -⟩ := step_expiry h
      exact ⟨hnow, rfl⟩
  | some x =>
      obtain ⟨hnow, ⟨-, rfl⟩ | ⟨d, -, -, rfl⟩⟩ := step_item h <;> exact ⟨hnow, rfl⟩

@[simp] lemma items_item (t : ℕ) (x : α) (es : List (ℕ × Option α)) :
    items ((t, some x) :: es) = (t, x) :: items es := rfl

@[simp] lemma items_expiry (t : ℕ) (es : List (ℕ × Option α)) :
    items ((t, none) :: es) = items es := rfl

/-- Time does not run backwards. -/
lemma now_le_of_mem_items (hrun : run (step first next slack) s es = some u) {y : ℕ × α}
    (hy : y ∈ items es) : s.now ≤ y.1 := by
  induction es generalizing s with
  | nil => cases hy
  | cons e es ih =>
      obtain ⟨s', hstep, hrest⟩ := run_cons_some.mp hrun
      obtain ⟨hnow, hnow'⟩ := now_le_of_step hstep
      obtain ⟨t, x⟩ := e
      cases x with
      | none =>
          rw [items_expiry] at hy
          exact hnow.trans (hnow'.symm.le.trans (ih hrest hy))
      | some x =>
          rw [items_item] at hy
          rcases List.mem_cons.mp hy with rfl | hy
          · exact hnow
          · exact hnow.trans (hnow'.symm.le.trans (ih hrest hy))

/-- **The order of items and expiries**, from any state of the timer. -/
lemma trace_eq (hrun : run (step first next slack) s es = some u) (hu : u.due = none) :
    (s.due = none → Clear first next slack (items es) →
        es.map Prod.snd = scheduled first next (items es)) ∧
      ∀ d, s.due = some d → ClearFrom first next slack d (items es) →
        es.map Prod.snd = scheduledFrom first next d (items es) := by
  induction es generalizing s with
  | nil =>
      obtain rfl := Option.some_inj.mp hrun
      exact ⟨fun _ _ => rfl, fun d hd => absurd (hu.symm.trans hd) (by simp)⟩
  | cons e es ih =>
      obtain ⟨s', hstep, hrest⟩ := run_cons_some.mp hrun
      obtain ⟨ihnone, ihsome⟩ := ih hrest
      obtain ⟨t, x⟩ := e
      cases x with
      | some x =>
          obtain ⟨-, ⟨hdue, rfl⟩ | ⟨d', hdue, hlate, rfl⟩⟩ := step_item hstep
          · refine ⟨fun _ hclear => ?_, fun d hd => absurd (hdue.symm.trans hd) (by simp)⟩
            rw [items_item, scheduled, List.map_cons, ihsome (t + first) rfl hclear]
          · refine ⟨fun hnone => absurd (hdue.symm.trans hnone) (by simp), fun d hd hclear => ?_⟩
            obtain rfl := Option.some_inj.mp (hdue.symm.trans hd)
            rw [items_item, ClearFrom] at hclear
            obtain ⟨hlt, hclear⟩ := hclear.resolve_right fun h => by omega
            rw [items_item, scheduledFrom, if_pos hlt, List.map_cons, ihsome (t + next) rfl hclear]
      | none =>
          obtain ⟨-, rfl, d', hdue, hle⟩ := step_expiry hstep
          refine ⟨fun hnone => absurd (hdue.symm.trans hnone) (by simp), fun d hd hclear => ?_⟩
          obtain rfl := Option.some_inj.mp (hdue.symm.trans hd)
          rw [items_expiry] at hclear ⊢
          rw [List.map_cons]
          cases hitems : items es with
          | nil =>
              rw [hitems] at ihnone
              rw [ihnone rfl trivial]
              rfl
          | cons y xs =>
              -- the next item comes after the expiry
              have hafter : t ≤ y.1 := now_le_of_mem_items hrest (by rw [hitems]; simp)
              rw [hitems, ClearFrom] at hclear
              obtain ⟨-, hclear⟩ := hclear.resolve_left fun h => by omega
              rw [hitems] at ihnone
              rw [ihnone rfl hclear, scheduledFrom, if_neg (by omega), scheduled]

/-- **The order of items and expiries** is that of the times of the items. -/
theorem trace_eq_scheduled (hclear : Clear first next slack (items es)) (hs : s.due = none)
    (hrun : run (step first next slack) s es = some u) (hu : u.due = none) :
    es.map Prod.snd = scheduled first next (items es) :=
  (trace_eq hrun hu).1 hs hclear

/-! ### Long gaps and short gaps -/

/-- Each item comes more than `gap` after the one before. -/
def Apart (gap : ℕ) (xs : List (ℕ × α)) : Prop := xs.IsChain fun a b => a.1 + gap < b.1

lemma burstsFrom_of_apart {f l : α} {t₀ : ℕ} {xs : List (ℕ × α)}
    (h : Apart (first + slack) ((t₀, f) :: xs)) :
    burstsFrom first next f l (t₀ + first) xs = (f, l) :: xs.map fun y => (y.2, y.2) := by
  induction xs generalizing f l t₀ with
  | nil => rfl
  | cons y xs ih =>
      obtain ⟨hgap, hrest⟩ := List.isChain_cons_cons.mp h
      rw [burstsFrom, if_neg (by dsimp only at hgap; omega), ih hrest, List.map_cons]

/-- After long gaps every item is a burst of its own. -/
lemma burstsOf_of_apart {xs : List (ℕ × α)} (h : Apart (first + slack) xs) :
    burstsOf first next xs = xs.map fun y => (y.2, y.2) := by
  cases xs with
  | nil => rfl
  | cons y xs => exact burstsFrom_of_apart h

lemma clearFrom_of_apart {f : α} {t₀ : ℕ} {xs : List (ℕ × α)}
    (h : Apart (first + slack) ((t₀, f) :: xs)) :
    ClearFrom first next slack (t₀ + first) xs := by
  induction xs generalizing f t₀ with
  | nil => trivial
  | cons y xs ih =>
      obtain ⟨hgap, hrest⟩ := List.isChain_cons_cons.mp h
      exact .inr ⟨by dsimp only at hgap; omega, ih hrest⟩

lemma clear_of_apart {xs : List (ℕ × α)} (h : Apart (first + slack) xs) :
    Clear first next slack xs := by
  cases xs with
  | nil => trivial
  | cons y xs => exact clearFrom_of_apart h

end Debounce
