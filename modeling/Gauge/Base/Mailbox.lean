import Gauge.Base.Machine

/-!
A mailbox with one slot and a flag, between a writer and a reader.  The writer overwrites the
slot and sets the flag; setting a flag that is set has no effect.  The reader waits for the flag,
which resets it, and takes the value of the slot in a later step.

* `outlook`: what the reader will have taken if nothing more is put.
* `taken_iff_timely`: the reader takes every value once and in order exactly if every value
  is put while the flag is not set, and never under the hands of a reader that is about to take
  another value.
-/

namespace Mailbox

open Machine

variable {α : Type*}

/-- The slot and the flag, whether the reader is between its wait and its take, and what it
has taken. -/
structure Box (α : Type*) where
  slot : α
  isSet : Bool
  awake : Bool
  taken : List α

/-- A step of the writer or of the reader. -/
inductive Act (α : Type*)
  | put (x : α)
  | wake
  | take

/-- One step.  The reader can neither wake without the flag nor take before it is awake. -/
def step (b : Box α) : Act α → Option (Box α)
  | .put x => some { b with slot := x, isSet := true }
  | .wake =>
      if b.awake = false ∧ b.isSet = true then some { b with isSet := false, awake := true }
      else none
  | .take =>
      if b.awake = true then some { b with awake := false, taken := b.taken ++ [b.slot] }
      else none

/-- The values put, in their order. -/
def sent (acts : List (Act α)) : List α :=
  acts.filterMap fun
    | .put x => some x
    | .wake => none
    | .take => none

/-- Nothing is on its way. -/
def Box.Idle (b : Box α) : Prop := b.isSet = false ∧ b.awake = false

/-- The step does not put a value on top of one that is still to be taken. -/
def Timely (b : Box α) : Act α → Prop
  | .put x => b.isSet = false ∧ (b.awake = true → x = b.slot)
  | .wake => True
  | .take => True

/-- What the reader will have taken if nothing more is put. -/
def outlook (b : Box α) : List α :=
  b.taken ++ List.replicate (b.awake.toNat + b.isSet.toNat) b.slot

lemma outlook_of_idle {b : Box α} (h : b.Idle) : outlook b = b.taken := by
  simp [outlook, h.1, h.2]

/-- The steps of the reader only fulfil the outlook, and there must be something to take. -/
lemma reader_step {b b' : Box α} {a : Act α} (ha : ∀ x, a ≠ .put x) (h : step b a = some b') :
    outlook b' = outlook b ∧ b'.slot = b.slot ∧ (b.awake = true ∨ b.isSet = true) := by
  cases a with
  | put x => exact absurd rfl (ha x)
  | wake =>
      rw [step] at h
      split at h
      · rename_i hb
        obtain rfl := Option.some_inj.mp h
        exact ⟨by simp [outlook, hb.1, hb.2], rfl, Or.inr hb.2⟩
      · exact absurd h (by simp)
  | take =>
      rw [step] at h
      split at h
      · rename_i hb
        obtain rfl := Option.some_inj.mp h
        refine ⟨?_, rfl, Or.inl hb⟩
        simp [outlook, hb, Nat.add_comm 1, List.replicate_succ]
      · exact absurd h (by simp)

/-- The slot holds the last value put as long as it is to be taken, and no more values are
to be taken than were put. -/
structure Sound (acts : List (Act α)) (b : Box α) : Prop where
  length_le : (outlook b).length ≤ (sent acts).length
  last : b.awake = true ∨ b.isSet = true → (sent acts).getLast? = some b.slot

@[simp] lemma sent_concat_put (acts : List (Act α)) (x : α) :
    sent (acts ++ [.put x]) = sent acts ++ [x] := List.filterMap_append

lemma sent_concat_reader (acts : List (Act α)) {a : Act α} (ha : ∀ x, a ≠ .put x) :
    sent (acts ++ [a]) = sent acts := by
  cases a with
  | put x => exact absurd rfl (ha x)
  | wake => simp [sent]
  | take => simp [sent]

/-- A put onto an idle slot, or one that repeats the value of the slot, keeps the outlook
right; every other put spoils it. -/
lemma outlook_put_iff {acts : List (Act α)} {b b' : Box α} {x : α} (hb : Sound acts b)
    (h : step b (.put x) = some b') :
    outlook b' = sent acts ++ [x] ↔ outlook b = sent acts ∧ Timely b (.put x) := by
  obtain rfl := Option.some_inj.mp h
  rcases Bool.eq_false_or_eq_true b.isSet with hset | hset
  · -- the value in the slot is lost
    have hlen : (outlook { b with slot := x, isSet := true }).length = (outlook b).length := by
      simp [outlook, hset]
    refine iff_of_false (fun heq => ?_) fun h => by simp [Timely, hset] at h
    have hle := hb.length_le
    rw [← hlen, heq, List.length_append, List.length_singleton] at hle
    omega
  rcases Bool.eq_false_or_eq_true b.awake with hawake | hawake
  · -- the reader takes the new value in place of the old one
    have hlast := hb.last (Or.inl hawake)
    have hnew : outlook { b with slot := x, isSet := true } = b.taken ++ [x] ++ [x] := by
      simp [outlook, hawake, List.replicate_succ]
    have hold : outlook b = b.taken ++ [b.slot] := by simp [outlook, hset, hawake]
    rw [hnew, hold, List.append_left_inj]
    constructor
    · intro heq
      rw [← heq, List.getLast?_concat, Option.some_inj] at hlast
      exact ⟨by rw [← hlast, heq], hset, fun _ => hlast⟩
    · rintro ⟨heq, -, hx⟩
      rw [hx hawake, heq]
  · simp [outlook, Timely, hset, hawake]

lemma sound_reader {acts : List (Act α)} {b b' : Box α} {a : Act α} (hb : Sound acts b)
    (ha : ∀ x, a ≠ .put x) (h : step b a = some b') : Sound (acts ++ [a]) b' := by
  obtain ⟨hout, hslot, htake⟩ := reader_step ha h
  refine ⟨?_, fun _ => ?_⟩
  · rw [sent_concat_reader acts ha, hout]
    exact hb.length_le
  · rw [sent_concat_reader acts ha, hslot]
    exact hb.last htake

lemma sound_step {acts : List (Act α)} {b b' : Box α} {a : Act α} (hb : Sound acts b)
    (h : step b a = some b') : Sound (acts ++ [a]) b' := by
  cases a with
  | put x =>
      obtain rfl := Option.some_inj.mp h
      refine ⟨?_, fun _ => by simp⟩
      have hle := hb.length_le
      simp only [outlook, sent_concat_put, List.length_append, List.length_replicate,
        List.length_singleton, Bool.toNat_true] at hle ⊢
      omega
  | wake => exact sound_reader hb (by simp) h
  | take => exact sound_reader hb (by simp) h

/-- What a step does to the outlook. -/
lemma outlook_step_iff {acts : List (Act α)} {b b' : Box α} {a : Act α} (hb : Sound acts b)
    (h : step b a = some b') :
    outlook b' = sent (acts ++ [a]) ↔ outlook b = sent acts ∧ Timely b a := by
  have hreader : ∀ {a : Act α}, (∀ x, a ≠ .put x) → step b a = some b' →
      (outlook b' = sent (acts ++ [a]) ↔ outlook b = sent acts) := by
    intro a ha h
    rw [(reader_step ha h).1, sent_concat_reader acts ha]
  cases a with
  | put x => simpa using outlook_put_iff hb h
  | wake => rw [hreader (by simp) h, Timely, and_true]
  | take => rw [hreader (by simp) h, Timely, and_true]

/-- **Every value once and in order**: exactly if every put of the run is timely. -/
theorem taken_iff_timely {b b' : Box α} {acts : List (Act α)} (hb : b.Idle)
    (hempty : b.taken = []) (hrun : run step b acts = some b') (hb' : b'.Idle) :
    b'.taken = sent acts ↔ Along step Timely b acts := by
  have hstart : outlook b = [] := by rw [outlook_of_idle hb, hempty]
  rw [← outlook_of_idle hb']
  refine final_iff_along (I := Sound) (Q := fun acts b => outlook b = sent acts)
    (fun acts b a b' hsound h => ⟨sound_step hsound h, outlook_step_iff hsound h⟩) ?_ hstart hrun
  refine ⟨by simp [hstart], fun h => ?_⟩
  rcases h with h | h
  · exact absurd h (by simp [hb.2])
  · exact absurd h (by simp [hb.1])

end Mailbox
