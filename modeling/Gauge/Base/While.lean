import Mathlib.Tactic

/-!
While loops that end because a measure decreases.  `whileLoop` runs the body as often as the
measure of the start state allows; `whileLoop_eq` is the equation of the loop, so that this
bound is never felt.  `whileLoop_map` relates two loops that take the same rounds.
-/

namespace While

variable {σ : Type*} (cond : σ → Bool) (body : σ → σ) (μ : σ → ℕ)

/-- At most `n` rounds of `while (cond) body`. -/
def rounds : ℕ → σ → σ
  | 0, s => s
  | n + 1, s => if cond s then rounds n (body s) else s

/-- `while (cond) body`, for a body that decreases `μ`. -/
def whileLoop (s : σ) : σ := rounds cond body (μ s) s

variable {cond body μ}

/-- From the measure on, more rounds make no difference. -/
lemma rounds_eq_rounds (hμ : ∀ s, cond s = true → μ (body s) < μ s) {n m : ℕ} {s : σ}
    (hn : μ s ≤ n) (hm : μ s ≤ m) : rounds cond body n s = rounds cond body m s := by
  induction n generalizing m s with
  | zero =>
      cases m with
      | zero => rfl
      | succ m =>
          rw [rounds, rounds, if_neg]
          intro hc
          have := hμ s hc
          omega
  | succ n ih =>
      cases hc : cond s with
      | false => cases m <;> simp [rounds, hc]
      | true =>
          have hlt := hμ s hc
          obtain ⟨m, rfl⟩ : ∃ k, m = k + 1 := ⟨m - 1, by omega⟩
          rw [rounds, rounds, if_pos hc, if_pos hc]
          exact ih (by omega) (by omega)

/-- **The equation of the loop.** -/
theorem whileLoop_eq (hμ : ∀ s, cond s = true → μ (body s) < μ s) (s : σ) :
    whileLoop cond body μ s = if cond s then whileLoop cond body μ (body s) else s := by
  cases hc : cond s with
  | false => cases h : μ s <;> simp [whileLoop, rounds, h, hc]
  | true =>
      have hlt := hμ s hc
      obtain ⟨k, hk⟩ : ∃ k, μ s = k + 1 := ⟨μ s - 1, by omega⟩
      rw [whileLoop, hk, rounds, if_pos hc, if_pos rfl]
      exact rounds_eq_rounds hμ (by omega) le_rfl

/-- **Two loops in step**: `f` takes each state of the one to a state of the other. -/
theorem whileLoop_map {τ : Type*} {cond' : τ → Bool} {body' : τ → τ} {μ' : τ → ℕ} {f : σ → τ}
    (hcond : ∀ s, cond' (f s) = cond s) (hbody : ∀ s, body' (f s) = f (body s))
    (hμ : ∀ s, μ' (f s) = μ s) (s : σ) :
    whileLoop cond' body' μ' (f s) = f (whileLoop cond body μ s) := by
  rw [whileLoop, whileLoop, hμ]
  induction μ s generalizing s with
  | zero => rfl
  | succ n ih =>
      rw [rounds, rounds, hcond, hbody, ih]
      exact (apply_ite f _ _ _).symm

end While
