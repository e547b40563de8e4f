import Mathlib.Tactic

/-!
Counted loops that a `break` may end: `for (; i < hi; i++) body`.  A round ends with `.yield`, or
with `.done` by a `break`; the counter is part of the result, since programs look at it after the
loop.

* `forLoop_of_lt`, `forLoop_of_le`: the equation of the loop.
* `forLoop_inv`: the invariant rule, with an exit condition for each of the two ways out.
* `forLoop_steps`: the same for a loop without a `break`; `forLoop_push`: one that copies a vector.
* `forLoop_keeps`: the same for a property that every round keeps.
* `logged`: the loop with a log of the rounds that do not break; `forLoop_logged` erases it.
-/

namespace Loop

variable {σ : Type*} {body : ℕ → σ → ForInStep σ} {hi i : ℕ} {s : σ}

/-- At most `n` rounds from the counter `i` on. -/
def rounds (body : ℕ → σ → ForInStep σ) : ℕ → ℕ → σ → σ × ℕ
  | 0, i, s => (s, i)
  | n + 1, i, s =>
      match body i s with
      | .done s' => (s', i)
      | .yield s' => rounds body n (i + 1) s'

/-- `for (; i < hi; i++) body`. -/
def forLoop (hi : ℕ) (body : ℕ → σ → ForInStep σ) (i : ℕ) (s : σ) : σ × ℕ :=
  rounds body (hi - i) i s

lemma forLoop_of_le (h : hi ≤ i) : forLoop hi body i s = (s, i) := by
  rw [forLoop, Nat.sub_eq_zero_of_le h, rounds]

lemma forLoop_of_lt (h : i < hi) :
    forLoop hi body i s =
      match body i s with
      | .done s' => (s', i)
      | .yield s' => forLoop hi body (i + 1) s' := by
  obtain ⟨n, hn⟩ : ∃ n, hi - i = n + 1 := ⟨hi - i - 1, by omega⟩
  rw [forLoop, hn, rounds]
  cases body i s with
  | done s' => rfl
  | yield s' =>
      show rounds body n (i + 1) s' = rounds body (hi - (i + 1)) (i + 1) s'
      rw [show hi - (i + 1) = n by omega]

lemma forLoop_done {s' : σ} (h : i < hi) (hbody : body i s = .done s') :
    forLoop hi body i s = (s', i) := by
  rw [forLoop_of_lt h, hbody]

/-- A loop that ends without a round that changes anything. -/
lemma forLoop_stopped (h : i ≤ hi) (hbody : body i s = .done s) :
    forLoop hi body i s = (s, i) := by
  rcases h.lt_or_eq with hlt | rfl
  · exact forLoop_done hlt hbody
  · exact forLoop_of_le le_rfl

lemma forLoop_yield {s' : σ} (h : i < hi) (hbody : body i s = .yield s') :
    forLoop hi body i s = forLoop hi body (i + 1) s' := by
  rw [forLoop_of_lt h, hbody]

/-- **The invariant rule.**  `P` holds before every round, `Q` at the exit. -/
theorem forLoop_inv (P : ℕ → σ → Prop) (Q : σ → ℕ → Prop) (hle : i ≤ hi) (hs : P i s)
    (hyield : ∀ j u u', i ≤ j → j < hi → P j u → body j u = .yield u' → P (j + 1) u')
    (hdone : ∀ j u u', i ≤ j → j < hi → P j u → body j u = .done u' → Q u' j)
    (hend : ∀ u, P hi u → Q u hi) :
    Q (forLoop hi body i s).1 (forLoop hi body i s).2 := by
  obtain ⟨n, rfl⟩ : ∃ n, hi = i + n := ⟨hi - i, by omega⟩
  clear hle
  induction n generalizing i s with
  | zero =>
      rw [forLoop_of_le (Nat.add_zero i).le]
      exact hend s hs
  | succ n ih =>
      cases hbody : body i s with
      | done s' =>
          rw [forLoop_done (by omega) hbody]
          exact hdone i s s' le_rfl (by omega) hs hbody
      | yield s' =>
          have hs' := hyield i s s' le_rfl (by omega) hs hbody
          rw [forLoop_yield (by omega) hbody, show i + (n + 1) = i + 1 + n by omega]
          refine ih hs' (fun j u u' hj hlt => hyield j u u' (by omega) (by omega))
            (fun j u u' hj hlt => hdone j u u' (by omega) (by omega)) fun u hu => ?_
          rw [show i + 1 + n = i + (n + 1) by omega] at hu ⊢
          exact hend u hu

/-- The rule for a loop without a `break`. -/
theorem forLoop_steps {f : ℕ → σ → σ} (P : ℕ → σ → Prop) (hle : i ≤ hi) (hs : P i s)
    (hstep : ∀ j u, i ≤ j → j < hi → P j u → P (j + 1) (f j u)) :
    P hi (forLoop hi (fun j u => .yield (f j u)) i s).1 := by
  refine forLoop_inv P (fun u _ => P hi u) hle hs (fun j u u' hj hlt hu hbody => ?_)
    (fun j u u' _ _ _ hbody => nomatch hbody) fun u hu => hu
  rw [← ForInStep.yield.inj hbody]
  exact hstep j u hj hlt hu

/-- The rule for a property that every round keeps, however it ends. -/
theorem forLoop_keeps (P : σ → Prop) (hs : P s)
    (hbody : ∀ j u, i ≤ j → j < hi → P u → P (body j u).value) :
    P (forLoop hi body i s).1 := by
  rcases Nat.lt_or_ge hi i with hlt | hle
  · rwa [forLoop_of_le hlt.le]
  · refine forLoop_inv (fun _ u => P u) (fun u _ => P u) hle hs (fun j u u' hj hlt hu h => ?_)
      (fun j u u' hj hlt hu h => ?_) fun _ hu => hu
    · have hvalue := hbody j u hj hlt hu
      rwa [h] at hvalue
    · have hvalue := hbody j u hj hlt hu
      rwa [h] at hvalue

/-- The loop that copies a vector entry by entry. -/
lemma forLoop_push {α : Type*} (l : List α) (d : α) :
    (forLoop l.length (fun i f => .yield (f ++ [l.getD i d])) 0 []).1 = l := by
  have hcopy := forLoop_steps (f := fun i f => f ++ [l.getD i d]) (fun i f => f = l.take i)
    (Nat.zero_le l.length) rfl fun j u _ hj hu => by
      rw [hu, List.take_succ_eq_append_getElem hj, List.getD_eq_getElem?_getD,
        List.getElem?_eq_getElem hj, Option.getD_some]
  rwa [List.take_length] at hcopy

/-! ### Logs -/

section Logged

variable {α : Type*} {mark : ℕ → σ → α}

/-- The body with a log: a round that does not end with a `break` enters its mark. -/
def logged (mark : ℕ → σ → α) (body : ℕ → σ → ForInStep σ) (i : ℕ) (x : σ × List α) :
    ForInStep (σ × List α) :=
  match body i x.1 with
  | .done s => .done (s, x.2)
  | .yield s => .yield (s, x.2 ++ [mark i x.1])

lemma logged_yield {x : σ × List α} {y : σ × List α} :
    logged mark body i x = .yield y ↔ body i x.1 = .yield y.1 ∧ y.2 = x.2 ++ [mark i x.1] := by
  obtain ⟨u, l⟩ := y
  rw [logged]
  cases body i x.1 with
  | done s' => simp
  | yield s' => simp [Prod.ext_iff, eq_comm]

lemma logged_done {x : σ × List α} {y : σ × List α} :
    logged mark body i x = .done y ↔ body i x.1 = .done y.1 ∧ y.2 = x.2 := by
  obtain ⟨u, l⟩ := y
  rw [logged]
  cases body i x.1 with
  | done s' => simp [Prod.ext_iff, eq_comm]
  | yield s' => simp

/-- The log does not change what the loop does. -/
lemma forLoop_logged (hle : i ≤ hi) (l : List α) :
    ((forLoop hi (logged mark body) i (s, l)).1.1, (forLoop hi (logged mark body) i (s, l)).2) =
      forLoop hi body i s := by
  obtain ⟨n, rfl⟩ : ∃ n, hi = i + n := ⟨hi - i, by omega⟩
  clear hle
  induction n generalizing i s l with
  | zero => rw [forLoop_of_le (Nat.add_zero i).le, forLoop_of_le (Nat.add_zero i).le]
  | succ n ih =>
      cases hbody : body i s with
      | done s' =>
          have hlog : logged mark body i (s, l) = .done (s', l) := logged_done.mpr ⟨hbody, rfl⟩
          rw [forLoop_done (by omega) hbody, forLoop_done (by omega) hlog]
      | yield s' =>
          have hlog : logged mark body i (s, l) = .yield (s', l ++ [mark i s]) :=
            logged_yield.mpr ⟨hbody, rfl⟩
          rw [forLoop_yield (by omega) hbody, forLoop_yield (by omega) hlog,
            show i + (n + 1) = i + 1 + n by omega]
          exact ih _

/-- A log of the counter is the range that the loop has gone through. -/
lemma log_counter (hle : i ≤ hi) :
    (forLoop hi (logged (fun j _ => j) body) i (s, [])).1.2 =
      List.range' i ((forLoop hi body i s).2 - i) := by
  have hcount : (forLoop hi (logged (fun j _ => j) body) i (s, ([] : List ℕ))).2 =
      (forLoop hi body i s).2 := congrArg Prod.snd (forLoop_logged hle [])
  rw [← hcount]
  refine forLoop_inv (fun n (x : σ × List ℕ) => x.2 = List.range' i (n - i))
    (fun (x : σ × List ℕ) n => x.2 = List.range' i (n - i)) hle (by simp)
    (fun n x y hn _ hx hbody => ?_) (fun n x y _ _ hx hbody => ?_) fun _ hx => hx
  · rw [(logged_yield.mp hbody).2, hx, Nat.sub_add_comm hn, List.range'_1_concat,
      Nat.add_sub_cancel' hn]
  · rw [(logged_done.mp hbody).2, hx]

end Logged

end Loop
