import Gauge.Base.Tally

/-!
The first keys of a stream: what a reader has seen that stops at the `n`-th different key.

The stream comes in lists of at most `cap` keys, each of which may grow at its end.

* `keys_tally`: the keys of a capped tally are the first ones of its votes.
* `firsts_flatten_of_saturated`: where the lists are saturated, growing changes nothing.
* `findSome?_of_saturated`: and each key that has been seen is still found in the same list first.
* `saturated_iff`: they are saturated exactly if a new key at the end of each list that is not full
  changes nothing.
-/

namespace Firsts

variable {κ M : Type*} [DecidableEq κ]

/-- The keys that have been seen after reading some more, up to the one that makes them `n`. -/
def firsts (n : ℕ) (seen : List κ) : List κ → List κ
  | [] => seen
  | k :: ks =>
      if k ∈ seen then firsts n seen ks
      else if seen.length + 1 = n then seen ++ [k]
      else firsts n (seen ++ [k]) ks

variable {n cap : ℕ} {seen ks ks' : List κ} {k d : κ}

/-- The keys of a tally are the first keys of the votes. -/
lemma keys_tally [AddCommMonoid M] (cap : ℕ) (b vs : List (κ × M)) :
    Tally.keys (Tally.tally cap b vs) = firsts cap (Tally.keys b) (Tally.keys vs) := by
  induction vs generalizing b with
  | nil => rfl
  | cons v vs ih =>
      rw [Tally.tally, Tally.keys_cons, firsts]
      by_cases hmem : v.1 ∈ Tally.keys b
      · rw [if_neg (fun h => h.1 hmem), if_pos hmem, ih, Tally.keys_cast, if_pos hmem]
      · have hcast : Tally.keys (Tally.cast v b) = Tally.keys b ++ [v.1] := by
          rw [Tally.keys_cast, if_neg hmem]
        rw [if_neg hmem, Tally.length_cast_of_notMem hmem, Tally.length_keys]
        by_cases hfull : b.length + 1 = cap
        · rw [if_pos ⟨hmem, hfull⟩, if_pos hfull, hcast]
        · rw [if_neg (fun h => hfull h.2), if_neg hfull, ih, hcast]

lemma prefix_firsts (n : ℕ) (seen ks : List κ) : seen <+: firsts n seen ks := by
  induction ks generalizing seen with
  | nil => exact List.prefix_rfl
  | cons k ks ih =>
      rw [firsts]
      split_ifs
      · exact ih seen
      · exact List.prefix_append _ _
      · exact (List.prefix_append _ _).trans (ih _)

lemma mem_firsts (h : d ∈ firsts n seen ks) : d ∈ seen ∨ d ∈ ks := by
  induction ks generalizing seen with
  | nil => exact .inl h
  | cons k ks ih =>
      rw [firsts] at h
      split_ifs at h with hmem hfull
      · exact (ih h).imp_right (List.mem_cons_of_mem _)
      · rcases List.mem_append.mp h with h | h
        · exact .inl h
        · exact .inr (List.mem_singleton.mp h ▸ List.mem_cons_self)
      · rcases ih h with h | h
        · rcases List.mem_append.mp h with h | h
          · exact .inl h
          · exact .inr (List.mem_singleton.mp h ▸ List.mem_cons_self)
        · exact .inr (List.mem_cons_of_mem _ h)

/-- The first key that is read has been seen. -/
lemma mem_firsts_cons : k ∈ firsts n seen (k :: ks) := by
  rw [firsts]
  split_ifs with hmem
  · exact (prefix_firsts n seen ks).subset hmem
  · exact List.mem_append_right _ (List.mem_singleton_self k)
  · exact (prefix_firsts n _ ks).subset (List.mem_append_right _ (List.mem_singleton_self k))

lemma length_firsts_le (h : seen.length < n) : (firsts n seen ks).length ≤ n := by
  induction ks generalizing seen with
  | nil => exact h.le
  | cons k ks ih =>
      rw [firsts]
      split_ifs with hmem hfull
      · exact ih h
      · rw [List.length_append, List.length_singleton, hfull]
      · refine ih ?_
        rw [List.length_append, List.length_singleton]
        omega

/-- A reader that has seen `n` keys has stopped. -/
lemma firsts_append (h : seen.length < n) :
    firsts n seen (ks ++ ks') =
      if (firsts n seen ks).length = n then firsts n seen ks
      else firsts n (firsts n seen ks) ks' := by
  induction ks generalizing seen with
  | nil => rw [List.nil_append, firsts, if_neg h.ne]
  | cons k ks ih =>
      by_cases hmem : k ∈ seen
      · simp only [List.cons_append, firsts, if_pos hmem]
        exact ih h
      · have hlen : (seen ++ [k]).length = seen.length + 1 := by
          rw [List.length_append, List.length_singleton]
        by_cases hfull : seen.length + 1 = n
        · simp only [List.cons_append, firsts, if_neg hmem, if_pos hfull, hlen]
        · simp only [List.cons_append, firsts, if_neg hmem, if_neg hfull]
          exact ih (by omega)

/-! ### Lists that grow -/

/-- Each list is full until `n` keys have been seen. -/
def Saturated (cap n : ℕ) : List κ → List (List κ) → Prop
  | _, [] => True
  | seen, l :: ls =>
      (firsts n seen l).length = n ∨ l.length = cap ∧ Saturated cap n (firsts n seen l) ls

instance : ∀ (seen : List κ) (ls : List (List κ)), Decidable (Saturated cap n seen ls)
  | _, [] => inferInstanceAs (Decidable True)
  | seen, l :: ls =>
      have := instDecidableSaturated (firsts n seen l) ls
      inferInstanceAs (Decidable (_ ∨ _ ∧ _))

/-- **Saturated lists stay as they are** for the reader, however they grow. -/
theorem firsts_flatten_of_saturated {ls ls' : List (List κ)} (hseen : seen.length < n)
    (hsat : Saturated cap n seen ls)
    (hgrow : List.Forall₂ (fun l l' => l <+: l' ∧ l'.length ≤ cap) ls ls') :
    firsts n seen ls'.flatten = firsts n seen ls.flatten := by
  induction hgrow generalizing seen with
  | nil => rfl
  | @cons l l' ls ls' hl hls ih =>
      obtain ⟨⟨t, rfl⟩, hcap⟩ := hl
      rw [List.flatten_cons, List.flatten_cons]
      by_cases hstop : (firsts n seen l).length = n
      · rw [List.append_assoc, firsts_append hseen, firsts_append hseen, if_pos hstop, if_pos hstop]
      · -- the list is full, and the reader goes on
        obtain ⟨hfull, hsat⟩ := hsat.resolve_left hstop
        have ht : t = [] := by
          rw [List.length_append] at hcap
          exact List.length_eq_zero_iff.mp (by omega)
        subst ht
        have hlt : (firsts n seen l).length < n :=
          lt_of_le_of_ne (length_firsts_le hseen) hstop
        rw [List.append_nil, firsts_append hseen, firsts_append hseen, if_neg hstop, if_neg hstop,
          ih hlt hsat]

/-- A key that has been seen is found first where it was, and what `g` has for it there stays. -/
lemma findSome?_of_saturated {α β : Type*} {as : List α} {f f' : α → List κ} {g g' : α → Option β}
    (hseen : seen.length < n) (hsat : Saturated cap n seen (as.map f))
    (hgrow : ∀ a ∈ as, f a <+: f' a ∧ (f' a).length ≤ cap)
    (hg : ∀ a ∈ as, d ∈ f a → (g a).isSome = true ∧ g' a = g a) (hnew : d ∉ seen)
    (hd : d ∈ firsts n seen (as.map f).flatten) :
    as.findSome? (fun a => if d ∈ f' a then g' a else none) =
      as.findSome? fun a => if d ∈ f a then g a else none := by
  induction as generalizing seen with
  | nil => rfl
  | cons a as ih =>
      obtain ⟨⟨t, ht⟩, hcap⟩ := hgrow a List.mem_cons_self
      rw [List.findSome?_cons, List.findSome?_cons]
      by_cases hmem : d ∈ f a
      · have hmem' : d ∈ f' a := ht ▸ List.mem_append_left t hmem
        obtain ⟨hsome, hsame⟩ := hg a List.mem_cons_self hmem
        obtain ⟨b, hb⟩ := Option.isSome_iff_exists.mp hsome
        rw [if_pos hmem, if_pos hmem', hsame, hb]
      · -- the reader has gone on, so that the list is full
        rw [List.map_cons, List.flatten_cons, firsts_append hseen] at hd
        have hpast : d ∉ firsts n seen (f a) := fun h => (mem_firsts h).elim hnew hmem
        have hstop : (firsts n seen (f a)).length ≠ n := fun hstop =>
          hpast (by rwa [if_pos hstop] at hd)
        obtain ⟨hfull, hsat⟩ := hsat.resolve_left hstop
        have hsame : f' a = f a := by
          rw [← ht, List.length_append] at hcap
          rw [← ht, List.length_eq_zero_iff.mp (show t.length = 0 by omega), List.append_nil]
        have hlt : (firsts n seen (f a)).length < n := lt_of_le_of_ne (length_firsts_le hseen) hstop
        rw [if_neg hstop] at hd
        rw [hsame, if_neg hmem, if_neg hmem]
        exact ih hlt hsat (fun b hb => hgrow b (List.mem_cons_of_mem _ hb))
          (fun b hb => hg b (List.mem_cons_of_mem _ hb)) hpast hd

/-- A list with one more key, if there is room. -/
def grow (cap : ℕ) (d : κ) (l : List κ) : List κ := if l.length < cap then l ++ [d] else l

/-- Where the lists are not saturated, the reader sees a key that is put into each of them. -/
lemma mem_firsts_grow {ls : List (List κ)} (hseen : seen.length < n)
    (hcap : ∀ l ∈ ls, l.length ≤ cap) (hsat : ¬ Saturated cap n seen ls) :
    d ∈ firsts n seen (ls.map (grow cap d)).flatten := by
  induction ls generalizing seen with
  | nil => exact absurd trivial hsat
  | cons l ls ih =>
      obtain ⟨hstop, hsat⟩ := not_or.mp hsat
      have hlt : (firsts n seen l).length < n :=
        lt_of_le_of_ne (length_firsts_le hseen) hstop
      rw [List.map_cons, List.flatten_cons]
      by_cases hfull : l.length < cap
      · rw [grow, if_pos hfull, List.append_assoc, firsts_append hseen, if_neg hstop]
        exact mem_firsts_cons
      · have heq : l.length = cap := by
          have hle := hcap l List.mem_cons_self
          omega
        rw [grow, if_neg hfull, firsts_append hseen, if_neg hstop]
        exact ih hlt (fun l hl => hcap l (List.mem_cons_of_mem _ hl)) fun h => hsat ⟨heq, h⟩

/-- **When growing changes nothing**: exactly if a new key at the end of each list does not. -/
theorem saturated_iff {ls : List (List κ)} (hseen : seen.length < n)
    (hcap : ∀ l ∈ ls, l.length ≤ cap) (hd : d ∉ seen) (hd' : d ∉ ls.flatten) :
    Saturated cap n seen ls ↔
      ∀ k ∈ firsts n seen (ls.map (grow cap d)).flatten, k ∈ firsts n seen ls.flatten := by
  constructor
  · intro hsat
    have hgrow : List.Forall₂ (fun l l' => l <+: l' ∧ l'.length ≤ cap) ls
        (ls.map (grow cap d)) := by
      refine List.forall₂_map_right_iff.mpr (List.forall₂_same.mpr fun l hl => ?_)
      rw [grow]
      split_ifs with hlt
      · refine ⟨List.prefix_append _ _, ?_⟩
        rw [List.length_append, List.length_singleton]
        omega
      · exact ⟨List.prefix_rfl, hcap l hl⟩
    rw [firsts_flatten_of_saturated hseen hsat hgrow]
    exact fun _ hk => hk
  · intro h
    by_contra hsat
    exact (mem_firsts (h d (mem_firsts_grow hseen hcap hsat))).elim hd hd'

end Firsts
