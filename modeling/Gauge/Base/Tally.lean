import Mathlib.Tactic

/-!
Weighted votes and capped tallies.  A vote is a key with a weight.  `cast` adds a vote to a
book of keys with their weights so far, `tally cap` reads votes into a book until the book
has `cap` keys and then stops, whatever votes are left.

* `counted` and `unread` cut the votes at the point where the tally stops, and
  `tally_eq_book` says that the tally is the full book of the votes it counted.
* `mem_book`: a book holds each key once, with the total of its votes.
* `tally_length`: a tally holds `cap` keys, or all of them if there are fewer.
* `total_pos`, `sum_tally_le`: tallies of positive votes.
* `tally_exact_iff`: what stopping costs.  The book is right about all the votes, and no
  key outside beats a key inside, exactly if the unread votes cancel for the keys inside
  and stay below them for the keys outside.
-/

namespace Tally

variable {κ M : Type*}

/-- The keys of a list of votes, or of a book. -/
def keys (vs : List (κ × M)) : List κ := vs.map Prod.fst

@[simp] lemma keys_nil : keys ([] : List (κ × M)) = [] := rfl

@[simp] lemma keys_cons (v : κ × M) (vs : List (κ × M)) : keys (v :: vs) = v.1 :: keys vs := rfl

@[simp] lemma keys_append (vs ws : List (κ × M)) : keys (vs ++ ws) = keys vs ++ keys ws :=
  List.map_append

lemma mem_keys_of_mem {v : κ × M} {vs : List (κ × M)} (h : v ∈ vs) : v.1 ∈ keys vs :=
  List.mem_map_of_mem h

lemma keys_perm {vs ws : List (κ × M)} (h : vs.Perm ws) : (keys vs).Perm (keys ws) := h.map _

lemma length_keys (vs : List (κ × M)) : (keys vs).length = vs.length := List.length_map _

section Books

variable [DecidableEq κ] [AddCommMonoid M]

/-- The total weight of the votes for `k`. -/
def total (vs : List (κ × M)) (k : κ) : M :=
  ((vs.filter fun v => v.1 = k).map Prod.snd).sum

/-- Add a vote to a book: to the entry of its key, or as a new entry at the end. -/
def cast (v : κ × M) : List (κ × M) → List (κ × M)
  | [] => [v]
  | e :: es => if e.1 = v.1 then (e.1, e.2 + v.2) :: es else e :: cast v es

/-- The book of a list of votes. -/
def book (vs : List (κ × M)) : List (κ × M) := vs.foldl (fun b v => cast v b) []

/-- Read votes into the book `b` until a new key makes it `cap` entries long. -/
def tally (cap : ℕ) (b : List (κ × M)) : List (κ × M) → List (κ × M)
  | [] => b
  | v :: vs =>
      if v.1 ∉ keys b ∧ (cast v b).length = cap then cast v b else tally cap (cast v b) vs

/-- The votes read by a tally that has seen the keys `seen`: up to the one that brings the
`cap`-th key. -/
def counted (cap : ℕ) (seen : List κ) : List (κ × M) → List (κ × M)
  | [] => []
  | v :: vs =>
      if v.1 ∈ seen then v :: counted cap seen vs
      else if seen.length + 1 = cap then [v]
      else v :: counted cap (seen ++ [v.1]) vs

/-- The votes left when the tally stops. -/
def unread (cap : ℕ) (seen : List κ) : List (κ × M) → List (κ × M)
  | [] => []
  | v :: vs =>
      if v.1 ∈ seen then unread cap seen vs
      else if seen.length + 1 = cap then vs
      else unread cap (seen ++ [v.1]) vs

/-! ### Books -/

lemma total_append (vs ws : List (κ × M)) (k : κ) :
    total (vs ++ ws) k = total vs k + total ws k := by
  rw [total, List.filter_append, List.map_append, List.sum_append]
  rfl

@[simp] lemma total_nil (k : κ) : total ([] : List (κ × M)) k = 0 := rfl

lemma total_cons (v : κ × M) (vs : List (κ × M)) (k : κ) :
    total (v :: vs) k = (if v.1 = k then v.2 else 0) + total vs k := by
  by_cases h : v.1 = k <;> simp [total, h]

lemma total_eq_zero_of_notMem {vs : List (κ × M)} {k : κ} (h : k ∉ keys vs) : total vs k = 0 := by
  induction vs with
  | nil => rfl
  | cons v vs ih =>
      rw [keys_cons, List.mem_cons, not_or] at h
      rw [total_cons, if_neg (Ne.symm h.1), ih h.2, add_zero]

lemma keys_cast (v : κ × M) (b : List (κ × M)) :
    keys (cast v b) = if v.1 ∈ keys b then keys b else keys b ++ [v.1] := by
  induction b with
  | nil => simp [cast]
  | cons e es ih =>
      rw [cast]
      by_cases h : e.1 = v.1
      · simp [h]
      · have h' : ¬ v.1 = e.1 := fun h' => h h'.symm
        by_cases hm : v.1 ∈ keys es <;> simp [h, h', ih, hm]

lemma length_cast_of_mem {v : κ × M} {b : List (κ × M)} (h : v.1 ∈ keys b) :
    (cast v b).length = b.length := by
  rw [← length_keys, keys_cast, if_pos h, length_keys]

lemma length_cast_of_notMem {v : κ × M} {b : List (κ × M)} (h : v.1 ∉ keys b) :
    (cast v b).length = b.length + 1 := by
  rw [← length_keys, keys_cast, if_neg h, List.length_append, length_keys, List.length_singleton]

lemma nodup_keys_cast (v : κ × M) {b : List (κ × M)} (hb : (keys b).Nodup) :
    (keys (cast v b)).Nodup := by
  rw [keys_cast]
  split
  · exact hb
  · exact List.nodup_append.mpr ⟨hb, List.nodup_singleton _, fun x hx y hy hxy => by
      rw [List.mem_singleton.mp hy] at hxy
      exact ‹v.1 ∉ keys b› (hxy ▸ hx)⟩

lemma sum_cast (v : κ × M) (b : List (κ × M)) :
    ((cast v b).map Prod.snd).sum = (b.map Prod.snd).sum + v.2 := by
  induction b with
  | nil => simp [cast]
  | cons e es ih =>
      rw [cast]
      split
      · simp only [List.map_cons, List.sum_cons]; abel
      · simp only [List.map_cons, List.sum_cons, ih]; abel

/-- Casting one vote moves the total of its key, and of no other. -/
lemma total_cast (v : κ × M) (b : List (κ × M)) (k : κ) :
    total (cast v b) k = total b k + if v.1 = k then v.2 else 0 := by
  induction b with
  | nil => by_cases h : v.1 = k <;> simp [cast, total, h]
  | cons e es ih =>
      rw [cast]
      by_cases h : e.1 = v.1
      · rw [if_pos h, total_cons, total_cons]
        by_cases hk : v.1 = k
        · simp only [h, hk, if_true]; abel
        · simp [h, hk]
      · rw [if_neg h, total_cons, total_cons, ih, add_assoc]

/-- In a list with distinct keys an entry is the total of its key. -/
lemma total_eq_of_mem {b : List (κ × M)} (hb : (keys b).Nodup) {e : κ × M} (he : e ∈ b) :
    total b e.1 = e.2 := by
  induction b with
  | nil => simp at he
  | cons f fs ih =>
      rw [keys_cons, List.nodup_cons] at hb
      rcases List.mem_cons.mp he with rfl | he
      · rw [total_cons, if_pos rfl, total_eq_zero_of_notMem hb.1, add_zero]
      · have hne : f.1 ≠ e.1 := fun h => hb.1 (h ▸ mem_keys_of_mem he)
        rw [total_cons, if_neg hne, zero_add, ih hb.2 he]

lemma book_concat (vs : List (κ × M)) (v : κ × M) : book (vs ++ [v]) = cast v (book vs) := by
  rw [book, List.foldl_append]
  rfl

lemma nodup_keys_book (vs : List (κ × M)) : (keys (book vs)).Nodup := by
  induction vs using List.reverseRecOn with
  | nil => exact List.nodup_nil
  | append_singleton vs v ih =>
      rw [book_concat]
      exact nodup_keys_cast v ih

lemma mem_keys_book {vs : List (κ × M)} {k : κ} : k ∈ keys (book vs) ↔ k ∈ keys vs := by
  induction vs using List.reverseRecOn with
  | nil => rfl
  | append_singleton vs v ih =>
      rw [book_concat, keys_cast, keys_append, List.mem_append, ← ih]
      split
      · rename_i h
        simp only [keys_cons, keys_nil, List.mem_singleton]
        exact ⟨Or.inl, fun h' => h'.elim id fun h'' => h'' ▸ h⟩
      · simp

lemma total_book (vs : List (κ × M)) (k : κ) : total (book vs) k = total vs k := by
  induction vs using List.reverseRecOn with
  | nil => rfl
  | append_singleton vs v ih =>
      rw [book_concat, total_cast, ih, total_append, total_cons, total_nil, add_zero]

/-- **A book holds each key once, with the total of its votes.** -/
theorem mem_book {vs : List (κ × M)} {e : κ × M} (he : e ∈ book vs) :
    e.1 ∈ keys vs ∧ e.2 = total vs e.1 :=
  ⟨mem_keys_book.mp (mem_keys_of_mem he),
    by rw [← total_book, total_eq_of_mem (nodup_keys_book vs) he]⟩

lemma sum_book (vs : List (κ × M)) : ((book vs).map Prod.snd).sum = (vs.map Prod.snd).sum := by
  induction vs using List.reverseRecOn with
  | nil => rfl
  | append_singleton vs v ih => rw [book_concat, sum_cast, ih]; simp

/-! ### Tallies -/

omit [AddCommMonoid M] in
lemma counted_append_unread (cap : ℕ) (seen : List κ) (vs : List (κ × M)) :
    counted cap seen vs ++ unread cap seen vs = vs := by
  induction vs generalizing seen with
  | nil => rfl
  | cons v vs ih =>
      rw [counted, unread]
      split_ifs
      · rw [List.cons_append, ih]
      · rfl
      · rw [List.cons_append, ih]

omit [AddCommMonoid M] in
/-- Only votes are counted. -/
lemma counted_subset (cap : ℕ) (seen : List κ) (vs : List (κ × M)) :
    counted cap seen vs ⊆ vs := fun v hv => by
  rw [← counted_append_unread cap seen vs]
  exact List.mem_append_left _ hv

lemma tally_eq_foldl (cap : ℕ) (b vs : List (κ × M)) :
    tally cap b vs = (counted cap (keys b) vs).foldl (fun b v => cast v b) b := by
  induction vs generalizing b with
  | nil => rfl
  | cons v vs ih =>
      rw [tally, counted]
      by_cases hmem : v.1 ∈ keys b
      · rw [if_neg (fun h => h.1 hmem), if_pos hmem, ih, keys_cast, if_pos hmem]
        rfl
      · rw [if_neg hmem, length_cast_of_notMem hmem, length_keys]
        by_cases hcap : b.length + 1 = cap
        · rw [if_pos ⟨hmem, hcap⟩, if_pos hcap]
          rfl
        · rw [if_neg (fun h => hcap h.2), if_neg hcap, ih, keys_cast, if_neg hmem]
          rfl

/-- The tally is the full book of the votes it counted. -/
lemma tally_eq_book (cap : ℕ) (vs : List (κ × M)) :
    tally cap [] vs = book (counted cap [] vs) :=
  tally_eq_foldl cap [] vs

/-- Each key of a tally has a vote. -/
lemma mem_keys_of_mem_keys_tally {cap : ℕ} {vs : List (κ × M)} {k : κ}
    (hk : k ∈ keys (tally cap [] vs)) : k ∈ keys vs := by
  rw [tally_eq_book, mem_keys_book] at hk
  exact List.map_subset _ (counted_subset cap [] vs) hk

/-- A tally from a book of fewer than `cap` keys ends with `cap` keys, or with all of them. -/
lemma tally_length_aux {cap : ℕ} (vs : List (κ × M)) {b : List (κ × M)} (hb : (keys b).Nodup)
    (hcap : b.length < cap) :
    (tally cap b vs).length = min cap (keys b ++ keys vs).toFinset.card := by
  induction vs generalizing b with
  | nil =>
      rw [tally, keys_nil, List.append_nil, List.toFinset_card_of_nodup hb, length_keys]
      omega
  | cons v vs ih =>
      rw [tally]
      by_cases hmem : v.1 ∈ keys b
      · have hset : (keys b ++ keys (v :: vs)).toFinset = (keys b ++ keys vs).toFinset := by
          ext k
          simp only [keys_cons, List.mem_toFinset, List.mem_append, List.mem_cons]
          exact ⟨fun h => h.elim Or.inl fun h => h.elim (fun h => Or.inl (h ▸ hmem)) Or.inr,
            fun h => h.imp_right Or.inr⟩
        rw [if_neg (fun h => h.1 hmem), ih (nodup_keys_cast v hb) (by
          rw [length_cast_of_mem hmem]; exact hcap), keys_cast, if_pos hmem, hset]
      · have hnodup := nodup_keys_cast v hb
        have hkeys : keys (cast v b) = keys b ++ [v.1] := by rw [keys_cast, if_neg hmem]
        have hlen := length_cast_of_notMem hmem
        by_cases hfull : (cast v b).length = cap
        · have hle : cap ≤ (keys b ++ keys (v :: vs)).toFinset.card := by
            rw [← hfull, ← length_keys, ← List.toFinset_card_of_nodup hnodup, hkeys]
            refine Finset.card_le_card fun k hk => ?_
            simp only [keys_cons, List.mem_toFinset, List.mem_append, List.mem_cons,
              List.not_mem_nil, or_false] at hk ⊢
            exact hk.imp_right Or.inl
          rw [if_pos ⟨hmem, hfull⟩, hfull, min_eq_left hle]
        · rw [if_neg (fun h => hfull h.2), ih hnodup (by omega), hkeys, List.append_assoc]
          rfl

/-- **The length of a tally**: `cap` keys, or all of them if there are fewer. -/
theorem tally_length {cap : ℕ} (hcap : 0 < cap) (vs : List (κ × M)) :
    (tally cap [] vs).length = min cap (keys vs).toFinset.card :=
  tally_length_aux vs List.nodup_nil hcap

end Books

/-! ### Positive votes -/

section Positive

variable [DecidableEq κ] [AddCommMonoid M] [PartialOrder M] [IsOrderedCancelAddMonoid M]

lemma total_nonneg {vs : List (κ × M)} (hvs : ∀ v ∈ vs, 0 ≤ v.2) (k : κ) : 0 ≤ total vs k :=
  List.sum_nonneg fun x hx => by
    obtain ⟨v, hv, rfl⟩ := List.mem_map.mp hx
    exact hvs v (List.mem_filter.mp hv).1

/-- A key with positive votes only has a positive total. -/
lemma total_pos {vs : List (κ × M)} (hvs : ∀ v ∈ vs, 0 < v.2) {k : κ} (hk : k ∈ keys vs) :
    0 < total vs k := by
  induction vs with
  | nil => simp at hk
  | cons v vs ih =>
      have hv := hvs v List.mem_cons_self
      have hrest : ∀ w ∈ vs, 0 < w.2 := fun w hw => hvs w (List.mem_cons_of_mem v hw)
      rw [total_cons]
      rcases List.mem_cons.mp hk with rfl | hk
      · rw [if_pos rfl]
        exact add_pos_of_pos_of_nonneg hv (total_nonneg (fun w hw => (hrest w hw).le) _)
      · split
        · exact add_pos hv (ih hrest hk)
        · rw [zero_add]
          exact ih hrest hk

/-- A tally of votes that are not negative adds up to no more than all the votes. -/
lemma sum_tally_le (cap : ℕ) {vs : List (κ × M)} (hvs : ∀ v ∈ vs, 0 ≤ v.2) :
    ((tally cap [] vs).map Prod.snd).sum ≤ (vs.map Prod.snd).sum := by
  rw [tally_eq_book, sum_book]
  conv_rhs => rw [← counted_append_unread cap [] vs, List.map_append, List.sum_append]
  refine le_add_of_nonneg_right (List.sum_nonneg fun x hx => ?_)
  obtain ⟨v, hv, rfl⟩ := List.mem_map.mp hx
  refine hvs v ?_
  rw [← counted_append_unread cap [] vs]
  exact List.mem_append_right _ hv

end Positive

/-! ### What the unread votes cost -/

section Exact

variable [DecidableEq κ] [AddCommGroup M] [PartialOrder M]

/-- Stopping at `cap` keys costs nothing: the unread votes cancel for each key counted and,
for each other key, add up to no more than the counted votes of each key counted. -/
def StopHarmless (cap : ℕ) (vs : List (κ × M)) : Prop :=
  (∀ k ∈ keys (counted cap [] vs), total (unread cap [] vs) k = 0) ∧
    ∀ k ∈ keys (unread cap [] vs), k ∉ keys (counted cap [] vs) →
      ∀ j ∈ keys (counted cap [] vs),
        total (unread cap [] vs) k ≤ total (counted cap [] vs) j

/-- A tally that reads all the votes loses nothing. -/
lemma stopHarmless_of_unread_eq_nil {cap : ℕ} {vs : List (κ × M)} (h : unread cap [] vs = []) :
    StopHarmless cap vs := by
  rw [StopHarmless, h]
  exact ⟨fun _ _ => rfl, fun k hk => absurd hk List.not_mem_nil⟩

/-- **The price of stopping.**  The tally has every key with the total of all its votes,
and no key left out has a larger total than one inside, if and only if the unread votes
are harmless. -/
theorem tally_exact_iff (cap : ℕ) (vs : List (κ × M)) :
    ((∀ e ∈ tally cap [] vs, e.2 = total vs e.1) ∧
        ∀ k ∈ keys vs, k ∉ keys (tally cap [] vs) →
          ∀ e ∈ tally cap [] vs, total vs k ≤ total vs e.1) ↔ StopHarmless cap vs := by
  rw [StopHarmless]
  set cs := counted cap [] vs with hcs
  set us := unread cap [] vs with hus
  have hvs : cs ++ us = vs := counted_append_unread cap [] vs
  have htotal : ∀ k, total vs k = total cs k + total us k := fun k => by
    rw [← hvs, total_append]
  have hkeys : ∀ k, k ∈ keys vs ↔ k ∈ keys cs ∨ k ∈ keys us := fun k => by
    rw [← hvs, keys_append, List.mem_append]
  rw [tally_eq_book, ← hcs]
  have hbook : ∀ e ∈ book cs, (e.2 = total vs e.1 ↔ total us e.1 = 0) := fun e he => by
    rw [(mem_book he).2, htotal, left_eq_add]
  constructor
  · rintro ⟨hfull, hout⟩
    have hzero : ∀ k ∈ keys cs, total us k = 0 := fun k hk => by
      obtain ⟨e, he, rfl⟩ := List.mem_map.mp (mem_keys_book.mpr hk)
      exact (hbook e he).mp (hfull e he)
    refine ⟨hzero, fun k hk hnot j hj => ?_⟩
    obtain ⟨e, he, rfl⟩ := List.mem_map.mp (mem_keys_book.mpr hj)
    have h := hout k ((hkeys k).mpr (Or.inr hk)) (fun h => hnot (mem_keys_book.mp h)) e he
    rwa [htotal, htotal, total_eq_zero_of_notMem hnot, hzero _ hj, zero_add, add_zero] at h
  · rintro ⟨hzero, hout⟩
    refine ⟨fun e he => (hbook e he).mpr (hzero _ (mem_book he).1), fun k hk hnot e he => ?_⟩
    have hnot' : k ∉ keys cs := fun h => hnot (mem_keys_book.mpr h)
    have hku : k ∈ keys us := ((hkeys k).mp hk).resolve_left hnot'
    have hj := (mem_book he).1
    rw [htotal, htotal, total_eq_zero_of_notMem hnot', hzero _ hj, zero_add, add_zero]
    exact hout k hku hnot' _ hj

end Exact

end Tally
