import Mathlib.Tactic

/-!
Registries searched from the front: `firstMatch` is the index at which a linear search for
an entry near a query stops, the length of the registry when there is none, and `register`
appends a new entry in exactly that case.  Nearness is an arbitrary test; nothing is
assumed of it beyond what a lemma states, in particular it need not be transitive.

* `firstMatch_append`: a search that succeeds is not disturbed by later entries.
* `firstMatch_register`, `firstMatch_lt_register`: after registration the search of the
  same query stops at the same index, which is now the index of an entry.
* `separated_register`, `firstMatch_of_separated`: a registry that only grows by registration
  finds each of its entries at its own index.
* `firstMatch_map`, `map_register`: entries that carry more than their place.
* `searchVar_eq`, `map_searchVar_eq_iff`: a search that returns the variable it searches with.
-/

namespace FirstMatch

variable {α β : Type*} (near : α → β → Bool)

/-- The index at which a search from the front for an entry near `q` stops. -/
def firstMatch (xs : List α) (q : β) : ℕ := xs.findIdx fun x => near x q

/-- Search, and append the entry `mk` of the query if nothing is near it. -/
def register (mk : ℕ → β → α) (xs : List α) (q : β) : List α :=
  if firstMatch near xs q = xs.length then xs ++ [mk (firstMatch near xs q) q] else xs

variable {near} {mk : ℕ → β → α}

lemma firstMatch_le (xs : List α) (q : β) : firstMatch near xs q ≤ xs.length :=
  List.findIdx_le_length

lemma firstMatch_eq_length_iff {xs : List α} {q : β} :
    firstMatch near xs q = xs.length ↔ ∀ x ∈ xs, near x q = false :=
  List.findIdx_eq_length

/-- Entries added behind a match do not disturb it. -/
lemma firstMatch_append {xs : List α} {q : β} (h : firstMatch near xs q < xs.length)
    (ys : List α) : firstMatch near (xs ++ ys) q = firstMatch near xs q := by
  rw [firstMatch, List.findIdx_append]
  exact if_pos h

lemma firstMatch_stable {xs ys : List α} {q : β} (h : firstMatch near xs q < xs.length)
    (hxs : xs <+: ys) : firstMatch near ys q = firstMatch near xs q := by
  obtain ⟨zs, rfl⟩ := hxs
  exact firstMatch_append h zs

lemma prefix_register (xs : List α) (q : β) : xs <+: register near mk xs q := by
  rw [register]
  split
  · exact List.prefix_append _ _
  · exact List.prefix_rfl

/-- Once registered, a query is found where its search stopped. -/
lemma firstMatch_register (hmk : ∀ n q, near (mk n q) q = true) (xs : List α) (q : β) :
    firstMatch near (register near mk xs q) q = firstMatch near xs q := by
  rw [register]
  split
  · rename_i h
    rw [firstMatch, List.findIdx_append, if_neg (by rw [← firstMatch]; omega)]
    simp [hmk, h]
  · rfl

lemma firstMatch_lt_register (xs : List α) (q : β) :
    firstMatch near xs q < (register near mk xs q).length := by
  rw [register]
  split
  · rename_i h
    simp [h]
  · exact lt_of_le_of_ne (firstMatch_le xs q) ‹_›

/-- A new entry is appended only if no earlier one is near its query. -/
lemma register_cases (xs : List α) (q : β) :
    register near mk xs q = xs ∨
      (∀ x ∈ xs, near x q = false) ∧ register near mk xs q = xs ++ [mk xs.length q] := by
  rw [register]
  split
  · rename_i h
    exact Or.inr ⟨firstMatch_eq_length_iff.mp h, by rw [h]⟩
  · exact Or.inl rfl

/-! ### Separated entries -/

/-- No entry is near the place of a later one. -/
def Separated (near : α → β → Bool) (key : α → β) (xs : List α) : Prop :=
  xs.Pairwise fun x y => near x (key y) = false

variable {key : α → β}

lemma separated_register (hmk : ∀ n q, key (mk n q) = q) {xs : List α}
    (hxs : Separated near key xs) (q : β) : Separated near key (register near mk xs q) := by
  rcases register_cases xs q with h | ⟨hfar, h⟩
  · rwa [h]
  · rw [h, Separated, List.pairwise_append]
    refine ⟨hxs, List.pairwise_singleton _ _, fun x hx y hy => ?_⟩
    rw [List.mem_singleton.mp hy, hmk]
    exact hfar x hx

/-- The search for the place of an entry stops at this entry. -/
lemma firstMatch_of_separated (hself : ∀ x, near x (key x) = true) {xs : List α}
    (hxs : Separated near key xs) {i : ℕ} (hi : i < xs.length) :
    firstMatch near xs (key xs[i]) = i := by
  refine (List.findIdx_eq hi).mpr ⟨hself xs[i], fun j hj => ?_⟩
  exact List.pairwise_iff_getElem.mp hxs j i (by omega) hi hj

/-! ### Entries that carry more than their place -/

section Map

variable {γ : Type*} {near' : γ → β → Bool} {mk' : ℕ → β → γ} {f : α → γ}

/-- A search sees only what the nearness test sees. -/
lemma firstMatch_map (hnear : ∀ x q, near' (f x) q = near x q) (xs : List α) (q : β) :
    firstMatch near' (xs.map f) q = firstMatch near xs q := by
  rw [firstMatch, List.findIdx_map, firstMatch]
  refine congrArg (fun p => List.findIdx p xs) (funext fun x => ?_)
  exact hnear x q

lemma map_register (hnear : ∀ x q, near' (f x) q = near x q) (hmk : ∀ n q, f (mk n q) = mk' n q)
    (xs : List α) (q : β) :
    (register near mk xs q).map f = register near' mk' (xs.map f) q := by
  rw [register, register, firstMatch_map hnear, List.length_map]
  split
  · rw [List.map_append, List.map_singleton, hmk]
  · rfl

end Map

/-! ### A search whose variable is its result -/

section SearchVar

variable {γ : Type*} (found : α → Bool)

/-- A search that puts one entry after the other into its variable `x`, and returns `x`. -/
def searchVar (x : α) : List α → α
  | [] => x
  | y :: ys => if found y then y else searchVar y ys

/-- The first match is returned, and without a match the last entry. -/
lemma searchVar_eq (x : α) (xs : List α) :
    searchVar found x xs = (xs.find? found).getD (xs.getLastD x) := by
  induction xs generalizing x with
  | nil => rfl
  | cons y ys ih =>
      rw [searchVar, List.find?_cons, List.getLastD_cons]
      cases found y with
      | true => rfl
      | false => exact ih y

/-- **What a failing search returns** is the first value of the variable, as far as `f` tells,
exactly if the last entry is. -/
theorem map_searchVar_eq_iff (f : α → γ) (x : α) (xs : List α) :
    f (searchVar found x xs) = f ((xs.find? found).getD x) ↔
      (∃ y ∈ xs, found y = true) ∨ f (xs.getLastD x) = f x := by
  rw [searchVar_eq]
  cases h : xs.find? found with
  | some y =>
      exact iff_of_true rfl (Or.inl ⟨y, List.mem_of_find?_eq_some h, List.find?_some h⟩)
  | none =>
      have hno : ¬ ∃ y ∈ xs, found y = true := fun ⟨y, hy, hfound⟩ =>
        List.find?_eq_none.mp h y hy hfound
      rw [or_iff_right hno]
      rfl

end SearchVar

end FirstMatch
