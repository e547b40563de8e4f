import Mathlib.Tactic

/-!
Lists in which equal entries stand together.

* `clustered_concat_iff`: an entry may be added at the end if it is new or equal to the last
  one.
-/

namespace Clusters

variable {κ : Type*}

/-- Everything between two equal entries is equal to them. -/
def Clustered (ks : List κ) : Prop :=
  ∀ k < ks.length, ∀ j < k, ∀ i < j, ks[i]? = ks[k]? → ks[j]? = ks[i]?

instance [DecidableEq κ] (ks : List κ) : Decidable (Clustered ks) :=
  inferInstanceAs (Decidable (∀ k < ks.length, ∀ j < k, ∀ i < j, _ → _))

lemma clustered_nil : Clustered ([] : List κ) := fun k hk => absurd hk (by simp)

lemma Clustered.left {ks ls : List κ} (h : Clustered (ks ++ ls)) : Clustered ks := by
  intro k hk j hj i hi hik
  have hkj := h k (by rw [List.length_append]; omega) j hj i hi
  rw [List.getElem?_append_left (by omega), List.getElem?_append_left (by omega),
    List.getElem?_append_left (by omega)] at hkj
  exact hkj hik

/-- **Adding an entry**: equal ones must be at the end. -/
theorem clustered_concat_iff {ks : List κ} {a : κ} :
    Clustered (ks ++ [a]) ↔ Clustered ks ∧ (a ∈ ks → ks.getLast? = some a) := by
  have hleft : ∀ i < ks.length, (ks ++ [a])[i]? = ks[i]? := fun i hi =>
    List.getElem?_append_left hi
  have hlast : (ks ++ [a])[ks.length]? = some a := List.getElem?_concat_length
  constructor
  · refine fun h => ⟨h.left, fun ha => ?_⟩
    obtain ⟨i, hi, hia⟩ := List.getElem_of_mem ha
    have hia' : ks[i]? = some a := by rw [List.getElem?_eq_getElem hi, hia]
    rw [List.getLast?_eq_getElem?]
    rcases Nat.lt_or_ge i (ks.length - 1) with hlt | hge
    · have hall := h ks.length (by simp) (ks.length - 1) (by omega) i hlt
      rw [hlast, hleft i hi, hleft (ks.length - 1) (by omega)] at hall
      rw [hall hia', hia']
    · rw [show ks.length - 1 = i by omega, hia']
  · rintro ⟨h, hend⟩ k hk j hj i hi hik
    rw [List.length_append, List.length_singleton] at hk
    rcases Nat.lt_or_ge k ks.length with hlt | hge
    · rw [hleft k hlt, hleft i (by omega)] at hik
      rw [hleft j (by omega), hleft i (by omega)]
      exact h k hlt j hj i hi hik
    · obtain rfl : k = ks.length := by omega
      rw [hlast, hleft i (by omega)] at hik
      rw [hleft j (by omega), hleft i (by omega), hik]
      have hlast' := hend (List.mem_of_getElem? hik)
      rw [List.getLast?_eq_getElem?] at hlast'
      rcases Nat.lt_or_ge j (ks.length - 1) with hj' | hj'
      · have hall := h (ks.length - 1) (by omega) j hj' i hi
        rw [hik, hlast'] at hall
        exact hall rfl
      · rw [show j = ks.length - 1 by omega, hlast']

end Clusters
