import Mathlib.Tactic

/-!
The files of a directory, by name, where every operation on a file that exists succeeds.

`remove` and `rename` of a file that does not exist fail and change nothing; `rename` replaces
its target.

* `rename_stage`: a chain of renames, each to the name of the next one and in ascending order.
* `shifted_iff`: when such a chain moves every file by one.
-/

namespace FileStore

variable {ν β : Type*} [DecidableEq ν]

/-- The records of each file that exists. -/
abbrev Store (ν β : Type*) := ν → Option (List β)

def remove (n : ν) (fs : Store ν β) : Store ν β := Function.update fs n none

/-- A file that is created or cut to no length, and then written. -/
def write (n : ν) (file : List β) (fs : Store ν β) : Store ν β := Function.update fs n (some file)

def rename (old new : ν) (fs : Store ν β) : Store ν β :=
  match fs old with
  | none => fs
  | some file => Function.update (Function.update fs old none) new (some file)

variable {fs : Store ν β} {n m old new : ν}

@[simp] lemma remove_self : remove n fs n = none := Function.update_self ..

lemma remove_of_ne (h : m ≠ n) : remove n fs m = fs m := Function.update_of_ne h ..

@[simp] lemma write_self {file : List β} : write n file fs n = some file := Function.update_self ..

lemma write_of_ne {file : List β} (h : m ≠ n) : write n file fs m = fs m :=
  Function.update_of_ne h ..

lemma rename_of_none (h : fs old = none) : rename old new fs = fs := by rw [rename, h]

lemma rename_of_some {file : List β} (h : fs old = some file) :
    rename old new fs = Function.update (Function.update fs old none) new (some file) := by
  rw [rename, h]

lemma rename_of_ne (hold : n ≠ old) (hnew : n ≠ new) : rename old new fs n = fs n := by
  cases h : fs old with
  | none => rw [rename_of_none h]
  | some file =>
      rw [rename_of_some h, Function.update_of_ne hnew, Function.update_of_ne hold]

lemma rename_old (hne : old ≠ new) : rename old new fs old = none := by
  cases h : fs old with
  | none => rw [rename_of_none h, h]
  | some file => rw [rename_of_some h, Function.update_of_ne hne, Function.update_self]

lemma rename_new (h : fs old ≠ none) : rename old new fs new = fs old := by
  obtain ⟨file, hfile⟩ := Option.ne_none_iff_exists'.mp h
  rw [rename_of_some hfile, Function.update_self, hfile]

/-! ### A chain of renames -/

section Chain

variable {c : ℕ → Option (List β)} {i n : ℕ}

/-- What the renames from the names below `i` on have carried to the name `i`, where `c` were
the files at first. -/
def carried (c : ℕ → Option (List β)) : ℕ → Option (List β)
  | 0 => c 0
  | i + 1 => if c i = none then c (i + 1) else carried c i

/-- The file of the name `a` when the names below `i` have been renamed. -/
def stage (c : ℕ → Option (List β)) (i a : ℕ) : Option (List β) :=
  if a < i then if c a = none then carried c a else none
  else if a = i then carried c i
  else c a

lemma stage_zero (c : ℕ → Option (List β)) (a : ℕ) : stage c 0 a = c a := by
  rw [stage, if_neg (Nat.not_lt_zero a)]
  split_ifs with h
  · rw [h, carried]
  · rfl

/-- The first name loses its file to the second one. -/
lemma stage_first (hn : 0 < n) : stage c n 0 = none := by
  rw [stage, if_pos hn]
  split_ifs with h
  · rwa [carried]
  · rfl

lemma carried_ne_none (h : c i ≠ none) : carried c i ≠ none := by
  induction i with
  | zero => exact h
  | succ i ih =>
      rw [carried]
      split_ifs with hi
      · exact h
      · exact ih hi

/-- A name without a file is left out. -/
lemma stage_succ_of_none (h : c i = none) (a : ℕ) : stage c (i + 1) a = stage c i a := by
  rcases lt_trichotomy a i with hlt | rfl | hgt
  · rw [stage, if_pos (by omega), stage, if_pos hlt]
  · rw [stage, if_pos (Nat.lt_succ_self a), if_pos h, stage, if_neg (lt_irrefl a), if_pos rfl]
  · rw [stage, if_neg (show ¬ a < i + 1 by omega), stage, if_neg (show ¬ a < i by omega),
      if_neg hgt.ne']
    split_ifs with ha
    · rw [ha, carried, if_pos h]
    · rfl

/-- One rename of the chain. -/
lemma rename_stage {name : ℕ → ν} (hname : Function.Injective name) (h : c i ≠ none)
    (hfs : ∀ a, fs (name a) = stage c i a) (a : ℕ) :
    rename (name i) (name (i + 1)) fs (name a) = stage c (i + 1) a := by
  have hi : fs (name i) = carried c i := by rw [hfs, stage, if_neg (lt_irrefl i), if_pos rfl]
  have hne : name i ≠ name (i + 1) := fun he => absurd (hname he) (by omega)
  rcases eq_or_ne a i with rfl | hai
  · rw [rename_old hne, stage, if_pos (Nat.lt_succ_self a), if_neg h]
  rcases eq_or_ne a (i + 1) with rfl | hai'
  · rw [rename_new (by rw [hi]; exact carried_ne_none h), hi, stage, if_neg (lt_irrefl _),
      if_pos rfl, carried, if_neg h]
  · rw [rename_of_ne (hname.ne hai) (hname.ne hai'), hfs, stage, stage, if_neg hai, if_neg hai']
    exact if_congr (by omega) rfl rfl

/-- **A chain of renames moves every file by one**, exactly if no two files were neighbours: of
two neighbours, the second one is replaced before it is moved. -/
theorem shifted_iff (hlast : c n = none) :
    (∀ a < n, stage c n (a + 1) = c a) ↔ ∀ a, a + 1 < n → c a = none ∨ c (a + 1) = none := by
  refine ⟨fun h => ?_, fun h => ?_⟩
  · intro a ha
    by_contra hboth
    obtain ⟨h0, h1⟩ := not_or.mp hboth
    have hnone := h a (by omega)
    rw [stage, if_pos ha, if_neg h1] at hnone
    exact h0 hnone.symm
  · intro a ha
    have hstage : stage c n (a + 1) = if c (a + 1) = none then carried c (a + 1) else none := by
      rcases Nat.lt_or_ge (a + 1) n with hlt | hge
      · rw [stage, if_pos hlt]
      · obtain rfl : n = a + 1 := by omega
        rw [stage, if_neg (lt_irrefl _), if_pos rfl, if_pos hlast]
    rw [hstage, carried]
    rcases eq_or_ne (c a) none with h0 | h0
    · rw [if_pos h0, h0]
      split_ifs with h1
      · exact h1
      · rfl
    · have h1 : c (a + 1) = none := by
        rcases Nat.lt_or_ge (a + 1) n with hlt | hge
        · exact (h a hlt).resolve_left h0
        · rwa [show a + 1 = n by omega]
      rw [if_pos h1, if_neg h0]
      -- nothing was carried to `a`, since the file before it is missing
      cases a with
      | zero => rfl
      | succ a => rw [carried, if_pos ((h a (by omega)).resolve_right h0)]

end Chain

end FileStore
