import Mathlib.Tactic

/-!
Decimal digit strings of a fixed width, as `sprintf` prints them with the conversion `%0wd`.

* `value_padded`, `length_padded`: the string of a number reads as the number and has the width.
* `value_append`: how a string of several numbers reads.
-/

namespace Digits

/-- The decimal digits of `n`, filled up with zeros to `w` characters. -/
def padded (w n : ℕ) : List Char := (Nat.toDigits 10 n).leftpad w '0'

/-- What a string of digits reads as. -/
def value (cs : List Char) : ℕ := Nat.ofDigitChars 10 cs 0

lemma value_append (cs ds : List Char) :
    value (cs ++ ds) = 10 ^ ds.length * value cs + value ds := by
  rw [value, Nat.ofDigitChars_append, Nat.ofDigitChars_eq_ofDigitChars_zero]
  rfl

@[simp] lemma value_padded (w n : ℕ) : value (padded w n) = n := by
  have hzeros : value (List.replicate (w - (Nat.toDigits 10 n).length) '0') = 0 := by
    rw [value, Nat.ofDigitChars_replicate_zero, Nat.mul_zero]
  rw [padded, List.leftpad, value_append, hzeros, Nat.mul_zero, Nat.zero_add, value,
    Nat.ofDigitChars_ten_toDigits]

lemma length_padded {w n : ℕ} (hw : 0 < w) (hn : n < 10 ^ w) : (padded w n).length = w := by
  rw [padded, List.length_leftpad, max_eq_left]
  exact (Nat.length_toDigits_le_iff (by norm_num) hw).mpr hn

lemma isDigit_of_mem_padded {w n : ℕ} {c : Char} (hc : c ∈ padded w n) : c.isDigit = true := by
  rw [padded, List.leftpad, List.mem_append] at hc
  rcases hc with hc | hc
  · rw [List.eq_of_mem_replicate hc]
    rfl
  · exact Nat.isDigit_of_mem_toDigits (by norm_num) (by norm_num) hc

lemma padded_inj {w n m : ℕ} : padded w n = padded w m ↔ n = m := by
  refine ⟨fun h => ?_, congrArg _⟩
  have hvalue := congrArg value h
  rwa [value_padded, value_padded] at hvalue

end Digits
