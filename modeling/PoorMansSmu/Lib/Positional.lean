import Mathlib.Data.Nat.Digits.Lemmas
import Mathlib.Data.Rat.Floor
import Mathlib.Tactic.FieldSimp
import Mathlib.Tactic.Ring

/-!
# Positional — numbers written with digits before and after a point

A number in base `b` is written as two lists of digits, the most significant ones first: those
before the point and those after it.  This file defines

- `value b whole fraction` : the number that is written,

and shows what a digit more does to it, what moving the point does, and that cutting off digits
after the point rounds down.  Nothing here mentions a particular program.
-/

namespace PoorMansSmu
namespace Positional

/-- The number written as `whole`, the point, `fraction`. -/
def value (b : ℕ) (whole fraction : List ℕ) : ℚ :=
  (Nat.ofDigits b (whole ++ fraction).reverse : ℕ) / (b : ℚ) ^ fraction.length

variable {b : ℕ} (whole fraction : List ℕ) (c : ℕ)

theorem value_nil : value b [] [] = 0 := by
  simp [value]

theorem value_nonneg : 0 ≤ value b whole fraction :=
  div_nonneg (Nat.cast_nonneg _) (pow_nonneg (Nat.cast_nonneg b) _)

/-! ## One digit more -/

/-- A digit more before the point. -/
theorem value_concat_whole : value b (whole ++ [c]) [] = value b whole [] * b + c := by
  simp only [value, List.append_nil, List.reverse_append, List.reverse_singleton,
    List.singleton_append, Nat.ofDigits_cons, List.length_nil, pow_zero, div_one]
  push_cast
  ring

/-- Digits more after the point. -/
theorem value_append (hb : b ≠ 0) (rest : List ℕ) :
    value b whole (fraction ++ rest) =
      value b whole fraction + value b [] rest / (b : ℚ) ^ fraction.length := by
  have hne : (b : ℚ) ≠ 0 := Nat.cast_ne_zero.2 hb
  have hdigits : (whole ++ (fraction ++ rest)).reverse =
      rest.reverse ++ (whole ++ fraction).reverse := by
    rw [← List.append_assoc, List.reverse_append]
  unfold value
  rw [hdigits, Nat.ofDigits_append, List.length_reverse, List.length_append, List.nil_append]
  push_cast
  rw [pow_add]
  field_simp
  ring

theorem value_concat (hb : b ≠ 0) :
    value b whole (fraction ++ [c]) =
      value b whole fraction + c / (b : ℚ) ^ (fraction.length + 1) := by
  have hone : value b [] [c] = c / b := by simp [value]
  rw [value_append _ _ hb, hone, pow_succ', div_div]

/-! ## Moving the point -/

/-- Moving the point behind the next digit multiplies by the base. -/
theorem value_shift (hb : b ≠ 0) :
    value b (whole ++ [c]) fraction = value b whole (c :: fraction) * b := by
  have hne : (b : ℚ) ≠ 0 := Nat.cast_ne_zero.2 hb
  unfold value
  rw [List.append_assoc, List.singleton_append, List.length_cons, pow_succ]
  field_simp

/-- A zero in front makes no difference. -/
theorem value_zero_cons : value b (0 :: whole) fraction = value b whole fraction := by
  unfold value
  rw [List.cons_append, Nat.ofDigits_reverse_zero_cons]

/-! ## Digits cut off -/

theorem value_eq_zero_iff (hb : b ≠ 0) : value b [] fraction = 0 ↔ ∀ c ∈ fraction, c = 0 := by
  have hne : (b : ℚ) ^ fraction.length ≠ 0 := pow_ne_zero _ (Nat.cast_ne_zero.2 hb)
  unfold value
  rw [List.nil_append, div_eq_zero_iff, or_iff_left hne, Nat.cast_eq_zero]
  constructor
  · intro hzero c hc
    exact Nat.digits_zero_of_eq_zero hb hzero c (List.mem_reverse.2 hc)
  · intro hall
    rw [List.eq_replicate_of_mem hall, List.reverse_replicate, Nat.ofDigits_replicate_zero]

/-- Zeros at the end make no difference, other digits do. -/
theorem value_append_eq_iff (hb : b ≠ 0) (rest : List ℕ) :
    value b whole (fraction ++ rest) = value b whole fraction ↔ ∀ c ∈ rest, c = 0 := by
  have hne : (b : ℚ) ^ fraction.length ≠ 0 := pow_ne_zero _ (Nat.cast_ne_zero.2 hb)
  rw [value_append _ _ hb, add_eq_left, div_eq_zero_iff, or_iff_left hne, value_eq_zero_iff _ hb]

/-- Digits behind the point stay one of their last place below one. -/
theorem value_le (hb : 1 < b) (hdigits : ∀ c ∈ fraction, c < b) :
    value b [] fraction ≤ 1 - 1 / (b : ℚ) ^ fraction.length := by
  have hpos : (0 : ℚ) < (b : ℚ) ^ fraction.length := by positivity
  have hlt := Nat.ofDigits_lt_base_pow_length hb fun c hc => hdigits c (List.mem_reverse.1 hc)
  rw [List.length_reverse] at hlt
  have hle : ((Nat.ofDigits b fraction.reverse : ℕ) : ℚ) + 1 ≤ (b : ℚ) ^ fraction.length := by
    exact_mod_cast hlt
  unfold value
  rw [List.nil_append, le_sub_iff_add_le, ← add_div, div_le_one hpos]
  exact hle

theorem value_lt_one (hb : 1 < b) (hdigits : ∀ c ∈ fraction, c < b) : value b [] fraction < 1 :=
  (value_le fraction hb hdigits).trans_lt (sub_lt_self 1 (by positivity))

/-- Leaving out the digits after some of those behind the point rounds down to these. -/
theorem floor_value (hb : 1 < b) (rest : List ℕ) (hdigits : ∀ c ∈ rest, c < b) :
    (⌊value b whole (fraction ++ rest) * (b : ℚ) ^ fraction.length⌋ : ℚ) /
      (b : ℚ) ^ fraction.length = value b whole fraction := by
  have hpos : (0 : ℚ) < (b : ℚ) ^ fraction.length := by positivity
  have hlow := value_nonneg (b := b) [] rest
  have hhigh := value_lt_one rest hb hdigits
  have hscaled : value b whole (fraction ++ rest) * (b : ℚ) ^ fraction.length =
      (Nat.ofDigits b (whole ++ fraction).reverse : ℕ) + value b [] rest := by
    rw [value_append _ _ (by omega)]
    unfold value
    field_simp
  rw [hscaled, Int.floor_natCast_add, Int.floor_eq_zero_iff.2 ⟨hlow, hhigh⟩, add_zero,
    Int.cast_natCast]
  rfl

end Positional
end PoorMansSmu
