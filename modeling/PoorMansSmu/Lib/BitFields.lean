import Mathlib.Data.Nat.Bitwise

/-!
# BitFields — numbers in the bits of a word

- `field k n v` : bits `k` to `k + n - 1` of a number;
- `and_mask` : a mask of consecutive bits cuts out a field and leaves it where it is;
- `or_eq_add` : numbers that share no bits are put together by either operation.

Nothing here mentions a particular program.
-/

namespace PoorMansSmu
namespace BitFields

/-- Bits `k`, …, `k + n - 1` of a number. -/
def field (k n v : ℕ) : ℕ := v / 2 ^ k % 2 ^ n

theorem and_mask (k n v : ℕ) : v &&& (2 ^ n - 1) <<< k = field k n v * 2 ^ k := by
  calc
    v &&& (2 ^ n - 1) <<< k = ((v >>> k) &&& (2 ^ n - 1)) <<< k := by
          -- bit by bit: below bit `k` both sides are zero
          apply Nat.eq_of_testBit_eq
          intro i
          simp only [Nat.testBit_and, Nat.testBit_shiftLeft, Nat.testBit_shiftRight]
          by_cases hi : k ≤ i
          · simp only [hi, decide_true, Bool.true_and, Nat.add_sub_cancel' hi]
          · simp only [hi, decide_false, Bool.false_and, Bool.and_false]
    _ = field k n v * 2 ^ k := by
          rw [Nat.and_two_pow_sub_one_eq_mod, Nat.shiftLeft_eq, Nat.shiftRight_eq_div_pow, field]

/-- A multiple of `2 ^ k` and a number below it share no bits. -/
theorem or_eq_add {k a b : ℕ} (ha : 2 ^ k ∣ a) (hb : b < 2 ^ k) : a ||| b = a + b := by
  obtain ⟨c, rfl⟩ := ha
  rw [Nat.mul_comm, ← Nat.shiftLeft_eq, Nat.shiftLeft_add_eq_or_of_lt hb]

end BitFields
end PoorMansSmu
