import Mathlib.Algebra.Order.Ring.Int
import Mathlib.Tactic.Linarith
import Mathlib.Tactic.Ring

/-!
# WrapClock — timers over a clock that wraps around

A counter of half-width `H` keeps, of a number, what is left in `[-H, H)`.  A program that asks
whether a time has passed can compare two kept sums, or keep the difference of two times.

- `keep H n`, `turn H n` : what is kept of a number, and the turns that were lost with it;
- `keep_lt_iff_iff`      : kept numbers compare as the numbers do when they are of the same turn;
- `keep_lt_of_turn_lt`   : and the other way round when they are not;
- `keep_sub_keep`        : the difference of what is kept is right when it is less than `H`.

Nothing here mentions a particular program.
-/

namespace PoorMansSmu
namespace WrapClock

variable {H : ℤ}

/-- What a counter keeps of a number. -/
def keep (H n : ℤ) : ℤ := (n + H) % (2 * H) - H

/-- How many turns of the counter a number is away from what is kept of it. -/
def turn (H n : ℤ) : ℤ := (n + H) / (2 * H)

theorem turn_mul_add_keep (H n : ℤ) : 2 * H * turn H n + keep H n = n := by
  have hdiv := Int.mul_ediv_add_emod (n + H) (2 * H)
  unfold turn keep
  linarith

theorem le_keep (hH : 0 < H) (n : ℤ) : -H ≤ keep H n := by
  have hmod := Int.emod_nonneg (n + H) (by omega : 2 * H ≠ 0)
  unfold keep
  omega

theorem keep_lt (hH : 0 < H) (n : ℤ) : keep H n < H := by
  have hmod := Int.emod_lt_of_pos (n + H) (by omega : 0 < 2 * H)
  unfold keep
  omega

/-- What is kept does not depend on whole turns. -/
theorem keep_add_mul (H n k : ℤ) : keep H (n + 2 * H * k) = keep H n := by
  have hshift : n + 2 * H * k + H = n + H + 2 * H * k := by ring
  rw [keep, hshift, Int.add_mul_emod_self_left, keep]

theorem keep_of_fits (hlow : -H ≤ n) (hhigh : n < H) : keep H n = n := by
  rw [keep, Int.emod_eq_of_lt (by omega) (by omega)]
  omega

/-- A sum of kept numbers is kept as the sum. -/
theorem keep_keep_add (H a b : ℤ) : keep H (keep H a + b) = keep H (a + b) := by
  have hturn := turn_mul_add_keep H a
  calc keep H (keep H a + b)
      = keep H (keep H a + b + 2 * H * turn H a) := (keep_add_mul H _ _).symm
    _ = keep H (a + b) := by
      congr 1
      linarith

section Compare

variable {a b : ℤ}

theorem turn_mono (hH : 0 < H) (hle : a ≤ b) : turn H a ≤ turn H b :=
  Int.ediv_le_ediv (by omega) (by omega)

/-- The later of two numbers is kept as the smaller one when a turn ends between them. -/
theorem keep_lt_of_turn_lt (hH : 0 < H) (hnear : b - a < 2 * H) (hturn : turn H a < turn H b) :
    a < b ∧ keep H b < keep H a := by
  have ha := turn_mul_add_keep H a
  have hb := turn_mul_add_keep H b
  have hlow := le_keep hH b
  have hhigh := keep_lt hH a
  have hmore : 2 * H * (turn H a + 1) ≤ 2 * H * turn H b :=
    Int.mul_le_mul_of_nonneg_left hturn (by omega)
  constructor
  · linarith
  · linarith

theorem keep_lt_iff_of_turn_eq (hturn : turn H a = turn H b) : keep H a < keep H b ↔ a < b := by
  have ha := turn_mul_add_keep H a
  have hb := turn_mul_add_keep H b
  rw [hturn] at ha
  constructor
  · intro h
    linarith
  · intro h
    linarith

/-- Numbers that are less than a turn apart compare like what is kept of them exactly when they are
of the same turn. -/
theorem keep_lt_iff_iff (hH : 0 < H) (hafter : b - a < 2 * H) (hbefore : a - b < 2 * H) :
    (keep H a < keep H b ↔ a < b) ↔ turn H a = turn H b := by
  rcases lt_trichotomy (turn H a) (turn H b) with hlt | heq | hgt
  · rcases keep_lt_of_turn_lt hH hafter hlt with ⟨hab, hkeep⟩
    exact iff_of_false (fun h => absurd (h.2 hab) (not_lt.2 hkeep.le)) hlt.ne
  · exact iff_of_true (keep_lt_iff_of_turn_eq heq) heq
  · rcases keep_lt_of_turn_lt hH hbefore hgt with ⟨hba, hkeep⟩
    exact iff_of_false (fun h => absurd (h.1 hkeep) (not_lt.2 hba.le)) hgt.ne'

end Compare

/-- The difference of two kept numbers is kept right when it fits. -/
theorem keep_sub_keep {a b : ℤ} (hlow : -H ≤ b - a) (hhigh : b - a < H) :
    keep H (keep H b - keep H a) = b - a := by
  have ha := turn_mul_add_keep H a
  have hb := turn_mul_add_keep H b
  calc keep H (keep H b - keep H a)
      = keep H (keep H b - keep H a + 2 * H * (turn H b - turn H a)) := (keep_add_mul H _ _).symm
    _ = keep H (b - a) := by
      congr 1
      linarith
    _ = b - a := keep_of_fits hlow hhigh

end WrapClock
end PoorMansSmu
