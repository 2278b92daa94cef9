import Mathlib.Algebra.Order.Round
import Mathlib.Algebra.Order.Floor.Ring
import Mathlib.Tactic.Linarith
import Mathlib.Tactic.FieldSimp
import Mathlib.Tactic.Ring
import Mathlib.Tactic.Positivity

/-!
# Quantizer — uniform scales with a rounding that takes halves down

A converter with `steps + 1` codes spread evenly over an interval `[lo, hi]` represents a value by
its nearest code.  The file gives the two directions, `Scale.code` and `Scale.value`, over any
ordered field with a floor, and the fact that makes them useful: going to a code and back moves a
value by at most half a step, once it has been brought into the interval.
-/

namespace PoorMansSmu
namespace Quantizer

variable {α : Type*} [Field α] [LinearOrder α]

/-- Nearest integer, an exact half going down. -/
def roundHalfDown [FloorRing α] (x : α) : ℤ :=
  if (⌊x⌋ : α) + 1 / 2 < x then ⌈x⌉ else ⌊x⌋

/-- A uniform scale: `steps + 1` codes over the interval `[lo, hi]`. -/
structure Scale (α : Type*) [Field α] [LinearOrder α] where
  lo : α
  hi : α
  steps : ℕ
  lo_lt_hi : lo < hi
  steps_pos : 0 < steps

namespace Scale

/-- The distance between neighbouring codes. -/
def step (S : Scale α) : α := (S.hi - S.lo) / S.steps

/-- The code nearest to `x`, brought into the range of codes. -/
def code [FloorRing α] (S : Scale α) (x : α) : ℤ :=
  max 0 (min S.steps (roundHalfDown (S.steps * (x - S.lo) / (S.hi - S.lo))))

/-- The value a code stands for. -/
def value (S : Scale α) (c : ℤ) : α :=
  (c : α) / S.steps * (S.hi - S.lo) + S.lo

/-- `x` brought into the interval of the scale. -/
def clamp (S : Scale α) (x : α) : α := max S.lo (min S.hi x)

end Scale

/-! ## Rounding -/

theorem abs_roundHalfDown_sub_le [IsStrictOrderedRing α] [FloorRing α] (x : α) :
    |(roundHalfDown x : α) - x| ≤ 1 / 2 := by
  have hfloor : (⌊x⌋ : α) ≤ x := Int.floor_le x
  have hlt : x < (⌊x⌋ : α) + 1 := Int.lt_floor_add_one x
  unfold roundHalfDown
  split_ifs with h
  · have hceil : (⌈x⌉ : α) ≤ (⌊x⌋ : α) + 1 := by
      exact_mod_cast Int.ceil_le_floor_add_one x
    have hle : x ≤ (⌈x⌉ : α) := Int.le_ceil x
    rw [abs_le]
    constructor <;> linarith
  · rw [abs_le]
    constructor <;> linarith

theorem roundHalfDown_nonpos [FloorRing α] [IsStrictOrderedRing α] {x : α} (h : x ≤ 0) :
    roundHalfDown x ≤ 0 := by
  have hceil : ⌈x⌉ ≤ 0 := Int.ceil_le.2 (by simpa using h)
  have hfloor : ⌊x⌋ ≤ 0 := (Int.floor_le_ceil x).trans hceil
  unfold roundHalfDown
  split_ifs
  · exact hceil
  · exact hfloor

theorem le_roundHalfDown [FloorRing α] [IsStrictOrderedRing α] {n : ℤ} {x : α} (h : (n : α) ≤ x) :
    n ≤ roundHalfDown x := by
  have hfloor : n ≤ ⌊x⌋ := Int.le_floor.2 h
  unfold roundHalfDown
  split_ifs
  · exact hfloor.trans (Int.floor_le_ceil x)
  · exact hfloor

/-! ## Scales -/

namespace Scale

variable (S : Scale α)

theorem lo_le_clamp (x : α) : S.lo ≤ S.clamp x := le_max_left _ _

theorem clamp_le_hi (x : α) : S.clamp x ≤ S.hi := max_le S.lo_lt_hi.le (min_le_left _ _)

theorem clamp_of_mem {x : α} (hlo : S.lo ≤ x) (hhi : x ≤ S.hi) : S.clamp x = x := by
  unfold clamp
  rw [min_eq_right hhi, max_eq_right hlo]

/-- A code is a number of steps above the lower end. -/
theorem value_eq (c : ℤ) : S.value c = S.lo + c * S.step := by
  unfold value step
  ring

theorem value_zero : S.value 0 = S.lo := by
  simp [value_eq]

variable [IsStrictOrderedRing α]

theorem width_pos : 0 < S.hi - S.lo := sub_pos.2 S.lo_lt_hi

theorem steps_cast_pos : (0 : α) < S.steps := Nat.cast_pos.2 S.steps_pos

theorem step_pos : 0 < S.step := div_pos S.width_pos S.steps_cast_pos

theorem value_mono {c d : ℤ} (h : c ≤ d) : S.value c ≤ S.value d := by
  have hcast : (c : α) ≤ d := by exact_mod_cast h
  rw [value_eq, value_eq]
  have := mul_le_mul_of_nonneg_right hcast S.step_pos.le
  linarith

/-- The position of `x` on the scale, counted in steps from the lower end. -/
theorem position_mul_step (x : α) : S.steps * (x - S.lo) / (S.hi - S.lo) * S.step = x - S.lo := by
  have hw : S.hi - S.lo ≠ 0 := S.width_pos.ne'
  have hn : (S.steps : α) ≠ 0 := S.steps_cast_pos.ne'
  unfold step
  field_simp

theorem value_steps : S.value S.steps = S.hi := by
  have hn : (S.steps : α) ≠ 0 := S.steps_cast_pos.ne'
  rw [value_eq]
  unfold step
  push_cast
  field_simp
  ring

variable [FloorRing α]

/-- Rounding alone moves a value by at most half a step. -/
theorem abs_value_round_sub_le (x : α) :
    |S.value (roundHalfDown (S.steps * (x - S.lo) / (S.hi - S.lo))) - x| ≤ S.step / 2 := by
  have hround := abs_roundHalfDown_sub_le (S.steps * (x - S.lo) / (S.hi - S.lo))
  have hpos := S.position_mul_step x
  have heq : S.value (roundHalfDown (S.steps * (x - S.lo) / (S.hi - S.lo))) - x =
      ((roundHalfDown (S.steps * (x - S.lo) / (S.hi - S.lo)) : α) -
        S.steps * (x - S.lo) / (S.hi - S.lo)) * S.step := by
    rw [value_eq, sub_mul, hpos]
    ring
  rw [heq, abs_mul, abs_of_pos S.step_pos]
  calc
    _ ≤ 1 / 2 * S.step := mul_le_mul_of_nonneg_right hround S.step_pos.le
    _ = S.step / 2 := by ring

/-- Going to a code and back lands within half a step of the clamped value. -/
theorem abs_value_code_sub_le (x : α) : |S.value (S.code x) - S.clamp x| ≤ S.step / 2 := by
  have hround := S.abs_value_round_sub_le x
  have hhalf : 0 ≤ S.step / 2 := (half_pos S.step_pos).le
  unfold code
  generalize roundHalfDown (S.steps * (x - S.lo) / (S.hi - S.lo)) = r at hround ⊢
  rw [abs_le] at hround ⊢
  -- the code was cut at the lower end, at the upper end, or not at all
  rcases le_or_gt r 0 with hlow | hlow
  · have hcode : max 0 (min (S.steps : ℤ) r) = 0 := by omega
    have hr := S.value_mono hlow
    have hc := S.lo_le_clamp x
    rw [hcode, value_zero] at *
    have hx : S.clamp x ≤ S.lo + S.step / 2 :=
      max_le (by linarith) ((min_le_right _ _).trans (by linarith))
    constructor <;> linarith
  · rcases le_or_gt (S.steps : ℤ) r with hhigh | hhigh
    · have hcode : max 0 (min (S.steps : ℤ) r) = S.steps := by omega
      have hr := S.value_mono hhigh
      have hc := S.clamp_le_hi x
      rw [hcode, value_steps] at *
      have hx : S.hi - S.step / 2 ≤ S.clamp x :=
        le_max_of_le_right (le_min (by linarith) (by linarith))
      constructor <;> linarith
    · have hcode : max 0 (min (S.steps : ℤ) r) = r := by omega
      have hlo := S.value_mono hlow.le
      have hhi := S.value_mono hhigh.le
      rw [value_zero] at hlo
      rw [value_steps] at hhi
      rw [hcode]
      have hup : S.clamp x ≤ S.value r + S.step / 2 :=
        max_le (by linarith) ((min_le_right _ _).trans (by linarith))
      have hdown : S.value r - S.step / 2 ≤ S.clamp x :=
        le_max_of_le_right (le_min (by linarith) (by linarith))
      constructor <;> linarith

/-- Below the scale the code is the first one. -/
theorem code_of_le_lo {x : α} (h : x ≤ S.lo) : S.code x = 0 := by
  have hpos : S.steps * (x - S.lo) / (S.hi - S.lo) ≤ 0 :=
    div_nonpos_of_nonpos_of_nonneg
      (mul_nonpos_of_nonneg_of_nonpos S.steps_cast_pos.le (sub_nonpos.2 h)) S.width_pos.le
  have hround := roundHalfDown_nonpos hpos
  unfold code
  omega

/-- Above the scale it is the last one. -/
theorem code_of_hi_le {x : α} (h : S.hi ≤ x) : S.code x = S.steps := by
  have hpos : ((S.steps : ℤ) : α) ≤ S.steps * (x - S.lo) / (S.hi - S.lo) := by
    rw [le_div_iff₀ S.width_pos]
    push_cast
    exact mul_le_mul_of_nonneg_left (sub_le_sub_right h _) S.steps_cast_pos.le
  have hround := le_roundHalfDown hpos
  unfold code
  omega

theorem value_code_of_le_lo {x : α} (h : x ≤ S.lo) : S.value (S.code x) = S.lo := by
  rw [S.code_of_le_lo h, value_zero]

theorem value_code_of_hi_le {x : α} (h : S.hi ≤ x) : S.value (S.code x) = S.hi := by
  rw [S.code_of_hi_le h, value_steps]

/-- Going through the scale raises a value by more than a step only if it lies below the scale. -/
theorem value_code_le_iff (x : α) :
    S.value (S.code x) ≤ x + S.step ↔ S.lo - S.step ≤ x := by
  have hstep := S.step_pos
  rcases le_total x S.lo with hlow | hlow
  · rw [S.value_code_of_le_lo hlow, sub_le_iff_le_add]
  · rcases le_total S.hi x with hhigh | hhigh
    · rw [S.value_code_of_hi_le hhigh]
      constructor <;> intro _ <;> linarith
    · have hclose := S.abs_value_code_sub_le x
      rw [S.clamp_of_mem hlow hhigh, abs_le] at hclose
      constructor <;> intro _ <;> linarith [hclose.2]

/-- A value that lies between two bounds is still between them, up to a step, when it has been sent
through the scale, exactly when the bounds leave room on the scale. -/
theorem value_code_between_iff {a b x : α} (ha : a ≤ x) (hb : x ≤ b) :
    (a - S.step ≤ S.value (S.code x) ∧ S.value (S.code x) ≤ b + S.step) ↔
      (a ≤ S.hi + S.step ∧ S.lo - S.step ≤ b) := by
  have hstep := S.step_pos
  rcases le_total x S.lo with hlow | hlow
  · rw [S.value_code_of_le_lo hlow]
    have hwidth := S.lo_lt_hi
    constructor
    · intro h
      constructor <;> linarith [h.2]
    · intro h
      constructor <;> linarith [h.2]
  · rcases le_total S.hi x with hhigh | hhigh
    · rw [S.value_code_of_hi_le hhigh]
      have hwidth := S.lo_lt_hi
      constructor
      · intro h
        constructor <;> linarith [h.1]
      · intro h
        constructor <;> linarith [h.1]
    · have hclose := S.abs_value_code_sub_le x
      rw [S.clamp_of_mem hlow hhigh, abs_le] at hclose
      constructor
      · intro _
        constructor <;> linarith
      · intro _
        constructor <;> linarith [hclose.1, hclose.2]

end Scale

end Quantizer
end PoorMansSmu
