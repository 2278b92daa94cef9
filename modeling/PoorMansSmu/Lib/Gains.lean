import Mathlib.Algebra.Order.Field.Basic
import Mathlib.Tactic.Linarith
import Mathlib.Tactic.SplitIfs

/-!
# Gains — a factor chosen by the sign and the magnitude of its input

An input is multiplied by one of four positive factors: one pair for each sign, and of each pair the
second factor beyond a threshold.

- `Gains.scale`            : the product;
- `NoDrop`                 : two inputs on the two sides of the threshold keep their order;
- `scale_le_scale_iff`     : all other pairs of inputs keep theirs;
- `noDrop_of_le`           : no pair drops when the second factors are not the smaller ones.

Nothing here mentions a particular program.
-/

namespace PoorMansSmu
namespace Gains

variable {K : Type*} [Field K] [LinearOrder K]

/-- The factors for positive and for other inputs, up to the threshold and beyond. -/
structure Factors (K : Type*) [Field K] [LinearOrder K] where
  pos : K
  pos2 : K
  neg : K
  neg2 : K
  pos_pos : 0 < pos
  pos2_pos : 0 < pos2
  neg_pos : 0 < neg
  neg2_pos : 0 < neg2

def scale (g : Factors K) (t v : K) : K :=
  if v > 0 then (if v > t then v * g.pos2 else v * g.pos)
  else if v < -t then v * g.neg2 else v * g.neg

/-- Inputs of the same sign on the two sides of the threshold. -/
structure NoDrop (g : Factors K) (t x y : K) : Prop where
  above : 0 < x → x ≤ t → t < y → x * g.pos ≤ y * g.pos2
  below : x < -t → -t ≤ y → y ≤ 0 → x * g.neg2 ≤ y * g.neg

variable [IsStrictOrderedRing K] (g : Factors K) {t x y : K}

theorem scale_pos (hx : 0 < x) : 0 < scale g t x := by
  rw [scale, if_pos hx]
  split_ifs
  · exact mul_pos hx g.pos2_pos
  · exact mul_pos hx g.pos_pos

theorem scale_nonpos (hx : x ≤ 0) : scale g t x ≤ 0 := by
  rw [scale, if_neg (not_lt.2 hx)]
  split_ifs
  · exact mul_nonpos_of_nonpos_of_nonneg hx g.neg2_pos.le
  · exact mul_nonpos_of_nonpos_of_nonneg hx g.neg_pos.le

/-- Two inputs keep their order, if they do not drop at the threshold. -/
theorem scale_le_scale_iff (hxy : x ≤ y) :
    scale g t x ≤ scale g t y ↔ NoDrop g t x y := by
  rcases lt_or_ge 0 x with hx | hx
  · -- both are positive
    have hy : 0 < y := hx.trans_le hxy
    have hbelow : x < -t → -t ≤ y → y ≤ 0 → x * g.neg2 ≤ y * g.neg := by
      intro _ _ hy'
      exact absurd hy (not_lt.2 hy')
    rw [scale, scale, if_pos hx, if_pos hy]
    by_cases hxt : x > t
    · -- both beyond the threshold, with one factor
      have hyt : y > t := hxt.trans_le hxy
      rw [if_pos hxt, if_pos hyt]
      constructor
      · intro _
        exact ⟨fun _ hle => absurd hxt (not_lt.2 hle), hbelow⟩
      · intro _
        exact mul_le_mul_of_nonneg_right hxy g.pos2_pos.le
    · rw [if_neg hxt]
      by_cases hyt : y > t
      · -- on the two sides of it: the order is that of the products
        rw [if_pos hyt]
        constructor
        · intro h
          exact ⟨fun _ _ _ => h, hbelow⟩
        · intro h
          exact h.above hx (not_lt.1 hxt) hyt
      · rw [if_neg hyt]
        constructor
        · intro _
          exact ⟨fun _ _ hlt => absurd hlt hyt, hbelow⟩
        · intro _
          exact mul_le_mul_of_nonneg_right hxy g.pos_pos.le
  · have habove : 0 < x → x ≤ t → t < y → x * g.pos ≤ y * g.pos2 := by
      intro hx'
      exact absurd hx' (not_lt.2 hx)
    rcases lt_or_ge 0 y with hy | hy
    · -- the signs differ
      constructor
      · intro _
        exact ⟨habove, fun _ _ hy' => absurd hy (not_lt.2 hy')⟩
      · intro _
        exact (scale_nonpos g hx).trans (scale_pos g hy).le
    · -- neither is positive, and the threshold lies below
      rw [scale, scale, if_neg (not_lt.2 hx), if_neg (not_lt.2 hy)]
      by_cases hyt : y < -t
      · have hxt : x < -t := hxy.trans_lt hyt
        rw [if_pos hxt, if_pos hyt]
        constructor
        · intro _
          exact ⟨habove, fun _ hle => absurd hyt (not_lt.2 hle)⟩
        · intro _
          exact mul_le_mul_of_nonneg_right hxy g.neg2_pos.le
      · rw [if_neg hyt]
        by_cases hxt : x < -t
        · rw [if_pos hxt]
          constructor
          · intro h
            exact ⟨habove, fun _ _ _ => h⟩
          · intro h
            exact h.below hxt (not_lt.1 hyt) hy
        · rw [if_neg hxt]
          constructor
          · intro _
            exact ⟨habove, fun hlt => absurd hlt hxt⟩
          · intro _
            exact mul_le_mul_of_nonneg_right hxy g.neg_pos.le

/-- With second factors that are not the smaller ones, no two inputs drop. -/
theorem noDrop_of_le (hpos : g.pos ≤ g.pos2) (hneg : g.neg ≤ g.neg2) (ht : 0 < t) (hxy : x ≤ y) :
    NoDrop g t x y where
  above := by
    intro hx _ _
    calc
      x * g.pos ≤ y * g.pos := mul_le_mul_of_nonneg_right hxy g.pos_pos.le
      _ ≤ y * g.pos2 := mul_le_mul_of_nonneg_left hpos (hx.trans_le hxy).le
  below := by
    intro hx _ _
    have hx0 : x ≤ 0 := by linarith
    calc
      x * g.neg2 ≤ x * g.neg := mul_le_mul_of_nonpos_left hneg hx0
      _ ≤ y * g.neg := mul_le_mul_of_nonneg_right hxy g.neg_pos.le

end Gains
end PoorMansSmu
