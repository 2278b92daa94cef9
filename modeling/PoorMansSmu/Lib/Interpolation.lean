import Mathlib.Algebra.Order.Field.Basic
import Mathlib.Data.Nat.Notation
import Mathlib.Tactic.FieldSimp
import Mathlib.Tactic.Linarith
import Mathlib.Tactic.Ring

/-!
# Interpolation — the interval of a table an input is in, and the value in between

A table has knots `x 0, x 1, …` in whatever order, and a value at every knot.  This file defines

- `Brackets x v j` : the input lies after knot `j` and not after knot `j + 1`,
- `lookup x v n i` : the first of the `n` intervals from `i` on that brackets the input,
- `between`        : the value between the ends of an interval, on the straight line,

and shows that a value in between lies between those at the ends, that it is that of an end at the
end, and which interval is found when the knots ascend.  Nothing here mentions a particular program.
-/

namespace PoorMansSmu
namespace Interpolation

variable {K : Type*}

section Knots

variable [LinearOrder K]

/-! ## Looking up -/

/-- The input is in interval `j`, which includes its right end only. -/
def Brackets (x : ℕ → K) (v : K) (j : ℕ) : Prop := x j < v ∧ v ≤ x (j + 1)

instance (x : ℕ → K) (v : K) (j : ℕ) : Decidable (Brackets x v j) :=
  inferInstanceAs (Decidable (_ ∧ _))

def lookup (x : ℕ → K) (v : K) : (n i : ℕ) → Option ℕ
  | 0, _ => none
  | n + 1, i => if Brackets x v i then some i else lookup x v n (i + 1)

theorem lookup_eq_none_iff {x : ℕ → K} {v : K} {n i : ℕ} :
    lookup x v n i = none ↔ ∀ j, i ≤ j → j < i + n → ¬ Brackets x v j := by
  induction n generalizing i with
  | zero =>
      constructor
      · intro _ j hij hj
        omega
      · intro _
        rfl
  | succ n ih =>
      by_cases hi : Brackets x v i
      · -- the first interval is found, and the right side fails there
        rw [lookup, if_pos hi]
        constructor
        · intro h
          exact absurd h (Option.some_ne_none i)
        · intro h
          exact absurd hi (h i le_rfl (by omega))
      · rw [lookup, if_neg hi, ih]
        constructor
        · -- the first interval is looked at here, the others by the rest of the loop
          intro h j hij hj
          rcases Nat.eq_or_lt_of_le hij with rfl | hlt
          · exact hi
          · exact h j hlt (by omega)
        · intro h j hij hj
          exact h j (by omega) (by omega)

/-- What is found is the first interval the input is in. -/
theorem lookup_eq_some {x : ℕ → K} {v : K} {n i j : ℕ} (h : lookup x v n i = some j) :
    i ≤ j ∧ j < i + n ∧ Brackets x v j ∧ ∀ k, i ≤ k → k < j → ¬ Brackets x v k := by
  induction n generalizing i with
  | zero => exact absurd h (Option.some_ne_none j).symm
  | succ n ih =>
      by_cases hi : Brackets x v i
      · rw [lookup, if_pos hi] at h
        obtain rfl := Option.some.inj h
        refine ⟨le_rfl, by omega, hi, ?_⟩
        intro k hik hk
        omega
      · rw [lookup, if_neg hi] at h
        obtain ⟨hij, hj, hbrackets, hfirst⟩ := ih h
        refine ⟨by omega, by omega, hbrackets, ?_⟩
        intro k hik hk
        rcases Nat.eq_or_lt_of_le hik with rfl | hlt
        · exact hi
        · exact hfirst k hlt hk

/-! ## Ascending knots -/

/-- The first `n` knots ascend. -/
def Ascending (x : ℕ → K) (n : ℕ) : Prop := ∀ i < n - 1, x i < x (i + 1)

instance (x : ℕ → K) (n : ℕ) : Decidable (Ascending x n) := Nat.decidableBallLT _ _

/-- An input after the first knot and not after the last one is in an interval. -/
theorem exists_brackets {x : ℕ → K} {v : K} {n : ℕ} (hfirst : x 0 < v) (hlast : v ≤ x n) :
    ∃ j < n, Brackets x v j := by
  induction n with
  | zero => exact absurd hlast (not_le.2 hfirst)
  | succ n ih =>
      rcases lt_or_ge (x n) v with hlt | hge
      · exact ⟨n, Nat.lt_succ_self n, hlt, hlast⟩
      · obtain ⟨j, hj, hv⟩ := ih hge
        exact ⟨j, hj.trans (Nat.lt_succ_self n), hv⟩

section Ascending

variable {x : ℕ → K} {n : ℕ} (h : Ascending x n)

include h

theorem Ascending.lt {i j : ℕ} (hij : i < j) (hj : j < n) : x i < x j := by
  induction j with
  | zero => exact absurd hij (Nat.not_lt_zero i)
  | succ j ih =>
      have hstep := h j (by omega)
      rcases Nat.eq_or_lt_of_le (Nat.le_of_lt_succ hij) with rfl | hlt
      · exact hstep
      · exact (ih hlt (by omega)).trans hstep

theorem Ascending.le {i j : ℕ} (hij : i ≤ j) (hj : j < n) : x i ≤ x j := by
  rcases Nat.eq_or_lt_of_le hij with rfl | hlt
  · exact le_rfl
  · exact (h.lt hlt hj).le

/-- No input is in two intervals. -/
theorem Ascending.unique {v : K} {i j : ℕ} (hi : i + 1 < n) (hj : j + 1 < n)
    (hvi : Brackets x v i) (hvj : Brackets x v j) : i = j := by
  rcases Nat.lt_trichotomy i j with hlt | heq | hgt
  · -- the end of the earlier interval is not after the start of the later one
    exact absurd (hvi.2.trans (h.le hlt (by omega))) (not_le.2 hvj.1)
  · exact heq
  · exact absurd (hvj.2.trans (h.le hgt (by omega))) (not_le.2 hvi.1)

theorem Ascending.lookup_eq {v : K} {j : ℕ} (hj : j + 1 < n) (hv : Brackets x v j) :
    lookup x v (n - 1) 0 = some j := by
  rcases hlookup : lookup x v (n - 1) 0 with _ | k
  · exact absurd hv (lookup_eq_none_iff.1 hlookup j (Nat.zero_le j) (by omega))
  · obtain ⟨-, hk, hvk, -⟩ := lookup_eq_some hlookup
    rw [h.unique (by omega) hj hvk hv]

end Ascending

end Knots

/-! ## Values in between -/

/-- The value at `v` on the line through `(x₀, y₀)` and `(x₁, y₁)`. -/
def between [Field K] (x₀ y₀ x₁ y₁ v : K) : K := y₀ + (y₁ - y₀) * ((v - x₀) / (x₁ - x₀))

section Between

variable [Field K] {x₀ y₀ x₁ y₁ v : K}

theorem between_left : between x₀ y₀ x₁ y₁ x₀ = y₀ := by
  rw [between, sub_self, zero_div, mul_zero, add_zero]

theorem between_right (h : x₀ ≠ x₁) : between x₀ y₀ x₁ y₁ x₁ = y₁ := by
  rw [between, div_self (sub_ne_zero.2 h.symm), mul_one, add_sub_cancel]

/-- A point is on the line exactly when the rises are in the ratio of the runs. -/
theorem between_eq_iff (h : x₀ ≠ x₁) {y : K} :
    between x₀ y₀ x₁ y₁ v = y ↔ (y - y₀) * (x₁ - x₀) = (y₁ - y₀) * (v - x₀) := by
  have hrange : x₁ - x₀ ≠ 0 := sub_ne_zero.2 h.symm
  rw [between, ← eq_sub_iff_add_eq', mul_div_assoc', div_eq_iff hrange, eq_comm]

/-- An input plus the value on a line is the value on the line with the knots added. -/
theorem add_between (h : x₀ ≠ x₁) :
    v + between x₀ y₀ x₁ y₁ v = between x₀ (x₀ + y₀) x₁ (x₁ + y₁) v := by
  have hrange : x₁ - x₀ ≠ 0 := sub_ne_zero.2 h.symm
  unfold between
  field_simp
  ring

/-- The line in the form `a * v + b`. -/
theorem between_affine :
    between x₀ y₀ x₁ y₁ v =
      (y₁ - y₀) / (x₁ - x₀) * v + (y₀ - (y₁ - y₀) / (x₁ - x₀) * x₀) := by
  unfold between
  ring

variable [LinearOrder K] [IsStrictOrderedRing K]

/-- A value in between lies between those at the ends. -/
theorem between_mem (h₀ : x₀ < v) (h₁ : v ≤ x₁) :
    min y₀ y₁ ≤ between x₀ y₀ x₁ y₁ v ∧ between x₀ y₀ x₁ y₁ v ≤ max y₀ y₁ := by
  have hrange : 0 < x₁ - x₀ := sub_pos.2 (h₀.trans_le h₁)
  have hpart0 : 0 ≤ (v - x₀) / (x₁ - x₀) := div_nonneg (sub_nonneg.2 h₀.le) hrange.le
  have hpart1 : (v - x₀) / (x₁ - x₀) ≤ 1 := (div_le_one hrange).2 (by linarith)
  -- the share of the interval passed is between 0 and 1
  unfold between
  rcases le_total y₀ y₁ with hup | hdown
  · rw [min_eq_left hup, max_eq_right hup]
    have hrise := mul_le_of_le_one_right (sub_nonneg.2 hup) hpart1
    have hnonneg := mul_nonneg (sub_nonneg.2 hup) hpart0
    constructor <;> linarith
  · rw [min_eq_right hdown, max_eq_left hdown]
    have hfall := mul_le_of_le_one_right (sub_nonneg.2 hdown) hpart1
    have hnonneg := mul_nonneg (sub_nonneg.2 hdown) hpart0
    constructor <;> linarith

/-- The magnitude of a value in between is at most that of one of the ends. -/
theorem abs_between_le (h₀ : x₀ < v) (h₁ : v ≤ x₁) :
    |between x₀ y₀ x₁ y₁ v| ≤ max |y₀| |y₁| := by
  obtain ⟨hlow, hhigh⟩ : min y₀ y₁ ≤ between x₀ y₀ x₁ y₁ v ∧
      between x₀ y₀ x₁ y₁ v ≤ max y₀ y₁ := between_mem h₀ h₁
  rcases le_total y₀ y₁ with hup | hdown
  · rw [min_eq_left hup] at hlow
    rw [max_eq_right hup] at hhigh
    exact abs_le_max_abs_abs hlow hhigh
  · rw [min_eq_right hdown] at hlow
    rw [max_eq_left hdown] at hhigh
    rw [max_comm]
    exact abs_le_max_abs_abs hlow hhigh

/-- A function that changes by `L` at most for each unit stays close to its chords: its value at `u`
is off from that of a chord at `v` by half the length of the chord at most, and the distance. -/
theorem abs_sub_chord_le {f : K → K} {L : K} (hf : ∀ x y, |f x - f y| ≤ L * |x - y|)
    (h₀ : x₀ < v) (h₁ : v ≤ x₁) (u : K) :
    |f u - between x₀ (f x₀) x₁ (f x₁) v| ≤ L * (|u - v| + (x₁ - x₀) / 2) := by
  have hlength : 0 < x₁ - x₀ := sub_pos.2 (h₀.trans_le h₁)
  have hL : 0 ≤ L := by
    have hends := (abs_nonneg _).trans (hf x₁ x₀)
    rw [abs_of_pos hlength] at hends
    exact nonneg_of_mul_nonneg_left hends hlength
  -- `t` is the share of the chord that `v` has passed
  obtain ⟨t, ht⟩ : ∃ t, t = (v - x₀) / (x₁ - x₀) := ⟨_, rfl⟩
  have ht0 : 0 ≤ t := ht ▸ div_nonneg (sub_nonneg.2 h₀.le) hlength.le
  have ht1 : t ≤ 1 := ht ▸ (div_le_one hlength).2 (by linarith)
  have hv : v - x₀ = t * (x₁ - x₀) := by rw [ht, div_mul_cancel₀ _ hlength.ne']
  have hsplit : f u - between x₀ (f x₀) x₁ (f x₁) v =
      (1 - t) * (f u - f x₀) + t * (f u - f x₁) := by
    rw [between, ← ht]
    ring
  have hleft : |f u - f x₀| ≤ L * (|u - v| + t * (x₁ - x₀)) := by
    refine (hf u x₀).trans (mul_le_mul_of_nonneg_left ?_ hL)
    have htri := abs_sub_le u v x₀
    rwa [abs_of_pos (sub_pos.2 h₀), hv] at htri
  have hright : |f u - f x₁| ≤ L * (|u - v| + (1 - t) * (x₁ - x₀)) := by
    refine (hf u x₁).trans (mul_le_mul_of_nonneg_left ?_ hL)
    have hrest : |v - x₁| = (1 - t) * (x₁ - x₀) := by
      rw [abs_of_nonpos (sub_nonpos.2 h₁)]
      linarith
    have htri := abs_sub_le u v x₁
    rwa [hrest] at htri
  have hshare : 2 * (t * (1 - t)) ≤ 1 / 2 := by nlinarith [sq_nonneg (2 * t - 1)]
  calc |f u - between x₀ (f x₀) x₁ (f x₁) v|
      ≤ |(1 - t) * (f u - f x₀)| + |t * (f u - f x₁)| := hsplit ▸ abs_add_le _ _
    _ = (1 - t) * |f u - f x₀| + t * |f u - f x₁| := by
        rw [abs_mul, abs_mul, abs_of_nonneg (sub_nonneg.2 ht1), abs_of_nonneg ht0]
    _ ≤ (1 - t) * (L * (|u - v| + t * (x₁ - x₀))) +
          t * (L * (|u - v| + (1 - t) * (x₁ - x₀))) :=
        add_le_add (mul_le_mul_of_nonneg_left hleft (sub_nonneg.2 ht1))
          (mul_le_mul_of_nonneg_left hright ht0)
    _ = L * (|u - v| + 2 * (t * (1 - t)) * (x₁ - x₀)) := by ring
    _ ≤ L * (|u - v| + 1 / 2 * (x₁ - x₀)) := by gcongr
    _ = L * (|u - v| + (x₁ - x₀) / 2) := by ring

end Between

end Interpolation
end PoorMansSmu
