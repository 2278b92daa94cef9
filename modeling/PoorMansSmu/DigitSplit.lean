import PoorMansSmu.Operations
import Mathlib.Algebra.Order.Floor.Ring
import Mathlib.Tactic.Linarith
import Mathlib.Tactic.NormNum
import Mathlib.Tactic.Ring

/-!
# DigitSplit — a measured value split into groups of three digits

The displays show a value in milli-units as four numbers: whole units, milli, micro and nano.
`separate2` takes each of them from a remainder of its own.  They are all the same as cutting the
value down to its nano-units and writing that number to the base 1000 (`reading_separate2`), so there
is no carry that one of them makes and another one misses.
-/

namespace PoorMansSmu
namespace DigitSplit

/-- What `separate2` writes through its pointers. -/
structure Parts where
  v : ℤ
  mv : ℤ
  uv : ℤ
  nv : ℤ
  neg : Bool
  deriving DecidableEq

def separate2 (rawMv : ℚ) : Parts :=
  let neg := decide (rawMv < 0)
  let rawMv := if rawMv < 0 then 0 - rawMv else rawMv
  let v := truncate (rawMv / 1000)
  let mv := truncate (rawMv - v * 1000)
  let uv_f := (rawMv - truncate rawMv) * 1000
  let uv := truncate uv_f
  let nv := truncate ((uv_f - truncate uv_f) * 1000)
  { v, mv, uv, nv, neg }

/-- `separate` leaves the nano-units out; what stands in that place is not written. -/
def separate (rawMv : ℚ) (nv : ℤ) : Parts :=
  let neg := decide (rawMv < 0)
  let rawMv := if rawMv < 0 then 0 - rawMv else rawMv
  let v := truncate (rawMv / 1000)
  let mv := truncate (rawMv - v * 1000)
  let uv := truncate ((rawMv - truncate rawMv) * 1000)
  { v, mv, uv, nv, neg }

theorem separate_eq (rawMv : ℚ) (nv : ℤ) :
    separate rawMv nv = { separate2 rawMv with nv := nv } := rfl

/-! ## Remainders and digits -/

/-- What is cut off, `b` times enlarged, gives the next digit to the base `b`. -/
theorem floor_remainder_mul (a : ℚ) (b : ℕ) :
    ⌊(a - ⌊a⌋) * b⌋ = ⌊a * b⌋ - ⌊a⌋ * b := by
  have hsplit : (a - ⌊a⌋) * b = a * b - ((⌊a⌋ * b : ℤ) : ℚ) := by
    push_cast
    ring
  rw [hsplit, Int.floor_sub_intCast]

theorem floor_eq_div (a : ℚ) {b : ℕ} (hb : 0 < b) : ⌊a⌋ = ⌊a * b⌋ / b := by
  have hb' : (b : ℚ) ≠ 0 := by exact_mod_cast hb.ne'
  rw [← Int.floor_div_natCast, mul_div_cancel_right₀ a hb']

section Parts

variable (rawMv : ℚ)

theorem neg_iff : (separate2 rawMv).neg = true ↔ rawMv < 0 :=
  decide_eq_true_iff

theorem magnitude_eq : (if rawMv < 0 then 0 - rawMv else rawMv) = |rawMv| := by
  by_cases hneg : rawMv < 0
  · rw [if_pos hneg, abs_of_neg hneg, zero_sub]
  · rw [if_neg hneg, abs_of_nonneg (not_lt.1 hneg)]

theorem v_eq : (separate2 rawMv).v = ⌊|rawMv|⌋ / 1000 := by
  have hdiv : (0 : ℚ) ≤ |rawMv| / 1000 := by positivity
  have hv : (separate2 rawMv).v = truncate (|rawMv| / 1000) := by
    rw [← magnitude_eq]
    rfl
  rw [hv, truncate_of_nonneg hdiv]
  exact Int.floor_div_natCast |rawMv| 1000

theorem mv_eq : (separate2 rawMv).mv = ⌊|rawMv|⌋ % 1000 := by
  have hmv : (separate2 rawMv).mv = truncate (|rawMv| - (separate2 rawMv).v * 1000) := by
    rw [← magnitude_eq]
    rfl
  have hcast : |rawMv| - (separate2 rawMv).v * 1000 =
      |rawMv| - (((separate2 rawMv).v * 1000 : ℤ) : ℚ) := by
    push_cast
    rfl
  have hfloor : ⌊|rawMv| - (separate2 rawMv).v * 1000⌋ = ⌊|rawMv|⌋ % 1000 := by
    rw [hcast, Int.floor_sub_intCast, v_eq]
    omega
  have hnonneg : 0 ≤ |rawMv| - (separate2 rawMv).v * 1000 := by
    rw [← Int.floor_nonneg, hfloor]
    omega
  rw [hmv, truncate_of_nonneg hnonneg, hfloor]

/-- The remainder `uv_f`, which is cut at the nano-units in turn. -/
theorem remainder_nonneg : 0 ≤ (|rawMv| - ⌊|rawMv|⌋) * 1000 := by
  have hfloor := Int.floor_le |rawMv|
  linarith

theorem uv_eq : (separate2 rawMv).uv = ⌊|rawMv| * 1000⌋ % 1000 := by
  have huv : (separate2 rawMv).uv = truncate ((|rawMv| - truncate |rawMv|) * 1000) := by
    rw [← magnitude_eq]
    rfl
  have hdigit := floor_remainder_mul |rawMv| 1000
  have hwhole := floor_eq_div |rawMv| (b := 1000) (by norm_num)
  rw [huv, truncate_of_nonneg (abs_nonneg rawMv), truncate_of_nonneg (remainder_nonneg rawMv)]
  push_cast at hdigit hwhole
  omega

theorem nv_eq : (separate2 rawMv).nv = ⌊|rawMv| * 1000000⌋ % 1000 := by
  have hnv : (separate2 rawMv).nv = truncate (((|rawMv| - truncate |rawMv|) * 1000 -
      truncate ((|rawMv| - truncate |rawMv|) * 1000)) * 1000) := by
    rw [← magnitude_eq]
    rfl
  rw [hnv, truncate_of_nonneg (abs_nonneg rawMv), truncate_of_nonneg (remainder_nonneg rawMv)]
  -- both cuts only take multiples of 1000 nano-units away
  set uv_f := (|rawMv| - ⌊|rawMv|⌋) * 1000 with huv_f
  have hfloor := Int.floor_le uv_f
  have hnonneg : 0 ≤ (uv_f - ⌊uv_f⌋) * 1000 := by linarith
  have hdigit := floor_remainder_mul uv_f 1000
  have hwhole := floor_eq_div uv_f (b := 1000) (by norm_num)
  have hnano : ⌊uv_f * 1000⌋ = ⌊|rawMv| * 1000000⌋ - ⌊|rawMv|⌋ * 1000000 := by
    have hmillion := floor_remainder_mul |rawMv| 1000000
    have hscale : uv_f * 1000 = (|rawMv| - ⌊|rawMv|⌋) * (1000000 : ℕ) := by
      rw [huv_f]
      push_cast
      ring
    push_cast at hmillion
    rw [hscale]
    push_cast
    exact hmillion
  rw [truncate_of_nonneg hnonneg]
  push_cast at hdigit hwhole
  omega

/-- The four numbers together count the whole nano-units. -/
theorem reading_separate2 :
    ((separate2 rawMv).v * 1000 + (separate2 rawMv).mv) * 1000000 + (separate2 rawMv).uv * 1000 +
      (separate2 rawMv).nv = ⌊|rawMv| * 1000000⌋ := by
  have hmicro := floor_eq_div (|rawMv| * 1000) (b := 1000) (by norm_num)
  have hmilli := floor_eq_div |rawMv| (b := 1000) (by norm_num)
  have hscale : |rawMv| * 1000 * (1000 : ℕ) = |rawMv| * 1000000 := by
    push_cast
    ring
  rw [hscale] at hmicro
  push_cast at hmicro hmilli
  rw [v_eq, mv_eq, uv_eq, nv_eq]
  omega

end Parts

/-! ## The split -/

/-- The parts of a value in the range of the instrument, and the carry between two values whose
micro-units follow one another. -/
theorem separate2_splits {rawMv : ℚ} (hrange : |rawMv| < 2000000) :
    ((separate2 rawMv).neg = true ↔ rawMv < 0) ∧
    (0 ≤ (separate2 rawMv).v ∧ (separate2 rawMv).v ≤ 1999) ∧
    (0 ≤ (separate2 rawMv).mv ∧ (separate2 rawMv).mv ≤ 999) ∧
    (0 ≤ (separate2 rawMv).uv ∧ (separate2 rawMv).uv ≤ 999) ∧
    (0 ≤ (separate2 rawMv).nv ∧ (separate2 rawMv).nv ≤ 999) ∧
    0 ≤ |rawMv| - ((separate2 rawMv).v * 1000 + (separate2 rawMv).mv +
      (separate2 rawMv).uv / 1000 + (separate2 rawMv).nv / 1000000) ∧
    |rawMv| - ((separate2 rawMv).v * 1000 + (separate2 rawMv).mv +
      (separate2 rawMv).uv / 1000 + (separate2 rawMv).nv / 1000000) < 0.000001 ∧
    ∀ next : ℚ, ⌊|next| * 1000⌋ = ⌊|rawMv| * 1000⌋ + 1 →
      (⌊|next|⌋ ≠ ⌊|rawMv|⌋ ↔ (separate2 rawMv).uv = 999 ∧ (separate2 next).uv = 0) ∧
      ((separate2 next).mv ≠ (separate2 rawMv).mv ↔
        (separate2 rawMv).uv = 999 ∧ (separate2 next).uv = 0) := by
  have hmilli := floor_eq_div |rawMv| (b := 1000) (by norm_num)
  have hwhole : 0 ≤ ⌊|rawMv|⌋ := Int.floor_nonneg.2 (abs_nonneg rawMv)
  have hfits : ⌊|rawMv|⌋ < 2000000 := by
    rw [Int.floor_lt]
    exact_mod_cast hrange
  have hnext (next : ℚ) := floor_eq_div |next| (b := 1000) (by norm_num)
  push_cast at hmilli hnext
  refine ⟨neg_iff rawMv, ?_, ?_, ?_, ?_, ?_, ?_, ?_⟩
  · rw [v_eq]
    omega
  · rw [mv_eq]
    omega
  · rw [uv_eq]
    omega
  · rw [nv_eq]
    omega
  · have hfloor := Int.floor_le (|rawMv| * 1000000)
    rw [← reading_separate2] at hfloor
    push_cast at hfloor
    linarith
  · have hfloor := Int.lt_floor_add_one (|rawMv| * 1000000)
    rw [← reading_separate2] at hfloor
    push_cast at hfloor
    linarith
  · intro next hstep
    -- the micro-units of both are known, and the milli-units are what is left of them
    rw [uv_eq, uv_eq, mv_eq, mv_eq, hnext next, hmilli, hstep]
    constructor
    · omega
    · omega

/-- A value just below a whole milli-unit. -/
theorem separate2_splits_carry :
    (separate2 (-1999.9999)).mv = 999 ∧ 0 ≤ (separate2 (-1999.9999)).uv ∧
      (separate2 (-1999.9999)).uv ≤ 999 := by
  have hrange : |(-1999.9999 : ℚ)| < 2000000 := by
    rw [abs_of_neg (by norm_num)]
    norm_num
  obtain ⟨-, -, -, huv, -⟩ := separate2_splits hrange
  exact ⟨by decide +kernel, huv⟩

end DigitSplit
end PoorMansSmu
