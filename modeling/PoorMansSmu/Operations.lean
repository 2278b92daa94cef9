import Mathlib.Algebra.Order.Ring.Abs
import Mathlib.Data.Rat.Floor

/-!
# Operations — the enumerations and number conversions shared by all parts

The enumerations of `operations.h`, and the conversions between the number types of the program.
Floating point is modelled by exact rational arithmetic, 64-bit integers by `ℤ`.
-/

namespace PoorMansSmu

/-- `FUNCTION_TYPE`: what the instrument is used for. -/
inductive FunctionType
  | SOURCE_DC_VOLTAGE
  | SOURCE_DC_CURRENT
  | SOURCE_PULSE
  | SOURCE_SWEEP
  | DIGITIZE
  | GRAPH
  | DATALOGGER
  | MEASURE_RESISTANCE
  | SHOWSETTINGS
  deriving DecidableEq, Repr

/-- `OPERATION_TYPE`: what the output stage regulates. -/
inductive OperationType
  | SOURCE_VOLTAGE
  | SOURCE_CURRENT
  deriving DecidableEq, Repr

/-- `CURRENT_RANGE`: which shunt the current is sensed over. -/
inductive CurrentRange
  | AMP1
  | MILLIAMP10
  deriving DecidableEq, Repr

/-- What a number of micro-units counts. -/
inductive Quantity
  | microVolt
  | microAmpere
  deriving DecidableEq, Repr

/-- An `int64_t` number of micro-units, with the quantity its producer meant by it.  The tag is not
in the program, which passes plain integers; nothing the program computes depends on it. -/
structure Micro where
  val : ℤ
  quantity : Quantity
  deriving DecidableEq, Repr

/-- The quantity that limits the output when the other one is sourced. -/
def OperationType.limitQuantity : OperationType → Quantity
  | .SOURCE_VOLTAGE => .microAmpere
  | .SOURCE_CURRENT => .microVolt

/-- Conversion of a floating point number to an integer type: the fraction is dropped. -/
def truncate (x : ℚ) : ℤ :=
  if x < 0 then ⌈x⌉ else ⌊x⌋

theorem truncate_of_nonneg {x : ℚ} (hx : 0 ≤ x) : truncate x = ⌊x⌋ :=
  if_neg (not_lt.2 hx)

theorem truncate_of_neg {x : ℚ} (hx : x < 0) : truncate x = ⌈x⌉ :=
  if_pos hx

theorem truncate_mono {x y : ℚ} (h : x ≤ y) : truncate x ≤ truncate y := by
  rcases lt_or_ge y 0 with hy | hy
  · rw [truncate_of_neg (h.trans_lt hy), truncate_of_neg hy]
    exact Int.ceil_mono h
  · rcases lt_or_ge x 0 with hx | hx
    · -- the two are rounded towards each other, but not beyond zero
      rw [truncate_of_neg hx, truncate_of_nonneg hy]
      exact (Int.ceil_le.2 (by simpa using hx.le)).trans (Int.floor_nonneg.2 hy)
    · rw [truncate_of_nonneg hx, truncate_of_nonneg hy]
      exact Int.floor_mono h

theorem lt_truncate_add_one (x : ℚ) : x < truncate x + 1 := by
  rcases lt_or_ge x 0 with hx | hx
  · rw [truncate_of_neg hx]
    exact (Int.le_ceil x).trans_lt (lt_add_one _)
  · rw [truncate_of_nonneg hx]
    exact Int.lt_floor_add_one x

/-- Dropping the fraction does not lead away from zero. -/
theorem abs_truncate_le (x : ℚ) : |(truncate x : ℚ)| ≤ |x| := by
  unfold truncate
  split_ifs with hx
  · have hle : (⌈x⌉ : ℚ) ≤ 0 := by exact_mod_cast Int.ceil_le.2 (by simpa using hx.le)
    rw [abs_of_nonpos hle, abs_of_neg hx]
    exact neg_le_neg (Int.le_ceil x)
  · have hle : (0 : ℚ) ≤ ⌊x⌋ := by exact_mod_cast Int.le_floor.2 (by simpa using not_lt.1 hx)
    rw [abs_of_nonneg hle, abs_of_nonneg (not_lt.1 hx)]
    exact Int.floor_le x

/-- The value kept by a 32-bit `int`. -/
@[irreducible] def wrap32 (n : ℤ) : ℤ := (n + 2147483648) % 4294967296 - 2147483648

theorem wrap32_of_fits {n : ℤ} (hlo : -2147483648 ≤ n) (hhi : n < 2147483648) : wrap32 n = n := by
  unfold wrap32
  omega

end PoorMansSmu
