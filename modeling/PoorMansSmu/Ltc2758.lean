import PoorMansSmu.Lib.Quantizer
import Mathlib.Data.Rat.Floor
import Mathlib.Tactic.NormNum

/-!
# Ltc2758 — the digital to analog converter

The driver functions of `LTC2758.cpp`, and the converter they write to.  Each converter has two sets
of registers: the input registers take what is written, and an update copies them to the registers
that set the output.  A span written alone therefore changes nothing at the output until the code
that follows it.
-/

namespace PoorMansSmu
namespace Ltc2758

open Quantizer

def ADDRESS_DACA : ℕ := 0x00
def ADDRESS_DAC_ALL : ℕ := 0x0E

def LTC2758_WRITE_SPAN_DAC : ℕ := 0x20
def LTC2758_WRITE_CODE_UPDATE_DAC : ℕ := 0x70

/-- The output voltage of a code within a soft span. -/
def LTC2758_code_to_voltage (dac_code : ℕ) (min_output max_output : ℚ) : ℚ :=
  (dac_code / 262143) * (max_output - min_output) + min_output

/-- The code of a voltage within a soft span. -/
def LTC2758_voltage_to_code (dac_voltage min_output max_output : ℚ) : ℕ :=
  let float_code := 262143 * (dac_voltage - min_output) / (max_output - min_output)
  let float_code : ℚ :=
    if float_code > ⌊float_code⌋ + 1 / 2 then ⌈float_code⌉ else ⌊float_code⌋
  let float_code := if float_code < 0 then 0 else float_code
  let float_code := if float_code > 262143 then 262143 else float_code
  ⌊float_code⌋.toNat

/-! ## The converter -/

/-- The soft spans, in the order of their select bits. -/
inductive SoftSpan
  | unipolar5
  | unipolar10
  | bipolar5
  | bipolar10
  | bipolar2_5
  | skewed
  deriving DecidableEq, Repr

/-- The soft span chosen by the bits `S3 S2 S1 S0`; the other selections are reserved. -/
def SoftSpan.ofBits : ℕ → Option SoftSpan
  | 0 => some .unipolar5
  | 1 => some .unipolar10
  | 2 => some .bipolar5
  | 3 => some .bipolar10
  | 4 => some .bipolar2_5
  | 5 => some .skewed
  | _ => none

def SoftSpan.scale : SoftSpan → Scale ℚ
  | .unipolar5 => ⟨0, 5, 262143, by norm_num, by norm_num⟩
  | .unipolar10 => ⟨0, 10, 262143, by norm_num, by norm_num⟩
  | .bipolar5 => ⟨-5, 5, 262143, by norm_num, by norm_num⟩
  | .bipolar10 => ⟨-10, 10, 262143, by norm_num, by norm_num⟩
  | .bipolar2_5 => ⟨-5 / 2, 5 / 2, 262143, by norm_num, by norm_num⟩
  | .skewed => ⟨-5 / 2, 15 / 2, 262143, by norm_num, by norm_num⟩

/-- One converter: its input registers and the registers that set its output. -/
structure Dac where
  inputSpan : SoftSpan
  inputCode : ℕ
  span : SoftSpan
  code : ℕ
  deriving DecidableEq, Repr

/-- The state after power-up: 0 V in the span 0 V to 5 V. -/
def Dac.powerUp : Dac := ⟨.unipolar5, 0, .unipolar5, 0⟩

/-- Copy the input registers to the output registers. -/
def Dac.update (d : Dac) : Dac := { d with span := d.inputSpan, code := d.inputCode }

/-- What a 32-bit transfer does to converter A.  The 18 data bits are sent as `D17..D10`, `D9..D2`,
`D1 D0`, and the span select bits travel in the place of `D5..D2`. -/
def Dac.write (d : Dac) (dac_command dac_address data : ℕ) : Dac :=
  if dac_address = ADDRESS_DACA ∨ dac_address = ADDRESS_DAC_ALL then
    if dac_command = LTC2758_WRITE_SPAN_DAC then
      match SoftSpan.ofBits (data / 4 % 16) with
      | some span => { d with inputSpan := span }
      | none => d
    else if dac_command = LTC2758_WRITE_CODE_UPDATE_DAC then
      Dac.update { d with inputCode := data % 2 ^ 18 }
    else d
  else d

/-- The output voltage. -/
def Dac.voltage (d : Dac) : ℚ := d.span.scale.value d.code

/-- The voltage between neighbouring codes of the span in use. -/
def Dac.step (d : Dac) : ℚ := d.span.scale.step

/-! ## Driver and converter agree -/

theorem SoftSpan.scale_steps (span : SoftSpan) : span.scale.steps = 262143 := by
  cases span <;> rfl

/-- The driver computes the code of the scale of the span, when it is told the ends of the span. -/
theorem LTC2758_voltage_to_code_eq (span : SoftSpan) (v : ℚ) :
    (LTC2758_voltage_to_code v span.scale.lo span.scale.hi : ℤ) = span.scale.code v := by
  unfold LTC2758_voltage_to_code Scale.code roundHalfDown
  rw [span.scale_steps]
  push_cast
  generalize 262143 * (v - span.scale.lo) / (span.scale.hi - span.scale.lo) = x
  -- both sides round `x` the same way and then cut the same integer
  have key : ∀ n : ℤ, ((⌊(if (if (n : ℚ) < 0 then 0 else (n : ℚ)) > 262143 then (262143 : ℚ)
      else if (n : ℚ) < 0 then 0 else (n : ℚ))⌋.toNat : ℕ) : ℤ) = max 0 (min 262143 n) := by
    intro n
    rcases lt_or_ge n 0 with hneg | hnonneg
    · have hq : (n : ℚ) < 0 := by exact_mod_cast hneg
      rw [if_pos hq, if_neg (by norm_num)]
      simp only [Int.floor_zero, Int.toNat_zero, Nat.cast_zero]
      omega
    · have hq : ¬ (n : ℚ) < 0 := by
        rw [not_lt]
        exact_mod_cast hnonneg
      rw [if_neg hq]
      rcases lt_or_ge 262143 n with hbig | hsmall
      · have hb : (n : ℚ) > 262143 := by exact_mod_cast hbig
        rw [if_pos hb]
        have hfloor : ⌊(262143 : ℚ)⌋ = 262143 := by norm_num
        rw [hfloor]
        omega
      · have hb : ¬ (n : ℚ) > 262143 := by
          rw [gt_iff_lt, not_lt]
          exact_mod_cast hsmall
        rw [if_neg hb, Int.floor_intCast]
        omega
  have hcast : (if x > (⌊x⌋ : ℚ) + 1 / 2 then (⌈x⌉ : ℚ) else (⌊x⌋ : ℚ)) =
      ((if (⌊x⌋ : ℚ) + 1 / 2 < x then ⌈x⌉ else ⌊x⌋ : ℤ) : ℚ) := by
    split_ifs <;> rfl
  rw [hcast]
  exact key _

theorem LTC2758_voltage_to_code_lt (span : SoftSpan) (v : ℚ) :
    LTC2758_voltage_to_code v span.scale.lo span.scale.hi < 2 ^ 18 := by
  have h := LTC2758_voltage_to_code_eq span v
  unfold Scale.code at h
  rw [span.scale_steps] at h
  omega

/-- The driver's conversion back is the output of the converter. -/
theorem voltage_eq_code_to_voltage (d : Dac) :
    d.voltage = LTC2758_code_to_voltage d.code d.span.scale.lo d.span.scale.hi := by
  unfold Dac.voltage LTC2758_code_to_voltage Scale.value
  rw [d.span.scale_steps]
  push_cast
  rfl

/-- A span written alone changes nothing at the output. -/
theorem write_span (d : Dac) (data : ℕ) :
    (d.write LTC2758_WRITE_SPAN_DAC ADDRESS_DACA data).voltage = d.voltage ∧
      (d.write LTC2758_WRITE_SPAN_DAC ADDRESS_DACA data).step = d.step := by
  simp only [Dac.write, true_or, if_true]
  cases SoftSpan.ofBits (data / 4 % 16) with
  | none => exact ⟨rfl, rfl⟩
  | some span => exact ⟨rfl, rfl⟩

/-- A span and a code, written one after the other, put the driver's voltage for that code on the
output. -/
theorem write_span_code (d : Dac) (span : SoftSpan) (data : ℕ)
    (hspan : SoftSpan.ofBits (data / 4 % 16) = some span) (v : ℚ) :
    let code := LTC2758_voltage_to_code v span.scale.lo span.scale.hi
    let d' := (d.write LTC2758_WRITE_SPAN_DAC ADDRESS_DACA data).write
      LTC2758_WRITE_CODE_UPDATE_DAC ADDRESS_DACA code
    d'.voltage = LTC2758_code_to_voltage code span.scale.lo span.scale.hi ∧
      d'.step = span.scale.step := by
  have hlt := LTC2758_voltage_to_code_lt span v
  have hcmd : LTC2758_WRITE_CODE_UPDATE_DAC ≠ LTC2758_WRITE_SPAN_DAC := by decide
  simp only [voltage_eq_code_to_voltage, Dac.step, Dac.write, Dac.update, hspan, true_or, if_true,
    hcmd, if_false, Nat.mod_eq_of_lt hlt, and_self]

/-- The driver's conversions there and back are those of the scale of the span. -/
theorem code_to_voltage_voltage_to_code (span : SoftSpan) (v : ℚ) :
    LTC2758_code_to_voltage (LTC2758_voltage_to_code v span.scale.lo span.scale.hi) span.scale.lo
      span.scale.hi = span.scale.value (span.scale.code v) := by
  rw [← LTC2758_voltage_to_code_eq]
  unfold LTC2758_code_to_voltage Scale.value
  rw [span.scale_steps]
  push_cast
  rfl

end Ltc2758
end PoorMansSmu
