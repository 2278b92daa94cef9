import Mathlib.Data.Rat.Floor
import Mathlib.Tactic.NormNum

/-!
# Calibration — how set values are corrected before they reach a converter

The part of `CalibrationClass` that the output stage reads: gains, offsets and the table of
nonlinearity corrections.  One object corrects voltages, another one currents.
-/

namespace PoorMansSmu
namespace Calibration

/-- The converter side of a `CalibrationClass` object. -/
structure DacGains where
  useDacCalibratedValues : Bool
  dacGainCompPos : ℚ
  dacGainCompNeg : ℚ
  dacGainCompPos2 : ℚ
  dacGainCompNeg2 : ℚ
  dacGainCompLim : ℚ
  dacZeroComp : ℚ
  dacZeroComp2 : ℚ

/-- The converter side of a calibrated object, where a gain is a positive number. -/
structure DacComp extends DacGains where
  pos_pos : 0 < dacGainCompPos
  neg_pos : 0 < dacGainCompNeg
  pos2_pos : 0 < dacGainCompPos2
  neg2_pos : 0 < dacGainCompNeg2
  lim_pos : 0 < dacGainCompLim

instance : Coe DacComp DacGains := ⟨DacComp.toDacGains⟩

/-- The values written to an empty memory on first use. -/
def DacComp.default : DacComp where
  useDacCalibratedValues := true
  dacGainCompPos := 1
  dacGainCompNeg := 1
  dacGainCompPos2 := 1
  dacGainCompNeg2 := 1
  dacGainCompLim := 1
  dacZeroComp := 0
  dacZeroComp2 := 0
  pos_pos := by norm_num
  neg_pos := by norm_num
  pos2_pos := by norm_num
  neg2_pos := by norm_num
  lim_pos := by norm_num

/-- The correction read off a table of pairs of set and measured values: inside the interval between
two neighbouring points it changes linearly from the one's error to the other's. -/
def tableCompensation : List (ℚ × ℚ) → ℚ → ℚ
  | (set, meas) :: (set', meas') :: rest, v =>
      if v > set ∧ v ≤ set' then
        let adj_factor_low := set - meas
        let adj_factor_high := set' - meas'
        let adj_factor_diff := adj_factor_high - adj_factor_low
        let range := set' - set
        let partWithinRange := (v - set) / range
        v + (adj_factor_low + adj_factor_diff * partWithinRange)
      else tableCompensation ((set', meas') :: rest) v
  | _, v => v

/-- The points of `set_dac` and `meas_dac` in use.  `dac_cal_points` stays 0: the statements that
filled the two arrays are commented out. -/
def dacCalPoints : List (ℚ × ℚ) := []

def dac_nonlinear_compensation (milliVolt : ℚ) : ℚ :=
  tableCompensation dacCalPoints milliVolt

@[simp] theorem dac_nonlinear_compensation_eq (v : ℚ) : dac_nonlinear_compensation v = v := rfl

end Calibration
end PoorMansSmu
