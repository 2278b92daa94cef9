import PoorMansSmu.Compensation
import PoorMansSmu.Lib.Gains
import PoorMansSmu.SmuHal

/-!
# Transfer — the order of set voltages and of readings

`fltSetCommitVoltageSource` and `measureMilliVoltage` both multiply by one of four gain factors,
with a second factor above 2.3 V on either side.  By `transfer_order` larger set voltages give larger
voltages and larger codes give larger readings, but for two of them on the two sides of that limit,
which follow the products with the two factors.
-/

namespace PoorMansSmu
namespace Transfer

open Calibration SmuHal Gains Compensation

/-! ## Readings -/

/-- The gains of the readings, positive like those of the converter. -/
structure AdcComp where
  adcGainCompPos : ℚ
  adcGainCompNeg : ℚ
  adcGainCompPos2 : ℚ
  adcGainCompNeg2 : ℚ
  pos_pos : 0 < adcGainCompPos
  neg_pos : 0 < adcGainCompNeg
  pos2_pos : 0 < adcGainCompPos2
  neg2_pos : 0 < adcGainCompNeg2

/-- What `measureMilliVoltage` goes by. -/
structure Meter where
  internalRef : Bool
  voltageMeasurementGainX2 : Bool
  current_range : CurrentRange
  gains : AdcComp
  V_CALIBRATION : AutoCal.CalibrationObject
  nullValueVol : CurrentRange → ℚ

def FSR : ℚ := 2 ^ 23 - 1

def VREF_EXTERNAL_CAL : ℚ := 5.013

namespace Meter

/-- `vref`, and `VFSR` too. -/
def vref (m : Meter) : ℚ := if m.internalRef then 2.5 else VREF_EXTERNAL_CAL

/-- The millivolts a code of the ADC stands for, before gains. -/
def inputMilliVolt (m : Meter) (code : ℕ) : ℚ :=
  let v := code * m.vref * 1000 / FSR
  let v := v - m.vref * 1000
  let v := v / 0.4
  if m.voltageMeasurementGainX2 then v / 2 else v

def measureMilliVoltage (m : Meter) (code : ℕ) : ℚ :=
  let v := m.inputMilliVolt code
  let v :=
    if |v| > 2300 then
      if v > 0 then v * m.gains.adcGainCompPos2 else v * m.gains.adcGainCompNeg2
    else
      if v > 0 then v * m.gains.adcGainCompPos else v * m.gains.adcGainCompNeg
  let v := compensated m.V_CALIBRATION v
  v - m.nullValueVol m.current_range

end Meter

/-! ## The factors on both paths -/

def dacFactors (V_CALIBRATION : DacComp) : Factors ℚ where
  pos := V_CALIBRATION.dacGainCompPos
  pos2 := V_CALIBRATION.dacGainCompPos2
  neg := V_CALIBRATION.dacGainCompNeg
  neg2 := V_CALIBRATION.dacGainCompNeg2
  pos_pos := V_CALIBRATION.pos_pos
  pos2_pos := V_CALIBRATION.pos2_pos
  neg_pos := V_CALIBRATION.neg_pos
  neg2_pos := V_CALIBRATION.neg2_pos

def adcFactors (gains : AdcComp) : Factors ℚ where
  pos := gains.adcGainCompPos
  pos2 := gains.adcGainCompPos2
  neg := gains.adcGainCompNeg
  neg2 := gains.adcGainCompNeg2
  pos_pos := gains.pos_pos
  pos2_pos := gains.pos2_pos
  neg_pos := gains.neg_pos
  neg2_pos := gains.neg2_pos

/-- The voltage that the factors of the converter are chosen for. -/
def dacInput (V_CALIBRATION : DacComp) (voltage_uV : ℚ) : ℚ :=
  voltage_uV / 1000 / 1000 + V_CALIBRATION.dacZeroComp

theorem voltageSourceVolts_scale (V_CALIBRATION : DacComp) (voltage_uV : ℚ) :
    voltageSourceVolts V_CALIBRATION voltage_uV =
      scale (dacFactors V_CALIBRATION) (23 / 10) (dacInput V_CALIBRATION voltage_uV) := by
  have hthreshold : (-23 / 10 : ℚ) = -(23 / 10) := by norm_num
  simp only [voltageSourceVolts, dac_nonlinear_compensation_eq, ite_self,
    voltageInputDividerCompensation, mul_one, mul_ite, scale, dacFactors, dacInput, hthreshold]
  rfl

/-- The magnitude is compared before the sign here. -/
theorem measureMilliVoltage_scale {m : Meter} (hoff : m.V_CALIBRATION.useCalibratedValues = false)
    (code : ℕ) :
    m.measureMilliVoltage code =
      scale (adcFactors m.gains) 2300 (m.inputMilliVolt code) -
        m.nullValueVol m.current_range := by
  have hsame (v : ℚ) : compensated m.V_CALIBRATION v = v :=
    compensated_of_not_brackets (Or.inl hoff)
  simp only [Meter.measureMilliVoltage, hsame, scale, adcFactors, sub_left_inj]
  generalize m.inputMilliVolt code = v
  by_cases hv : v > 0
  · -- the magnitude of a positive value is the value
    rw [abs_of_pos hv]
    simp only [hv, if_true]
  · have hbeyond : |v| > 2300 ↔ v < -2300 := by
      rw [abs_of_nonpos (not_lt.1 hv), gt_iff_lt, lt_neg]
    simp only [hbeyond, hv, if_false]

theorem dacInput_mono (V_CALIBRATION : DacComp) {u w : ℚ} (h : u ≤ w) :
    dacInput V_CALIBRATION u ≤ dacInput V_CALIBRATION w := by
  unfold dacInput
  linarith

theorem vref_pos (m : Meter) : 0 < m.vref := by
  unfold Meter.vref VREF_EXTERNAL_CAL
  split_ifs <;> norm_num

theorem inputMilliVolt_mono (m : Meter) {code code' : ℕ} (h : code ≤ code') :
    m.inputMilliVolt code ≤ m.inputMilliVolt code' := by
  have hvref := (vref_pos m).le
  have hFSR : (0 : ℚ) ≤ FSR := by norm_num [FSR]
  have hcast : (code : ℚ) ≤ code' := Nat.cast_le.2 h
  have hshare : code * m.vref * 1000 / FSR ≤ code' * m.vref * 1000 / FSR := by
    gcongr
  -- the offset and the attenuation in front of the ADC keep the order
  have hfunnel := div_le_div_of_nonneg_right (sub_le_sub_right hshare (m.vref * 1000))
    (by norm_num : (0 : ℚ) ≤ 0.4)
  simp only [Meter.inputMilliVolt]
  split_ifs
  · exact div_le_div_of_nonneg_right hfunnel (by norm_num)
  · exact hfunnel

/-! ## Order -/

/-- How the two paths treat the order of their inputs: two inputs keep it exactly when they do not
drop from the first factor to the second, and with second factors that are not the smaller ones all
do. -/
structure KeepsOrder (V_CALIBRATION : DacComp) (m : Meter) : Prop where
  source : ∀ u w : ℚ, u ≤ w →
    (voltageSourceVolts V_CALIBRATION u ≤ voltageSourceVolts V_CALIBRATION w ↔
      NoDrop (dacFactors V_CALIBRATION) (23 / 10)
        (dacInput V_CALIBRATION u) (dacInput V_CALIBRATION w))
  source_mono : V_CALIBRATION.dacGainCompPos ≤ V_CALIBRATION.dacGainCompPos2 →
    V_CALIBRATION.dacGainCompNeg ≤ V_CALIBRATION.dacGainCompNeg2 →
      Monotone fun u : ℚ => voltageSourceVolts V_CALIBRATION u
  reading : ∀ code code' : ℕ, code ≤ code' →
    (m.measureMilliVoltage code ≤ m.measureMilliVoltage code' ↔
      NoDrop (adcFactors m.gains) 2300 (m.inputMilliVolt code) (m.inputMilliVolt code'))
  reading_mono : m.gains.adcGainCompPos ≤ m.gains.adcGainCompPos2 →
    m.gains.adcGainCompNeg ≤ m.gains.adcGainCompNeg2 → Monotone m.measureMilliVoltage

theorem transfer_order (V_CALIBRATION : DacComp) (m : Meter)
    (hoff : m.V_CALIBRATION.useCalibratedValues = false) : KeepsOrder V_CALIBRATION m := by
  have hdac (u w : ℚ) (h : u ≤ w) :
      voltageSourceVolts V_CALIBRATION u ≤ voltageSourceVolts V_CALIBRATION w ↔
        NoDrop (dacFactors V_CALIBRATION) (23 / 10)
          (dacInput V_CALIBRATION u) (dacInput V_CALIBRATION w) := by
    rw [voltageSourceVolts_scale, voltageSourceVolts_scale]
    exact scale_le_scale_iff _ (dacInput_mono V_CALIBRATION h)
  have hadc (code code' : ℕ) (h : code ≤ code') :
      m.measureMilliVoltage code ≤ m.measureMilliVoltage code' ↔
        NoDrop (adcFactors m.gains) 2300 (m.inputMilliVolt code) (m.inputMilliVolt code') := by
    -- both readings have the same null value taken off
    rw [measureMilliVoltage_scale hoff, measureMilliVoltage_scale hoff, sub_le_sub_iff_right]
    exact scale_le_scale_iff _ (inputMilliVolt_mono m h)
  refine ⟨hdac, ?_, hadc, ?_⟩
  · intro hpos hneg u w h
    apply (hdac u w h).2
    exact noDrop_of_le _ hpos hneg (by norm_num) (dacInput_mono V_CALIBRATION h)
  · intro hpos hneg code code' h
    apply (hadc code code' h).2
    exact noDrop_of_le _ hpos hneg (by norm_num) (inputMilliVolt_mono m h)

/-- A source converter with four different gains, and an offset. -/
def calibratedDac : DacComp :=
  { DacComp.default with
    dacGainCompPos := 1002 / 1000
    dacGainCompNeg := 998 / 1000
    dacGainCompPos2 := 1004 / 1000
    dacGainCompNeg2 := 997 / 1000
    dacZeroComp := 12 / 10
    pos_pos := by norm_num
    neg_pos := by norm_num
    pos2_pos := by norm_num
    neg2_pos := by norm_num }

/-- A meter with four different gains and a null value, and its table off. -/
def calibratedMeter : Meter where
  internalRef := false
  voltageMeasurementGainX2 := true
  current_range := .AMP1
  gains :=
    { adcGainCompPos := 999 / 1000
      adcGainCompNeg := 1003 / 1000
      adcGainCompPos2 := 996 / 1000
      adcGainCompNeg2 := 1005 / 1000
      pos_pos := by norm_num
      neg_pos := by norm_num
      pos2_pos := by norm_num
      neg2_pos := by norm_num }
  V_CALIBRATION := { tableOf 0 (fun _ => 0) fun _ => 0 with useCalibratedValues := false }
  nullValueVol := fun range => if range = .AMP1 then 3 / 10 else 7 / 10

theorem transfer_order_calibrated : KeepsOrder calibratedDac calibratedMeter :=
  transfer_order calibratedDac calibratedMeter rfl

/-- Gains of one, with a second factor of nine tenths for positive voltages. -/
def smallerSecond : DacComp :=
  { DacComp.default with dacGainCompPos2 := 9 / 10, pos2_pos := by norm_num }

/-- From 2.3 V to one microvolt more, the voltage falls by a tenth. -/
theorem not_always_in_order :
    ¬ ∀ (V_CALIBRATION : DacComp) (u w : ℚ), u ≤ w →
      voltageSourceVolts V_CALIBRATION u ≤ voltageSourceVolts V_CALIBRATION w := by
  intro h
  have hstep := h smallerSecond 2300000 2300001 (by norm_num)
  revert hstep
  decide +kernel

end Transfer
end PoorMansSmu
