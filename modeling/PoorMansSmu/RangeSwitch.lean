import PoorMansSmu.Lib.Run
import PoorMansSmu.SmuHal
import Mathlib.Tactic.Linarith
import Mathlib.Tactic.FieldSimp
import Mathlib.Tactic.Ring
import Mathlib.Tactic.Positivity

/-!
# RangeSwitch — the writes of a current range switch, one by one

`setCurrentRange` moves the sense relay and rewrites a converter.  Between the two the relay is in
one range while the converter still holds, or already holds, the voltage meant for the other.  This
file reads the converter after every single write in the range the relay is in at that moment:

- `impliedCurrentLimit`, `impliedCurrentSource`: the current a converter voltage stands for;
- `Held`: that current does not exceed what was set, up to one converter step;
- `SwitchCondition`: the inequalities on the state before the call under which `Held` survives
  every write.
-/

namespace PoorMansSmu
namespace RangeSwitch

open Calibration Hardware Ltc2758 SmuHal Run

/-! ## What a converter voltage stands for -/

/-- The limit, in µA, that a voltage of the limit converter stands for in a range. -/
def impliedCurrentLimit (V_CALIBRATION : DacComp) (range : CurrentRange) (v : ℚ) : ℚ :=
  match range with
  | .AMP1 => v / V_CALIBRATION.dacGainCompLim / (10 * (R_shunt_1A + R_mosfetSwitch)) * 1000 * 1000
  | .MILLIAMP10 => v * 1000

/-- The current, in µA, that a voltage of the source converter stands for in a range. -/
def impliedCurrentSource (C_CALIBRATION : DacComp) (range : CurrentRange) (v : ℚ) : ℚ :=
  match range with
  | .AMP1 =>
      let u := -v / 1.09
      let u := if u < 0 then u / C_CALIBRATION.dacGainCompNeg else u / C_CALIBRATION.dacGainCompPos
      (u / 0.9 - C_CALIBRATION.dacZeroComp) * 2 / 10 * 1000 * 1000
  | .MILLIAMP10 =>
      let u := -v
      let u :=
        if u < 0 then u / C_CALIBRATION.dacGainCompNeg2 else u / C_CALIBRATION.dacGainCompPos2
      (u - C_CALIBRATION.dacZeroComp2) / 1000 * 1000 * 1000

/-- The voltage a limit stands for in a range, before it is cut to the scale of the converter. -/
def limitVolts (V_CALIBRATION : DacComp) (range : CurrentRange) (current_uA : ℚ) : ℚ :=
  match range with
  | .AMP1 =>
      10 * (current_uA / 1000 / 1000) * (R_shunt_1A + R_mosfetSwitch) * V_CALIBRATION.dacGainCompLim
  | .MILLIAMP10 => current_uA / 1000

/-- The converter that a switch in a given mode rewrites. -/
def rewrittenDac (operationType : OperationType) (hw : Hw) : Dac :=
  match operationType with
  | .SOURCE_VOLTAGE => hw.limitDac
  | .SOURCE_CURRENT => hw.sourceDac

/-- The set value is respected: some voltage within one step of the converter's stands for a current
that is not above it. -/
def Held (wire : RelayWire) (operationType : OperationType) (s : ADCClass) (hw : Hw) : Prop :=
  let dac := rewrittenDac operationType hw
  ∃ v, |v - dac.voltage| ≤ dac.step ∧
    match operationType with
    | .SOURCE_VOLTAGE =>
        impliedCurrentLimit s.V_CALIBRATION (relayRange wire hw) v ≤ s.setLimit_micro.val
    | .SOURCE_CURRENT =>
        |impliedCurrentSource s.C_CALIBRATION (relayRange wire hw) v| ≤ |(s.setValue_micro : ℚ)|

/-- The writes a call made, in order. -/
def callWrites (before after : ADCClass) : List HwWrite :=
  after.sent.drop before.sent.length

/-- The set value is respected after every single write of a range switch. -/
def SafeSwitch (wire : RelayWire) (s : ADCClass) (range : CurrentRange)
    (operationType : OperationType) : Prop :=
  AfterEach Hw.apply (Held wire operationType s) s.hw
    (callWrites s (s.setCurrentRange range operationType))

/-! ## The condition -/

/-- A converter voltage, with its step, respects the set value in a range. -/
def Within (operationType : OperationType) (s : ADCClass) (range : CurrentRange)
    (voltage step : ℚ) : Prop :=
  match operationType with
  | .SOURCE_VOLTAGE => voltage ≤ limitVolts s.V_CALIBRATION range s.setLimit_micro.val + step
  | .SOURCE_CURRENT =>
      currentSourceVolts s.C_CALIBRATION range |(s.setValue_micro : ℚ)| - step ≤ voltage ∧
        voltage ≤ currentSourceVolts s.C_CALIBRATION range (-|(s.setValue_micro : ℚ)|) + step

/-- The set value leaves room on the scale of the converter. -/
def OnScale (operationType : OperationType) (s : ADCClass) (range : CurrentRange) : Prop :=
  match operationType with
  | .SOURCE_VOLTAGE =>
      -SoftSpan.unipolar10.scale.step ≤ limitVolts s.V_CALIBRATION range s.setLimit_micro.val
  | .SOURCE_CURRENT =>
      currentSourceVolts s.C_CALIBRATION range |(s.setValue_micro : ℚ)| ≤
          10 + SoftSpan.bipolar10.scale.step ∧
        -10 - SoftSpan.bipolar10.scale.step ≤
          currentSourceVolts s.C_CALIBRATION range (-|(s.setValue_micro : ℚ)|)

/-- The span of the source converter for a voltage. -/
def sourceSpan (dac_voltage : ℚ) : SoftSpan :=
  if |dac_voltage| < 22 / 10 then .bipolar2_5 else .bipolar10

/-- Voltage and step of the rewritten converter once the set value of a range is on it. -/
def landing (operationType : OperationType) (s : ADCClass) (range : CurrentRange) : ℚ × ℚ :=
  match operationType with
  | .SOURCE_VOLTAGE =>
      let scale := SoftSpan.unipolar10.scale
      let v := currentLimitVolts s.V_CALIBRATION range s.setLimit_micro.val
      (LTC2758_code_to_voltage (LTC2758_voltage_to_code v scale.lo scale.hi) scale.lo scale.hi,
        scale.step)
  | .SOURCE_CURRENT =>
      let v := currentSourceVolts s.C_CALIBRATION range s.setValue_micro
      let scale := (sourceSpan v).scale
      (LTC2758_code_to_voltage (LTC2758_voltage_to_code v scale.lo scale.hi) scale.lo scale.hi,
        scale.step)

/-- When a range switch respects the set value throughout.  To the 1 A range the relay moves first,
so the voltage already on the converter is read in the 1 A range (before that in the old range, for
the write to pin 4, if the relay hangs on the other wire).  To the 10 mA range the converter is
written first, so the voltage meant for 10 mA is read in the old range. -/
def SwitchCondition (wire : RelayWire) (s : ADCClass) (range : CurrentRange)
    (operationType : OperationType) : Prop :=
  let dac := rewrittenDac operationType s.hw
  let old := relayRange wire s.hw
  let new := landing operationType s range
  match range with
  | .AMP1 =>
      (wire = .gpio1 → Within operationType s old dac.voltage dac.step) ∧
        Within operationType s .AMP1 dac.voltage dac.step ∧
        OnScale operationType s .AMP1
  | .MILLIAMP10 =>
      Within operationType s old dac.voltage dac.step ∧
        Within operationType s old new.1 new.2 ∧
        OnScale operationType s .MILLIAMP10

/-! ## Voltage and current correspond -/

section SignGain

/-- Different gains for negative and for positive values. -/
def signGain (neg pos x : ℚ) : ℚ := if x < 0 then x * neg else x * pos

variable {neg pos : ℚ}

theorem signGain_strictMono (hneg : 0 < neg) (hpos : 0 < pos) : StrictMono (signGain neg pos) := by
  intro x y hxy
  unfold signGain
  by_cases hy : y < 0
  · rw [if_pos (hxy.trans hy), if_pos hy]
    exact mul_lt_mul_of_pos_right hxy hneg
  · rw [if_neg hy]
    by_cases hx : x < 0
    · -- the gains leave the signs as they are
      rw [if_pos hx]
      exact (mul_neg_of_neg_of_pos hx hneg).trans_le (mul_nonneg (not_lt.1 hy) hpos.le)
    · rw [if_neg hx]
      exact mul_lt_mul_of_pos_right hxy hpos

theorem signGain_div (hneg : 0 < neg) (hpos : 0 < pos) (u : ℚ) :
    signGain neg pos (if u < 0 then u / neg else u / pos) = u := by
  unfold signGain
  by_cases hu : u < 0
  · rw [if_pos hu, if_pos (div_neg_of_neg_of_pos hu hneg), div_mul_cancel₀ u hneg.ne']
  · rw [if_neg hu, if_neg (not_lt.2 (div_nonneg (not_lt.1 hu) hpos.le)),
      div_mul_cancel₀ u hpos.ne']

/-- A current sent through an affine map, a gain for each sign and a factor, and inverted. -/
def gainVolts (neg pos slope offset factor t : ℚ) : ℚ :=
  -(signGain neg pos (slope * t + offset) * factor)

/-- The way back from a voltage of `gainVolts`. -/
def gainCurrent (neg pos slope offset factor v : ℚ) : ℚ :=
  ((if -v / factor < 0 then -v / factor / neg else -v / factor / pos) - offset) / slope

variable {slope factor : ℚ} (hneg : 0 < neg) (hpos : 0 < pos) (hslope : 0 < slope)
  (hfactor : 0 < factor)
include hneg hpos hslope hfactor

theorem gainVolts_strictAnti (offset : ℚ) :
    StrictAnti (gainVolts neg pos slope offset factor) := by
  intro t u htu
  have harg : slope * t + offset < slope * u + offset :=
    add_lt_add_left (mul_lt_mul_of_pos_left htu hslope) offset
  apply neg_lt_neg
  exact mul_lt_mul_of_pos_right (signGain_strictMono hneg hpos harg) hfactor

theorem gainVolts_gainCurrent (offset v : ℚ) :
    gainVolts neg pos slope offset factor (gainCurrent neg pos slope offset factor v) = v := by
  unfold gainVolts gainCurrent
  rw [mul_div_cancel₀ _ hslope.ne', sub_add_cancel, signGain_div hneg hpos,
    div_mul_cancel₀ _ hfactor.ne', neg_neg]

theorem gainCurrent_le_iff (offset v t : ℚ) :
    gainCurrent neg pos slope offset factor v ≤ t ↔
      gainVolts neg pos slope offset factor t ≤ v := by
  have hanti := gainVolts_strictAnti hneg hpos hslope hfactor offset
  have hback := gainVolts_gainCurrent hneg hpos hslope hfactor offset v
  calc gainCurrent neg pos slope offset factor v ≤ t
      ↔ gainVolts neg pos slope offset factor t ≤
          gainVolts neg pos slope offset factor (gainCurrent neg pos slope offset factor v) :=
        hanti.le_iff_ge.symm
    _ ↔ gainVolts neg pos slope offset factor t ≤ v := by rw [hback]

theorem le_gainCurrent_iff (offset v t : ℚ) :
    t ≤ gainCurrent neg pos slope offset factor v ↔
      v ≤ gainVolts neg pos slope offset factor t := by
  have hanti := gainVolts_strictAnti hneg hpos hslope hfactor offset
  have hback := gainVolts_gainCurrent hneg hpos hslope hfactor offset v
  calc t ≤ gainCurrent neg pos slope offset factor v
      ↔ gainVolts neg pos slope offset factor (gainCurrent neg pos slope offset factor v) ≤
          gainVolts neg pos slope offset factor t :=
        hanti.le_iff_ge.symm
    _ ↔ v ≤ gainVolts neg pos slope offset factor t := by rw [hback]

end SignGain

theorem currentSourceVolts_AMP1 (cal : DacComp) (t : ℚ) :
    currentSourceVolts cal .AMP1 t =
      gainVolts cal.dacGainCompNeg cal.dacGainCompPos (9 / 2000000) (9 / 10 * cal.dacZeroComp)
        (109 / 100) t := by
  have harg : (t / 1000 / 1000 * 10 / 2 + cal.dacZeroComp) * 0.9 =
      9 / 2000000 * t + 9 / 10 * cal.dacZeroComp := by ring
  have hfactor : (1.09 : ℚ) = 109 / 100 := by norm_num
  simp only [currentSourceVolts, gainVolts, signGain, dac_nonlinear_compensation_eq, ite_self, harg,
    hfactor]

theorem currentSourceVolts_MILLIAMP10 (cal : DacComp) (t : ℚ) :
    currentSourceVolts cal .MILLIAMP10 t =
      gainVolts cal.dacGainCompNeg2 cal.dacGainCompPos2 (1 / 1000) cal.dacZeroComp2 1 t := by
  have harg : t / 1000 / 1000 * 1000 + cal.dacZeroComp2 = 1 / 1000 * t + cal.dacZeroComp2 := by ring
  simp only [currentSourceVolts, gainVolts, signGain, dac_nonlinear_compensation_eq, ite_self, harg,
    mul_one]

theorem impliedCurrentSource_AMP1 (cal : DacComp) (v : ℚ) :
    impliedCurrentSource cal .AMP1 v =
      gainCurrent cal.dacGainCompNeg cal.dacGainCompPos (9 / 2000000) (9 / 10 * cal.dacZeroComp)
        (109 / 100) v := by
  have hfactor : (1.09 : ℚ) = 109 / 100 := by norm_num
  simp only [impliedCurrentSource, gainCurrent, hfactor]
  ring

theorem impliedCurrentSource_MILLIAMP10 (cal : DacComp) (v : ℚ) :
    impliedCurrentSource cal .MILLIAMP10 v =
      gainCurrent cal.dacGainCompNeg2 cal.dacGainCompPos2 (1 / 1000) cal.dacZeroComp2 1 v := by
  simp only [impliedCurrentSource, gainCurrent, div_one]
  ring

theorem impliedCurrentLimit_le_iff (cal : DacComp) (range : CurrentRange) (v t : ℚ) :
    impliedCurrentLimit cal range v ≤ t ↔ v ≤ limitVolts cal range t := by
  cases range with
  | AMP1 =>
      have hgain := div_le_iff₀ (a := 10 * (t / 1000 / 1000) * (R_shunt_1A + R_mosfetSwitch))
        (b := v) cal.lim_pos
      simp only [impliedCurrentLimit, limitVolts, ← hgain]
      generalize v / cal.dacGainCompLim = w
      norm_num [R_shunt_1A, R_mosfetSwitch]
      constructor <;> intro h <;> linarith
  | MILLIAMP10 =>
      simp only [impliedCurrentLimit, limitVolts]
      constructor <;> intro h <;> linarith

theorem impliedCurrentSource_le_iff (cal : DacComp) (range : CurrentRange) (v t : ℚ) :
    impliedCurrentSource cal range v ≤ t ↔ currentSourceVolts cal range t ≤ v := by
  cases range with
  | AMP1 =>
      rw [impliedCurrentSource_AMP1, currentSourceVolts_AMP1]
      exact gainCurrent_le_iff cal.neg_pos cal.pos_pos (by norm_num) (by norm_num) _ _ _
  | MILLIAMP10 =>
      rw [impliedCurrentSource_MILLIAMP10, currentSourceVolts_MILLIAMP10]
      exact gainCurrent_le_iff cal.neg2_pos cal.pos2_pos (by norm_num) (by norm_num) _ _ _

theorem le_impliedCurrentSource_iff (cal : DacComp) (range : CurrentRange) (v t : ℚ) :
    t ≤ impliedCurrentSource cal range v ↔ v ≤ currentSourceVolts cal range t := by
  cases range with
  | AMP1 =>
      rw [impliedCurrentSource_AMP1, currentSourceVolts_AMP1]
      exact le_gainCurrent_iff cal.neg_pos cal.pos_pos (by norm_num) (by norm_num) _ _ _
  | MILLIAMP10 =>
      rw [impliedCurrentSource_MILLIAMP10, currentSourceVolts_MILLIAMP10]
      exact le_gainCurrent_iff cal.neg2_pos cal.pos2_pos (by norm_num) (by norm_num) _ _ _

/-- A larger current stands at a lower voltage of the source converter. -/
theorem currentSourceVolts_antitone (cal : DacComp) (range : CurrentRange) {t u : ℚ} (h : t ≤ u) :
    currentSourceVolts cal range u ≤ currentSourceVolts cal range t := by
  have hself := (le_impliedCurrentSource_iff cal range (currentSourceVolts cal range u) u).2 le_rfl
  exact (le_impliedCurrentSource_iff cal range _ t).1 (h.trans hself)

/-! ## Holding, as inequalities between voltages -/

theorem exists_near_le_iff {v step b : ℚ} (hstep : 0 ≤ step) :
    (∃ w, |w - v| ≤ step ∧ w ≤ b) ↔ v ≤ b + step := by
  constructor
  · rintro ⟨w, hw, hb⟩
    linarith [(abs_le.1 hw).1]
  · intro h
    refine ⟨v - step, ?_, by linarith⟩
    rw [sub_sub_cancel_left, abs_neg, abs_of_nonneg hstep]

theorem exists_near_between_iff {v step a b : ℚ} (hstep : 0 ≤ step) (hab : a ≤ b) :
    (∃ w, |w - v| ≤ step ∧ a ≤ w ∧ w ≤ b) ↔ a - step ≤ v ∧ v ≤ b + step := by
  constructor
  · rintro ⟨w, hw, ha, hb⟩
    have hclose := abs_le.1 hw
    constructor <;> linarith
  · rintro ⟨hlow, hhigh⟩
    refine ⟨max a (min b v), ?_, le_max_left _ _, max_le hab (min_le_left _ _)⟩
    rw [abs_le]
    rcases le_total b v with hb | hb
    · rw [min_eq_left hb, max_eq_right hab]
      constructor <;> linarith
    · rw [min_eq_right hb]
      rcases le_total a v with ha | ha
      · rw [max_eq_right ha]
        constructor <;> linarith
      · rw [max_eq_left ha]
        constructor <;> linarith

theorem Dac.step_pos (d : Dac) : 0 < d.step := d.span.scale.step_pos

/-- `Held` in terms of the voltage and the step of the converter. -/
theorem held_iff (wire : RelayWire) (operationType : OperationType) (s : ADCClass) (hw : Hw) :
    Held wire operationType s hw ↔
      Within operationType s (relayRange wire hw) (rewrittenDac operationType hw).voltage
        (rewrittenDac operationType hw).step := by
  cases operationType with
  | SOURCE_VOLTAGE =>
      simp only [Held, Within, impliedCurrentLimit_le_iff]
      exact exists_near_le_iff (Dac.step_pos _).le
  | SOURCE_CURRENT =>
      simp only [Held, Within, abs_le (a := impliedCurrentSource _ _ _),
        le_impliedCurrentSource_iff, impliedCurrentSource_le_iff]
      rw [← exists_near_between_iff (Dac.step_pos _).le
        (currentSourceVolts_antitone _ _ (neg_le_self (abs_nonneg _)))]
      exact exists_congr fun v => and_congr_right fun _ => and_comm

/-! ## The writes of a switch -/

/-- The two writes by which a switch puts the set value of a range on the converter. -/
def rewriteWrites (operationType : OperationType) (s : ADCClass) (range : CurrentRange) :
    List HwWrite :=
  match operationType with
  | .SOURCE_VOLTAGE =>
      let scale := SoftSpan.unipolar10.scale
      let v := currentLimitVolts s.V_CALIBRATION range s.setLimit_micro.val
      [.LTC2758_write 1 LTC2758_WRITE_SPAN_DAC ADDRESS_DACA 4,
        .LTC2758_write 1 LTC2758_WRITE_CODE_UPDATE_DAC ADDRESS_DACA
          (LTC2758_voltage_to_code v scale.lo scale.hi)]
  | .SOURCE_CURRENT =>
      let v := currentSourceVolts s.C_CALIBRATION range s.setValue_micro
      let scale := (sourceSpan v).scale
      [.LTC2758_write 0 LTC2758_WRITE_SPAN_DAC ADDRESS_DACA
          (if |v| < 22 / 10 then 4 * 4 else 3 * 4),
        .LTC2758_write 0 LTC2758_WRITE_CODE_UPDATE_DAC ADDRESS_DACA
          (LTC2758_voltage_to_code v scale.lo scale.hi)]

/-- The commit a switch makes in a mode. -/
def recommit (operationType : OperationType) (s : ADCClass) : ADCClass :=
  match operationType with
  | .SOURCE_VOLTAGE => s.fltSetCommitCurrentLimit s.setLimit_micro
  | .SOURCE_CURRENT => s.fltSetCommitCurrentSource s.setValue_micro

theorem recommit_sent (operationType : OperationType) (s : ADCClass) :
    (recommit operationType s).sent =
      s.sent ++ rewriteWrites operationType s s.current_range := by
  cases operationType with
  | SOURCE_VOLTAGE =>
      simp [recommit, ADCClass.fltSetCommitCurrentLimit, ADCClass.write, rewriteWrites,
        SoftSpan.scale]
  | SOURCE_CURRENT =>
      by_cases hsmall :
          |currentSourceVolts s.C_CALIBRATION s.current_range s.setValue_micro| < 22 / 10
      · -- a voltage below 2.2 V goes out on the 2.5 V scale
        simp [recommit, ADCClass.fltSetCommitCurrentSource, ADCClass.write, rewriteWrites,
          sourceSpan, SoftSpan.scale, hsmall]
      · simp [recommit, ADCClass.fltSetCommitCurrentSource, ADCClass.write, rewriteWrites,
          sourceSpan, SoftSpan.scale, hsmall]

theorem low_nibble_and (v : ℕ) : (v &&& 0xfff0) % 16 = 0 := by
  have h := Nat.and_mod_two_pow (a := v) (b := 0xfff0) (n := 4)
  simpa using h

theorem setGpio_one (s : ADCClass) (on : Bool) :
    ∃ value, value.testBit 1 = on ∧
      (s.setGpio 1 on).sent = s.sent ++ [.AD7176_WriteRegister 0x06 value] := by
  have hnibble := low_nibble_and (s.hw.adc ADCClass.gpioReadAddress)
  -- the register is read first, and only its low nibble is replaced
  have hbit : ∀ b, (b / 2 % 2 = 1 ↔ on = true) →
      ((s.hw.adc ADCClass.gpioReadAddress &&& 0xfff0) + b).testBit 1 = on := by
    intro b hb
    rw [Bool.eq_iff_iff, ← hb, Nat.testBit_succ, Nat.testBit_zero, decide_eq_true_iff]
    omega
  refine ⟨_, ?_, rfl⟩
  cases hgpio0 : s.gpio0 <;> cases on <;> exact hbit _ (by simp [hgpio0])

/-- To the 1 A range: the relay on both wires, then span and code. -/
theorem callWrites_AMP1 (s : ADCClass) (operationType : OperationType) :
    ∃ value, value.testBit 1 = true ∧
      callWrites s (s.setCurrentRange .AMP1 operationType) =
        [.digitalWrite4 true, .AD7176_WriteRegister 0x06 value] ++
          rewriteWrites operationType s .AMP1 := by
  let s₁ := ({ s with current_range := .AMP1 } : ADCClass).write (.digitalWrite4 true)
  obtain ⟨value, hvalue, hgpio⟩ := setGpio_one s₁ true
  have hcall : s.setCurrentRange .AMP1 operationType =
      recommit operationType (s₁.setGpio 1 true) := by
    cases operationType <;> rfl
  have hrewrite : rewriteWrites operationType (s₁.setGpio 1 true) .AMP1 =
      rewriteWrites operationType s .AMP1 := by
    cases operationType <;> rfl
  refine ⟨value, hvalue, ?_⟩
  have hsent := recommit_sent operationType (s₁.setGpio 1 true)
  rw [hgpio, show (s₁.setGpio 1 true).current_range = .AMP1 from rfl, hrewrite] at hsent
  rw [callWrites, hcall, hsent]
  simp [s₁]

/-- To the 10 mA range: span and code, then the relay on both wires. -/
theorem callWrites_MILLIAMP10 (s : ADCClass) (operationType : OperationType) :
    ∃ value, value.testBit 1 = false ∧
      callWrites s (s.setCurrentRange .MILLIAMP10 operationType) =
        rewriteWrites operationType s .MILLIAMP10 ++
          [.digitalWrite4 false, .AD7176_WriteRegister 0x06 value] := by
  let s₁ : ADCClass := { s with current_range := .MILLIAMP10 }
  obtain ⟨value, hvalue, hgpio⟩ :=
    setGpio_one ((recommit operationType s₁).write (.digitalWrite4 false)) false
  have hcall : s.setCurrentRange .MILLIAMP10 operationType =
      ((recommit operationType s₁).write (.digitalWrite4 false)).setGpio 1 false := by
    cases operationType <;> rfl
  have hrewrite : rewriteWrites operationType s₁ .MILLIAMP10 =
      rewriteWrites operationType s .MILLIAMP10 := by
    cases operationType <;> rfl
  refine ⟨value, hvalue, ?_⟩
  have hsent := recommit_sent operationType s₁
  rw [show s₁.current_range = .MILLIAMP10 from rfl, hrewrite] at hsent
  rw [callWrites, hcall, hgpio, ADCClass.write_sent, hsent]
  simp [s₁]

/-! ## The board between the writes -/

/-- The relay range that a level of the relay's wire selects. -/
def levelRange (level : Bool) : CurrentRange := if level then .AMP1 else .MILLIAMP10

/-- What `Held` looks at: relay range, converter voltage, converter step. -/
def reading (wire : RelayWire) (operationType : OperationType) (hw : Hw) : CurrentRange × ℚ × ℚ :=
  (relayRange wire hw, (rewrittenDac operationType hw).voltage,
    (rewrittenDac operationType hw).step)

/-- `Held` as a property of the reading. -/
def WithinReading (operationType : OperationType) (s : ADCClass) (r : CurrentRange × ℚ × ℚ) :
    Prop :=
  Within operationType s r.1 r.2.1 r.2.2

theorem relayRange_digitalWrite4 (wire : RelayWire) (hw : Hw) (level : Bool) :
    relayRange wire (hw.apply (.digitalWrite4 level)) =
      if wire = .pin4 then levelRange level else relayRange wire hw := by
  cases wire <;> rfl

theorem relayRange_gpio (wire : RelayWire) (hw : Hw) (value : ℕ) :
    relayRange wire (hw.apply (.AD7176_WriteRegister 0x06 value)) =
      if wire = .gpio1 then levelRange (value.testBit 1) else relayRange wire hw := by
  cases wire <;> rfl

theorem reading_digitalWrite4 (wire : RelayWire) (operationType : OperationType) (hw : Hw)
    (level : Bool) :
    reading wire operationType (hw.apply (.digitalWrite4 level)) =
      (if wire = .pin4 then levelRange level else relayRange wire hw,
        (reading wire operationType hw).2) := by
  cases wire <;> cases operationType <;> rfl

theorem reading_gpio (wire : RelayWire) (operationType : OperationType) (hw : Hw) (value : ℕ) :
    reading wire operationType (hw.apply (.AD7176_WriteRegister 0x06 value)) =
      (if wire = .gpio1 then levelRange (value.testBit 1) else relayRange wire hw,
        (reading wire operationType hw).2) := by
  cases wire <;> cases operationType <;> rfl

/-- The span alone changes nothing at the output; the code brings it to the landing voltage. -/
theorem reading_rewriteWrites (operationType : OperationType) (s : ADCClass)
    (range : CurrentRange) :
    ∃ w₁ w₂, rewriteWrites operationType s range = [w₁, w₂] ∧
      ∀ wire hw, reading wire operationType (hw.apply w₁) = reading wire operationType hw ∧
        reading wire operationType ((hw.apply w₁).apply w₂) =
          (relayRange wire hw, landing operationType s range) := by
  cases operationType with
  | SOURCE_VOLTAGE =>
      refine ⟨_, _, rfl, fun wire hw => ?_⟩
      have hspan := write_span hw.limitDac 4
      have hcode := write_span_code hw.limitDac .unipolar10 4 rfl
        (currentLimitVolts s.V_CALIBRATION range s.setLimit_micro.val)
      constructor
      · cases wire <;> exact Prod.ext rfl (Prod.ext hspan.1 hspan.2)
      · cases wire <;> exact Prod.ext rfl (Prod.ext hcode.1 hcode.2)
  | SOURCE_CURRENT =>
      refine ⟨_, _, rfl, fun wire hw => ?_⟩
      generalize hv : currentSourceVolts s.C_CALIBRATION range s.setValue_micro = v
      have hspan := write_span hw.sourceDac (if |v| < 22 / 10 then 4 * 4 else 3 * 4)
      have hbits : SoftSpan.ofBits ((if |v| < 22 / 10 then 4 * 4 else 3 * 4) / 4 % 16) =
          some (sourceSpan v) := by
        unfold sourceSpan
        split_ifs <;> rfl
      have hcode := write_span_code hw.sourceDac _ _ hbits v
      constructor
      · cases wire <;> exact Prod.ext rfl (Prod.ext hspan.1 hspan.2)
      · -- the span that was written last is the one the code was made for
        subst hv
        cases wire <;> exact Prod.ext rfl (Prod.ext hcode.1 hcode.2)

/-- Cutting a limit at 10 V before it is converted makes no difference. -/
theorem value_code_currentLimitVolts (cal : DacComp) (range : CurrentRange) (t : ℚ) :
    SoftSpan.unipolar10.scale.value (SoftSpan.unipolar10.scale.code (currentLimitVolts cal range t)) =
      SoftSpan.unipolar10.scale.value (SoftSpan.unipolar10.scale.code (limitVolts cal range t)) := by
  cases range with
  | AMP1 => rfl
  | MILLIAMP10 =>
      simp only [currentLimitVolts, limitVolts]
      split_ifs with hbig
      · rw [SoftSpan.unipolar10.scale.value_code_of_hi_le (le_refl 10),
          SoftSpan.unipolar10.scale.value_code_of_hi_le hbig.le]
      · rfl

/-- The landing voltage respects the set value in its own range, unless it is off the scale. -/
theorem within_landing_iff (operationType : OperationType) (s : ADCClass) (range : CurrentRange) :
    Within operationType s range (landing operationType s range).1
        (landing operationType s range).2 ↔ OnScale operationType s range := by
  cases operationType with
  | SOURCE_VOLTAGE =>
      simp only [Within, landing, OnScale, code_to_voltage_voltage_to_code,
        value_code_currentLimitVolts, SoftSpan.unipolar10.scale.value_code_le_iff]
      rw [show SoftSpan.unipolar10.scale.lo = 0 from rfl, zero_sub]
  | SOURCE_CURRENT =>
      have hlow := currentSourceVolts_antitone s.C_CALIBRATION range
        (le_abs_self (s.setValue_micro : ℚ))
      have hhigh := currentSourceVolts_antitone s.C_CALIBRATION range
        (neg_abs_le (s.setValue_micro : ℚ))
      simp only [Within, landing, OnScale, code_to_voltage_voltage_to_code]
      generalize currentSourceVolts s.C_CALIBRATION range s.setValue_micro = v at hlow hhigh ⊢
      rw [(sourceSpan v).scale.value_code_between_iff hlow hhigh]
      by_cases hsmall : |v| < 22 / 10
      · -- a voltage on the small scale is far from the ends of either scale
        have hv := abs_lt.1 hsmall
        have hstep := SoftSpan.bipolar10.scale.step_pos
        have hstep' := SoftSpan.bipolar2_5.scale.step_pos
        rw [sourceSpan, if_pos hsmall]
        simp only [show SoftSpan.bipolar2_5.scale.hi = 5 / 2 from rfl,
          show SoftSpan.bipolar2_5.scale.lo = -5 / 2 from rfl]
        constructor <;> intro _ <;> constructor <;> linarith
      · rw [sourceSpan, if_neg hsmall]
        rfl

/-- Exactly when a range switch respects the set value after every write. -/
theorem safeSwitch_iff (wire : RelayWire) (s : ADCClass) (range : CurrentRange)
    (operationType : OperationType) :
    SafeSwitch wire s range operationType ↔ SwitchCondition wire s range operationType := by
  have hheld : ∀ hw, Held wire operationType s hw ↔
      WithinReading operationType s (reading wire operationType hw) :=
    held_iff wire operationType s
  obtain ⟨w₁, w₂, hwrites, hreading⟩ := reading_rewriteWrites operationType s range
  have hrelay : ∀ wire hw, relayRange wire ((hw.apply w₁).apply w₂) = relayRange wire hw :=
    fun wire hw => congrArg Prod.fst (hreading wire hw).2
  cases range with
  | AMP1 =>
      -- the relay goes first, so the old voltage is read in the new range
      obtain ⟨value, hvalue, hcall⟩ := callWrites_AMP1 s operationType
      unfold SafeSwitch SwitchCondition
      rw [hcall, hwrites, ← within_landing_iff operationType s .AMP1]
      simp only [List.cons_append, List.nil_append, afterEach_cons, afterEach_nil, and_true, hheld,
        hreading, reading_gpio, reading_digitalWrite4, relayRange_gpio, relayRange_digitalWrite4,
        hvalue]
      cases wire <;> simp [reading, WithinReading, levelRange]
  | MILLIAMP10 =>
      -- the relay goes last, so the new voltage is read in the old range
      obtain ⟨value, hvalue, hcall⟩ := callWrites_MILLIAMP10 s operationType
      unfold SafeSwitch SwitchCondition
      rw [hcall, hwrites, ← within_landing_iff operationType s .MILLIAMP10]
      simp only [List.cons_append, List.nil_append, afterEach_cons, afterEach_nil, and_true, hheld,
        hreading, reading_gpio, reading_digitalWrite4, relayRange_digitalWrite4, hrelay, hvalue]
      cases wire <;> simp [reading, WithinReading, levelRange]

/-- The limit converter once a current limit has been committed in the 10 mA range. -/
theorem voltage_of_commit (s : ADCClass) (limit : Micro) (hrange : s.current_range = .MILLIAMP10) :
    (s.fltSetCommitCurrentLimit limit).hw.limitDac.voltage =
        SoftSpan.unipolar10.scale.value (SoftSpan.unipolar10.scale.code (limit.val / 1000)) ∧
      (s.fltSetCommitCurrentLimit limit).hw.limitDac.step = SoftSpan.unipolar10.scale.step := by
  have h := write_span_code s.hw.limitDac .unipolar10 (1 * 4) rfl
    (currentLimitVolts s.V_CALIBRATION s.current_range limit.val)
  have hland : LTC2758_code_to_voltage (LTC2758_voltage_to_code
        (currentLimitVolts s.V_CALIBRATION s.current_range limit.val)
        SoftSpan.unipolar10.scale.lo SoftSpan.unipolar10.scale.hi)
        SoftSpan.unipolar10.scale.lo SoftSpan.unipolar10.scale.hi =
      SoftSpan.unipolar10.scale.value (SoftSpan.unipolar10.scale.code (limit.val / 1000)) := by
    rw [code_to_voltage_voltage_to_code, value_code_currentLimitVolts, hrange]
    rfl
  exact ⟨h.1.trans hland, h.2⟩

/-- With a limit of up to 1 A that was committed in the 10 mA range, no switch to the 1 A range is
safe unless the limit gain is almost doubled: for as long as the old voltage stands, it is read as a
far larger current. -/
theorem not_safeSwitch_AMP1 (wire : RelayWire) (s : ADCClass) (limit : Micro)
    (hrange : s.current_range = .MILLIAMP10) (hlow : 1 ≤ limit.val) (hhigh : limit.val ≤ 1000000)
    (hgain : s.V_CALIBRATION.dacGainCompLim ≤ 19 / 10) :
    ¬ SafeSwitch wire (s.fltSetCommitCurrentLimit limit) .AMP1 .SOURCE_VOLTAGE := by
  rw [safeSwitch_iff]
  rintro ⟨-, hwithin, -⟩
  obtain ⟨hvolt, hstep⟩ := voltage_of_commit s limit hrange
  have hlow' : (1 : ℚ) ≤ limit.val := by exact_mod_cast hlow
  have hhigh' : (limit.val : ℚ) ≤ 1000000 := by exact_mod_cast hhigh
  -- one step of the converter is far below the gap between the two readings
  have hnumber : SoftSpan.unipolar10.scale.step = 10 / 262143 := by
    norm_num [Quantizer.Scale.step, SoftSpan.scale]
  have hin : limitVolts s.V_CALIBRATION .AMP1 limit.val ≤ 9595 / 1000000 * (limit.val / 1000) := by
    have h := mul_le_mul_of_nonneg_left hgain (by linarith : (0 : ℚ) ≤ limit.val)
    norm_num [limitVolts, R_shunt_1A, R_mosfetSwitch]
    linarith
  have hread : (s.fltSetCommitCurrentLimit limit).hw.limitDac.voltage ≤
      limitVolts s.V_CALIBRATION .AMP1 limit.val +
        (s.fltSetCommitCurrentLimit limit).hw.limitDac.step := hwithin
  rw [hvolt, hstep, hnumber] at hread
  -- from 10 mA on the converter is saturated; below, it is within a step of the limit
  rcases le_total (10 : ℚ) (limit.val / 1000) with hbig | hsmall
  · rw [SoftSpan.unipolar10.scale.value_code_of_hi_le hbig] at hread
    have hten : SoftSpan.unipolar10.scale.hi = 10 := rfl
    rw [hten] at hread
    linarith
  · have hclose := SoftSpan.unipolar10.scale.abs_value_code_sub_le (limit.val / 1000)
    have hpos : (0 : ℚ) ≤ limit.val / 1000 := by positivity
    rw [SoftSpan.unipolar10.scale.clamp_of_mem hpos hsmall, hnumber, abs_le] at hclose
    linarith [hclose.1]

/-! ## Runs -/

/-- The calls that change the output stage. -/
inductive HalCall
  | fltSetCommitVoltageSource (voltage_uV : ℤ) (dynamicRange : Bool)
  | fltSetCommitCurrentSource (current_uA : ℤ)
  | fltSetCommitVoltageLimit (voltage_uV : ℤ)
  | fltSetCommitCurrentLimit (current_uA : ℤ)
  | setCurrentRange (range : CurrentRange) (operationType : OperationType)
  | handleAutoCurrentRange (enabled calibrating : Bool) (milliAmpere : ℚ)
  | setGpio (nr : ℕ) (on : Bool)
  | enableVoltageMeasurement (enable : Bool)
  | enableCurrentMeasurement (enable : Bool)
  | updateSettings
  /-- The gains and offsets of the two calibration objects are adjusted. -/
  | calibrate (V_CALIBRATION C_CALIBRATION : DacComp)

def HalCall.run (s : ADCClass) : HalCall → ADCClass
  | .fltSetCommitVoltageSource voltage_uV dynamicRange =>
      s.fltSetCommitVoltageSource voltage_uV dynamicRange
  | .fltSetCommitCurrentSource current_uA => s.fltSetCommitCurrentSource current_uA
  | .fltSetCommitVoltageLimit voltage_uV => s.fltSetCommitVoltageLimit ⟨voltage_uV, .microVolt⟩
  | .fltSetCommitCurrentLimit current_uA => s.fltSetCommitCurrentLimit ⟨current_uA, .microAmpere⟩
  | .setCurrentRange range operationType => s.setCurrentRange range operationType
  | .handleAutoCurrentRange enabled calibrating milliAmpere =>
      s.handleAutoCurrentRange enabled calibrating milliAmpere
  | .setGpio nr on => s.setGpio nr on
  | .enableVoltageMeasurement enable => s.enableVoltageMeasurement enable
  | .enableCurrentMeasurement enable => s.enableCurrentMeasurement enable
  | .updateSettings => s.updateSettings
  | .calibrate V_CALIBRATION C_CALIBRATION =>
      { s with V_CALIBRATION := V_CALIBRATION, C_CALIBRATION := C_CALIBRATION }

/-- The range switch a call makes, if any. -/
def HalCall.switch (s : ADCClass) : HalCall → Option (CurrentRange × OperationType)
  | .setCurrentRange range operationType => some (range, operationType)
  | .handleAutoCurrentRange enabled calibrating milliAmpere =>
      let switchAt := ADCClass.max_current_10mA_range
      if enabled ∧ !calibrating then
        if s.current_range = .AMP1 ∧ |milliAmpere| < switchAt - 0.5 then
          some (.MILLIAMP10, s.operationType)
        else if s.current_range = .MILLIAMP10 ∧ |milliAmpere| > switchAt then
          some (.AMP1, s.operationType)
        else none
      else none
  | _ => none

/-- The automatic range switch makes the call that `HalCall.switch` names, in the state it starts
from, and no other. -/
theorem handleAutoCurrentRange_eq (s : ADCClass) (enabled calibrating : Bool) (milliAmpere : ℚ) :
    s.handleAutoCurrentRange enabled calibrating milliAmpere =
      match HalCall.switch s (.handleAutoCurrentRange enabled calibrating milliAmpere) with
      | none => s
      | some (range, _) => s.autoSwitch range := by
  cases enabled with
  | false => rfl
  | true =>
      cases calibrating with
      | true => rfl
      | false =>
          simp only [ADCClass.handleAutoCurrentRange, HalCall.switch]
          by_cases hdown :
              s.current_range = .AMP1 ∧ |milliAmpere| < ADCClass.max_current_10mA_range - 0.5
          · -- a current low enough to go down is too low to come back up
            have hnot : ¬ |milliAmpere| > ADCClass.max_current_10mA_range := by
              have h := hdown.2
              norm_num at h ⊢
              linarith
            simp [if_pos hdown, hnot]
          · simp only [if_neg hdown]
            by_cases hup :
                s.current_range = .MILLIAMP10 ∧ |milliAmpere| > ADCClass.max_current_10mA_range
            · simp [hup]
            · simp [if_neg hup]

/-- Every range switch of a call respects the set value after every write. -/
def SafeCall (wire : RelayWire) (s : ADCClass) (call : HalCall) : Prop :=
  ∀ r ∈ call.switch s, SafeSwitch wire s r.1 r.2

/-- Every range switch of a call meets the condition. -/
def CallCondition (wire : RelayWire) (s : ADCClass) (call : HalCall) : Prop :=
  ∀ r ∈ call.switch s, SwitchCondition wire s r.1 r.2

instance (operationType : OperationType) (s : ADCClass) (range : CurrentRange)
    (voltage step : ℚ) : Decidable (Within operationType s range voltage step) :=
  match operationType with
  | .SOURCE_VOLTAGE => inferInstanceAs (Decidable (_ ≤ _))
  | .SOURCE_CURRENT => inferInstanceAs (Decidable (_ ∧ _))

instance (operationType : OperationType) (s : ADCClass) (range : CurrentRange) :
    Decidable (OnScale operationType s range) :=
  match operationType with
  | .SOURCE_VOLTAGE => inferInstanceAs (Decidable (_ ≤ _))
  | .SOURCE_CURRENT => inferInstanceAs (Decidable (_ ∧ _))

instance (wire : RelayWire) (s : ADCClass) (range : CurrentRange)
    (operationType : OperationType) : Decidable (SwitchCondition wire s range operationType) :=
  match range with
  | .AMP1 => inferInstanceAs (Decidable (_ ∧ _ ∧ _))
  | .MILLIAMP10 => inferInstanceAs (Decidable (_ ∧ _ ∧ _))

/-- In every run from power-up, the range switches respect the set value after every single write
exactly when each of them meets the condition. -/
theorem every_switch_safe_iff (V_CALIBRATION C_CALIBRATION : DacComp) (adc : ℕ → ℕ)
    (wire : RelayWire) (calls : List HalCall) :
    Guarded HalCall.run (SafeCall wire) (ADCClass.init V_CALIBRATION C_CALIBRATION adc) calls ↔
      Guarded HalCall.run (CallCondition wire) (ADCClass.init V_CALIBRATION C_CALIBRATION adc)
        calls := by
  refine guarded_iff (fun s call => ?_) _ calls
  exact forall₂_congr fun r _ => safeSwitch_iff wire s r.1 r.2

/-- The calls of `setup`. -/
def setupCalls : List HalCall :=
  [.setGpio 1 false, .fltSetCommitVoltageSource 1234500 true, .setCurrentRange .AMP1 .SOURCE_VOLTAGE,
    .fltSetCommitCurrentLimit 33000]

theorem setup_eq (V_CALIBRATION C_CALIBRATION : DacComp) (adc : ℕ → ℕ) :
    ADCClass.setup V_CALIBRATION C_CALIBRATION adc =
      exec HalCall.run (ADCClass.init V_CALIBRATION C_CALIBRATION adc) setupCalls := rfl

/-- After `setup`, with the limit of 33 mA and unit gains, a switch to the 10 mA range lets the limit
stand for almost 2 A between the code write and the relay. -/
theorem first_switch_to_10mA_overshoots :
    ¬ Guarded HalCall.run (SafeCall .pin4)
      (ADCClass.init DacComp.default DacComp.default fun _ => 0)
      (setupCalls ++ [.setCurrentRange .MILLIAMP10 .SOURCE_VOLTAGE]) := by
  rw [guarded_append, ← setup_eq, guarded_cons]
  rintro ⟨-, hsafe, -⟩
  have hcondition := (safeSwitch_iff _ _ _ _).1 (hsafe (.MILLIAMP10, .SOURCE_VOLTAGE) rfl)
  revert hcondition
  decide +kernel

end RangeSwitch
end PoorMansSmu
