import PoorMansSmu.RangeSwitch
import PoorMansSmu.SetBounds
import PoorMansSmu.Timers

/-!
# Deliverable — which entries of a dial the converters can deliver

The dials accept up to 30 V and 3.3 A, for source values and limits and in both current ranges.  With
unit gains and no offsets the converters reach 10 V, about 2 A, and 10 mA in the small range.  An
entry beyond that is committed all the same and cut at the end of the span, or, for a limit in the
small range, before it gets there.
-/

namespace PoorMansSmu
namespace Deliverable

open SmuHal FrontPanel Calibration Hardware Ltc2758 RangeSwitch Program Run

/-! ## What is delivered -/

/-- The converter that a dial's commit writes to. -/
def dialDac (set_or_limit : SetOrLimit) (s : ADCClass) : Dac :=
  match set_or_limit with
  | .SET => s.hw.sourceDac
  | .LIMIT => s.hw.limitDac

/-- The value set by a dial, as it is stored and shown. -/
def shownMicro (set_or_limit : SetOrLimit) (s : ADCClass) : ℤ :=
  match set_or_limit with
  | .SET => s.setValue_micro
  | .LIMIT => s.setLimit_micro.val

/-- The voltage that the commit computes for a value. -/
def commitVolts (set_or_limit : SetOrLimit) (operationType : OperationType) (s : ADCClass)
    (micro : ℤ) : ℚ :=
  match set_or_limit, operationType with
  | .SET, .SOURCE_VOLTAGE => -voltageSourceVolts s.V_CALIBRATION micro
  | .SET, .SOURCE_CURRENT => currentSourceVolts s.C_CALIBRATION s.current_range micro
  | .LIMIT, .SOURCE_VOLTAGE => currentLimitVolts s.V_CALIBRATION s.current_range micro
  | .LIMIT, .SOURCE_CURRENT => voltageLimitVolts micro

/-- The value, in micro-units, that a voltage of the converter produces. -/
def producedMicro (set_or_limit : SetOrLimit) (operationType : OperationType) (s : ADCClass)
    (v : ℚ) : ℚ :=
  match set_or_limit, operationType with
  | .SET, .SOURCE_VOLTAGE => -v * 1000 * 1000
  | .SET, .SOURCE_CURRENT => impliedCurrentSource s.C_CALIBRATION s.current_range v
  | .LIMIT, .SOURCE_VOLTAGE => impliedCurrentLimit s.V_CALIBRATION s.current_range v
  | .LIMIT, .SOURCE_CURRENT => v * 1000 * 1000

/-- The value set is delivered: the voltage computed for it lies in the span of the converter, the
converter puts it out up to half a step, and it produces the value that is shown. -/
structure Delivered (set_or_limit : SetOrLimit) (operationType : OperationType) (s : ADCClass) :
    Prop where
  low : (dialDac set_or_limit s).span.scale.lo ≤
    commitVolts set_or_limit operationType s (shownMicro set_or_limit s)
  high : commitVolts set_or_limit operationType s (shownMicro set_or_limit s) ≤
    (dialDac set_or_limit s).span.scale.hi
  unsaturated : |(dialDac set_or_limit s).voltage -
      commitVolts set_or_limit operationType s (shownMicro set_or_limit s)| ≤
    (dialDac set_or_limit s).step / 2
  shown : producedMicro set_or_limit operationType s
      (commitVolts set_or_limit operationType s (shownMicro set_or_limit s)) =
    shownMicro set_or_limit s

/-- A value, in micro-units, within reach of the converter with unit gains and no offsets. -/
def InReach (set_or_limit : SetOrLimit) (operationType : OperationType) (range : CurrentRange)
    (v : ℤ) : Prop :=
  match set_or_limit, operationType, range with
  | .SET, .SOURCE_VOLTAGE, _ => |v| ≤ 10000000
  | .SET, .SOURCE_CURRENT, .AMP1 => |v| ≤ 2038735
  | .SET, .SOURCE_CURRENT, .MILLIAMP10 => |v| ≤ 10000
  | .LIMIT, .SOURCE_VOLTAGE, .AMP1 => 0 ≤ v ∧ v ≤ 1980198
  | .LIMIT, .SOURCE_VOLTAGE, .MILLIAMP10 => 0 ≤ v ∧ v ≤ 10000
  | .LIMIT, .SOURCE_CURRENT, _ => 0 ≤ v ∧ v ≤ 10000000

instance decidableInReach : ∀ set_or_limit operationType range v,
    Decidable (InReach set_or_limit operationType range v)
  | .SET, .SOURCE_VOLTAGE, _, _ => inferInstanceAs (Decidable (_ ≤ _))
  | .SET, .SOURCE_CURRENT, .AMP1, _ => inferInstanceAs (Decidable (_ ≤ _))
  | .SET, .SOURCE_CURRENT, .MILLIAMP10, _ => inferInstanceAs (Decidable (_ ≤ _))
  | .LIMIT, .SOURCE_VOLTAGE, .AMP1, _ => inferInstanceAs (Decidable (_ ∧ _))
  | .LIMIT, .SOURCE_VOLTAGE, .MILLIAMP10, _ => inferInstanceAs (Decidable (_ ∧ _))
  | .LIMIT, .SOURCE_CURRENT, _, _ => inferInstanceAs (Decidable (_ ∧ _))

/-- Unit gains and no offsets. -/
structure UnitGains (c : DacComp) : Prop where
  pos : c.dacGainCompPos = 1
  neg : c.dacGainCompNeg = 1
  pos2 : c.dacGainCompPos2 = 1
  neg2 : c.dacGainCompNeg2 = 1
  lim : c.dacGainCompLim = 1
  zero : c.dacZeroComp = 0
  zero2 : c.dacZeroComp2 = 0

theorem unitGains_default : UnitGains DacComp.default := ⟨rfl, rfl, rfl, rfl, rfl, rfl, rfl⟩

namespace UnitGains

variable {c : DacComp} (h : UnitGains c)

include h

theorem voltageSourceVolts_eq (v : ℚ) : voltageSourceVolts c v = v / 1000000 := by
  unfold voltageSourceVolts voltageInputDividerCompensation
  simp only [dac_nonlinear_compensation_eq, ite_self, h.pos, h.neg, h.pos2, h.neg2, h.zero]
  ring

theorem currentSourceVolts_eq (range : CurrentRange) (v : ℚ) :
    currentSourceVolts c range v =
      match range with
      | .AMP1 => -(4.905 * v / 1000000)
      | .MILLIAMP10 => -(v / 1000) := by
  unfold currentSourceVolts
  simp only [dac_nonlinear_compensation_eq, ite_self, h.pos, h.neg, h.pos2, h.neg2, h.zero, h.zero2]
  cases range with
  | AMP1 => ring
  | MILLIAMP10 => ring

theorem impliedCurrentSource_eq (range : CurrentRange) (v : ℚ) :
    impliedCurrentSource c range v =
      match range with
      | .AMP1 => -(v / 4.905 * 1000000)
      | .MILLIAMP10 => -(v * 1000) := by
  unfold impliedCurrentSource
  simp only [h.pos, h.neg, h.pos2, h.neg2, h.zero, h.zero2, div_one, ite_self]
  cases range with
  | AMP1 => ring
  | MILLIAMP10 => ring

end UnitGains

/-! ## The converter after a commit -/

/-- A span and a code for it, written one after the other. -/
theorem written_dac (d : Dac) (span : SoftSpan) (data : ℕ)
    (hspan : SoftSpan.ofBits (data / 4 % 16) = some span) (v : ℚ) :
    let d' := (d.write LTC2758_WRITE_SPAN_DAC ADDRESS_DACA data).write
      LTC2758_WRITE_CODE_UPDATE_DAC ADDRESS_DACA
      (LTC2758_voltage_to_code v span.scale.lo span.scale.hi)
    d'.span = span ∧ d'.voltage = span.scale.value (span.scale.code v) := by
  have hvoltage := (write_span_code d span data hspan v).1
  rw [code_to_voltage_voltage_to_code] at hvoltage
  refine ⟨?_, hvoltage⟩
  simp only [Dac.write, true_or, if_true, hspan]
  rfl

/-- The span of the source converter for a voltage. -/
def voltageSpan (dac_voltage : ℚ) : SoftSpan :=
  if |dac_voltage| ≤ 23 / 10 then .bipolar2_5
  else if |dac_voltage| ≤ 46 / 10 then .bipolar5
  else .bipolar10

theorem voltageSource_dac (s : ADCClass) (v : ℤ) :
    let u := voltageSourceVolts s.V_CALIBRATION v
    let d := (s.fltSetCommitVoltageSource v true).hw.sourceDac
    d.span = voltageSpan u ∧
      d.voltage = (voltageSpan u).scale.value ((voltageSpan u).scale.code (-u)) := by
  unfold ADCClass.fltSetCommitVoltageSource voltageSpan
  simp only [if_true]
  split_ifs
  · exact written_dac s.hw.sourceDac .bipolar2_5 (4 * 4) rfl _
  · exact written_dac s.hw.sourceDac .bipolar5 (2 * 4) rfl _
  · exact written_dac s.hw.sourceDac .bipolar10 (3 * 4) rfl _

theorem currentSource_dac (s : ADCClass) (v : ℤ) :
    let u := currentSourceVolts s.C_CALIBRATION s.current_range v
    let d := (s.fltSetCommitCurrentSource v).hw.sourceDac
    d.span = sourceSpan u ∧
      d.voltage = (sourceSpan u).scale.value ((sourceSpan u).scale.code u) := by
  unfold ADCClass.fltSetCommitCurrentSource sourceSpan
  simp only
  split_ifs
  · exact written_dac s.hw.sourceDac .bipolar2_5 (4 * 4) rfl _
  · exact written_dac s.hw.sourceDac .bipolar10 (3 * 4) rfl _

theorem currentLimit_dac (s : ADCClass) (limit : Micro) :
    let u := currentLimitVolts s.V_CALIBRATION s.current_range limit.val
    let d := (s.fltSetCommitCurrentLimit limit).hw.limitDac
    d.span = .unipolar10 ∧
      d.voltage = SoftSpan.unipolar10.scale.value (SoftSpan.unipolar10.scale.code u) :=
  written_dac s.hw.limitDac .unipolar10 (1 * 4) rfl _

theorem voltageLimit_dac (s : ADCClass) (limit : Micro) :
    let u := voltageLimitVolts limit.val
    let d := (s.fltSetCommitVoltageLimit limit).hw.limitDac
    d.span = .unipolar10 ∧
      d.voltage = SoftSpan.unipolar10.scale.value (SoftSpan.unipolar10.scale.code u) :=
  written_dac s.hw.limitDac .unipolar10 (1 * 4) rfl _

/-- A voltage that is not saturated is put out up to half a step. -/
theorem unsaturated_of_mem {span : SoftSpan} {v : ℚ} (hlow : span.scale.lo ≤ v)
    (hhigh : v ≤ span.scale.hi) :
    |span.scale.value (span.scale.code v) - v| ≤ span.scale.step / 2 := by
  have hclose := span.scale.abs_value_code_sub_le v
  rw [span.scale.clamp_of_mem hlow hhigh] at hclose
  exact hclose

/-- A voltage is delivered if it lies in the span that is written with it and stands for the value. -/
theorem delivered_iff_of_dac (set_or_limit : SetOrLimit) (op : OperationType) (s : ADCClass)
    {span : SoftSpan} {v : ℚ} (hspan : (dialDac set_or_limit s).span = span)
    (hvoltage : (dialDac set_or_limit s).voltage = span.scale.value (span.scale.code v))
    (hv : commitVolts set_or_limit op s (shownMicro set_or_limit s) = v) :
    Delivered set_or_limit op s ↔ (span.scale.lo ≤ v ∧ v ≤ span.scale.hi) ∧
      producedMicro set_or_limit op s v = shownMicro set_or_limit s := by
  constructor
  · intro h
    have hlow := h.low
    have hhigh := h.high
    have hshown := h.shown
    rw [hspan, hv] at hlow hhigh
    rw [hv] at hshown
    exact ⟨⟨hlow, hhigh⟩, hshown⟩
  · rintro ⟨⟨hlow, hhigh⟩, hshown⟩
    refine ⟨?_, ?_, ?_, ?_⟩
    · rw [hspan, hv]
      exact hlow
    · rw [hspan, hv]
      exact hhigh
    · unfold Dac.step
      rw [hspan, hvoltage, hv]
      exact unsaturated_of_mem hlow hhigh
    · rw [hv]
      exact hshown

/-! ## Reach -/

theorem mem_bipolar_iff {span : SoftSpan} {b : ℚ} (hlow : span.scale.lo = -b)
    (hhigh : span.scale.hi = b) (u : ℚ) :
    span.scale.lo ≤ u ∧ u ≤ span.scale.hi ↔ |u| ≤ b := by
  rw [hlow, hhigh, abs_le]

/-- The spans are chosen so that only the largest one is ever too small. -/
theorem mem_voltageSpan_iff (u : ℚ) :
    (voltageSpan u).scale.lo ≤ -u ∧ -u ≤ (voltageSpan u).scale.hi ↔ |u| ≤ 10 := by
  rw [← abs_neg u]
  unfold voltageSpan
  rw [← abs_neg u]
  split_ifs with h1 h2
  · rw [mem_bipolar_iff (b := 5 / 2) (by norm_num [SoftSpan.scale]) rfl]
    constructor <;> intro _ <;> linarith
  · rw [mem_bipolar_iff (b := 5) rfl rfl]
    constructor <;> intro _ <;> linarith
  · exact mem_bipolar_iff rfl rfl _

theorem mem_sourceSpan_iff (u : ℚ) :
    (sourceSpan u).scale.lo ≤ u ∧ u ≤ (sourceSpan u).scale.hi ↔ |u| ≤ 10 := by
  unfold sourceSpan
  split_ifs with h
  · rw [mem_bipolar_iff (b := 5 / 2) (by norm_num [SoftSpan.scale]) rfl]
    constructor <;> intro _ <;> linarith
  · exact mem_bipolar_iff rfl rfl _

/-- A bound on a scaled whole number is a bound on the number. -/
theorem scaled_le_iff {n m : ℤ} {c b : ℚ} (hc : 0 < c) (hm : c * m ≤ b)
    (hk : b < c * (m + 1)) : c * n ≤ b ↔ n ≤ m := by
  constructor
  · intro h
    -- `m` is the last whole number within the bound
    have hlt : c * (n : ℚ) < c * ((m + 1 : ℤ) : ℚ) := by
      push_cast
      exact h.trans_lt hk
    have hlt' : n < m + 1 := by exact_mod_cast lt_of_mul_lt_mul_left hlt hc.le
    omega
  · intro h
    have hle : (n : ℚ) ≤ m := by exact_mod_cast h
    exact (mul_le_mul_of_nonneg_left hle hc.le).trans hm

/-- An absolute value goes through a scaling. -/
theorem abs_scaled (c : ℚ) (hc : 0 < c) (n : ℤ) : |c * (n : ℚ)| = c * ((|n| : ℤ) : ℚ) := by
  rw [abs_mul, abs_of_pos hc, Int.cast_abs]

section Commits

variable {s : ADCClass}

theorem delivered_voltageSource_iff (h : UnitGains s.V_CALIBRATION) (m : ℤ) :
    Delivered .SET .SOURCE_VOLTAGE (s.fltSetCommitVoltageSource m true) ↔ |m| ≤ 10000000 := by
  have hcal : (s.fltSetCommitVoltageSource m true).V_CALIBRATION = s.V_CALIBRATION := by
    unfold ADCClass.fltSetCommitVoltageSource
    rfl
  have hvalue := s.voltageSource_setValue m true
  have hvolts := h.voltageSourceVolts_eq m
  obtain ⟨hspan, hvoltage⟩ := voltageSource_dac s m
  rw [hvolts] at hspan hvoltage
  generalize s.fltSetCommitVoltageSource m true = s' at *
  have hcommit : commitVolts .SET .SOURCE_VOLTAGE s' (shownMicro .SET s') =
      -((m : ℚ) / 1000000) := by
    simp only [commitVolts, shownMicro, hcal, hvalue, hvolts]
  -- the output voltage is the negative of the converter's
  have hproduced : -(-((m : ℚ) / 1000000)) * 1000 * 1000 = m := by ring
  have hscaled : |(m : ℚ) / 1000000| = 1 / 1000000 * ((|m| : ℤ) : ℚ) := by
    rw [← abs_scaled _ (by norm_num)]
    ring_nf
  rw [delivered_iff_of_dac .SET .SOURCE_VOLTAGE s' hspan hvoltage hcommit, mem_voltageSpan_iff,
    hscaled, scaled_le_iff (m := 10000000) (by norm_num) (by norm_num) (by norm_num)]
  simp only [producedMicro, shownMicro, hvalue, hproduced, and_true]

theorem delivered_currentSource_iff (h : UnitGains s.C_CALIBRATION) (m : ℤ) :
    Delivered .SET .SOURCE_CURRENT (s.fltSetCommitCurrentSource m) ↔
      InReach .SET .SOURCE_CURRENT s.current_range m := by
  have hcal : (s.fltSetCommitCurrentSource m).C_CALIBRATION = s.C_CALIBRATION := by
    unfold ADCClass.fltSetCommitCurrentSource
    rfl
  have hvalue := s.currentSource_setValue m
  have hrange := s.currentSource_current_range m
  have hvolts := h.currentSourceVolts_eq s.current_range m
  have hback := h.impliedCurrentSource_eq s.current_range
  obtain ⟨hspan, hvoltage⟩ := currentSource_dac s m
  generalize s.fltSetCommitCurrentSource m = s' at *
  have hcommit : commitVolts .SET .SOURCE_CURRENT s' (shownMicro .SET s') =
      currentSourceVolts s.C_CALIBRATION s.current_range m := by
    simp only [commitVolts, shownMicro, hcal, hvalue, hrange]
  rw [delivered_iff_of_dac .SET .SOURCE_CURRENT s' hspan hvoltage hcommit, mem_sourceSpan_iff]
  simp only [producedMicro, shownMicro, hcal, hvalue, hrange, hvolts, hback]
  cases s.current_range with
  | AMP1 =>
      have hproduced : -(-(4.905 * (m : ℚ) / 1000000) / 4.905 * 1000000) = m := by ring
      have hscaled : |-(4.905 * (m : ℚ) / 1000000)| = 4.905 / 1000000 * ((|m| : ℤ) : ℚ) := by
        rw [← abs_scaled _ (by norm_num), abs_neg]
        ring_nf
      simp only [hproduced, and_true, InReach]
      rw [hscaled, scaled_le_iff (m := 2038735) (by norm_num) (by norm_num) (by norm_num)]
  | MILLIAMP10 =>
      have hproduced : -(-((m : ℚ) / 1000) * 1000) = m := by ring
      have hscaled : |-((m : ℚ) / 1000)| = 1 / 1000 * ((|m| : ℤ) : ℚ) := by
        rw [← abs_scaled _ (by norm_num), abs_neg]
        ring_nf
      simp only [hproduced, and_true, InReach]
      rw [hscaled, scaled_le_iff (m := 10000) (by norm_num) (by norm_num) (by norm_num)]

/-- What lies on the scale of the limit converter. -/
theorem mem_unipolar_iff {c : ℚ} (hc : 0 < c) {n m : ℤ} (hm : c * m ≤ 10)
    (hk : 10 < c * (m + 1)) :
    SoftSpan.unipolar10.scale.lo ≤ c * n ∧ c * n ≤ SoftSpan.unipolar10.scale.hi ↔
      0 ≤ n ∧ n ≤ m := by
  have hlow : SoftSpan.unipolar10.scale.lo = 0 := rfl
  have hhigh : SoftSpan.unipolar10.scale.hi = 10 := rfl
  have hnonneg : 0 ≤ c * (n : ℚ) ↔ 0 ≤ n := by
    rw [mul_nonneg_iff_of_pos_left hc, Int.cast_nonneg_iff]
  rw [hlow, hhigh, hnonneg, scaled_le_iff hc hm hk]

theorem delivered_currentLimit_iff (h : UnitGains s.V_CALIBRATION) (limit : Micro) :
    Delivered .LIMIT .SOURCE_VOLTAGE (s.fltSetCommitCurrentLimit limit) ↔
      InReach .LIMIT .SOURCE_VOLTAGE s.current_range limit.val := by
  have hcal : (s.fltSetCommitCurrentLimit limit).V_CALIBRATION = s.V_CALIBRATION := rfl
  have hvalue := s.currentLimit_setLimit limit
  have hrange := s.currentLimit_current_range limit
  obtain ⟨hspan, hvoltage⟩ := currentLimit_dac s limit
  generalize s.fltSetCommitCurrentLimit limit = s' at *
  have hcommit : commitVolts .LIMIT .SOURCE_VOLTAGE s' (shownMicro .LIMIT s') =
      currentLimitVolts s.V_CALIBRATION s.current_range limit.val := by
    simp only [commitVolts, shownMicro, hcal, hvalue, hrange]
  rw [delivered_iff_of_dac .LIMIT .SOURCE_VOLTAGE s' hspan hvoltage hcommit]
  simp only [producedMicro, shownMicro, hcal, hvalue, hrange]
  cases s.current_range with
  | AMP1 =>
      have hvolts : currentLimitVolts s.V_CALIBRATION .AMP1 limit.val =
          5.05 / 1000000 * limit.val := by
        unfold currentLimitVolts R_shunt_1A R_mosfetSwitch
        simp only [h.lim]
        ring
      -- shunt and switch add up to 5.05 times the current
      have hback : impliedCurrentLimit s.V_CALIBRATION .AMP1 (5.05 / 1000000 * limit.val) =
          limit.val := by
        unfold impliedCurrentLimit R_shunt_1A R_mosfetSwitch
        simp only [h.lim]
        ring
      rw [hvolts, hback,
        mem_unipolar_iff (m := 1980198) (by norm_num) (by norm_num) (by norm_num)]
      simp only [and_true, InReach]
  | MILLIAMP10 =>
      simp only [InReach, currentLimitVolts, impliedCurrentLimit]
      split_ifs with hclamped
      · -- the voltage is cut to 10 V, which stands for another value
        have hlarge : ¬ limit.val ≤ 10000 := by
          intro hle
          have hle' : (limit.val : ℚ) ≤ 10000 := by exact_mod_cast hle
          linarith
        refine ⟨fun hd => absurd hd.2 ?_, fun hr => absurd hr.2 hlarge⟩
        intro heq
        linarith
      · have hback : (limit.val : ℚ) / 1000 * 1000 = limit.val := by ring
        have hscaled : (limit.val : ℚ) / 1000 = 1 / 1000 * limit.val := by ring
        rw [hback, hscaled,
          mem_unipolar_iff (m := 10000) (by norm_num) (by norm_num) (by norm_num)]
        simp only [and_true]

theorem delivered_voltageLimit_iff (limit : Micro) :
    Delivered .LIMIT .SOURCE_CURRENT (s.fltSetCommitVoltageLimit limit) ↔
      0 ≤ limit.val ∧ limit.val ≤ 10000000 := by
  have hvalue := s.voltageLimit_setLimit limit
  have hvolts : voltageLimitVolts limit.val = 1 / 1000000 * limit.val := by
    unfold voltageLimitVolts voltageInputDividerCompensation
    ring
  obtain ⟨hspan, hvoltage⟩ := voltageLimit_dac s limit
  rw [hvolts] at hvoltage
  generalize s.fltSetCommitVoltageLimit limit = s' at *
  have hcommit : commitVolts .LIMIT .SOURCE_CURRENT s' (shownMicro .LIMIT s') =
      1 / 1000000 * limit.val := by
    simp only [commitVolts, shownMicro, hvalue, hvolts]
  have hback : 1 / 1000000 * (limit.val : ℚ) * 1000 * 1000 = limit.val := by ring
  rw [delivered_iff_of_dac .LIMIT .SOURCE_CURRENT s' hspan hvoltage hcommit,
    mem_unipolar_iff (m := 10000000) (by norm_num) (by norm_num) (by norm_num)]
  simp only [producedMicro, shownMicro, hvalue, hback, and_true]

end Commits

/-! ## Entries -/

/-- The dial that sets a source value or a limit. -/
def dial (set_or_limit : SetOrLimit) (p : State) : DialClass :=
  match set_or_limit with
  | .SET => p.ui.SOURCE_DIAL
  | .LIMIT => p.ui.LIMIT_DIAL

/-- The whole micro-units of the entry, which the callback commits. -/
def enteredMicro (set_or_limit : SetOrLimit) (p : State) : ℤ :=
  truncate ((dial set_or_limit p).getMv * 1000)

/-- With unit gains and no offsets, an entry that is confirmed is delivered exactly if it is within
reach: 10 V; 2.038735 A in the large and 10 mA in the small range; for limits, not negative, up to
10 V, 1.980198 A and 10 mA. -/
theorem delivered_iff_inReach (p : State) (set_or_limit : SetOrLimit)
    (hV : UnitGains p.SMU.V_CALIBRATION) (hC : UnitGains p.SMU.C_CALIBRATION) :
    Delivered set_or_limit p.operationType (closeSourceDCCallback p set_or_limit false).SMU ↔
      InReach set_or_limit p.operationType p.SMU.current_range (enteredMicro set_or_limit p) := by
  cases set_or_limit with
  | SET =>
      have hentered : enteredMicro .SET p = truncate (p.ui.SOURCE_DIAL.getMv * 1000) := rfl
      rw [closeSourceDCCallback_set, hentered]
      cases p.operationType with
      | SOURCE_VOLTAGE => exact delivered_voltageSource_iff hV _
      | SOURCE_CURRENT => exact delivered_currentSource_iff hC _
  | LIMIT =>
      have hentered : enteredMicro .LIMIT p = truncate (p.ui.LIMIT_DIAL.getMv * 1000) := rfl
      unfold closeSourceDCCallback
      simp only [Bool.false_eq_true, if_false]
      rw [hentered]
      cases p.operationType with
      | SOURCE_VOLTAGE => exact delivered_currentLimit_iff hV _
      | SOURCE_CURRENT => exact delivered_voltageLimit_iff _

/-- 25 V are entered on the source dial. -/
def enterTwentyFiveVolts : List Event :=
  [.loop { inputTag := .BUTTON_SOURCE_SET, pressed := true, display := twentyFiveVolts },
    .loop { display := twentyFiveVolts },
    .loop { inputTag := .KEYBOARD_OK, display := twentyFiveVolts }]

/-- 25 V, entered on the source dial and confirmed, are not delivered. -/
theorem twenty_five_volts_not_delivered :
    ¬ Delivered .SET .SOURCE_VOLTAGE (exec step board enterTwentyFiveVolts).SMU := by
  intro h
  have hlow := h.low
  revert hlow
  decide +kernel

/-- Five volts on the source dial after power-up. -/
def fiveVoltsEntered : State :=
  { board with ui := { board.ui with SOURCE_DIAL := { dialog := true, okDrawn := true, mv := 5000 } } }

theorem board_calibration : board.SMU.V_CALIBRATION = DacComp.default ∧
    board.SMU.C_CALIBRATION = DacComp.default := by
  unfold board boot ADCClass.setup
  constructor <;> rfl

/-- Five volts are delivered. -/
theorem five_volts_delivered :
    Delivered .SET .SOURCE_VOLTAGE (closeSourceDCCallback fiveVoltsEntered .SET false).SMU :=
  (delivered_iff_inReach fiveVoltsEntered .SET (board_calibration.1 ▸ unitGains_default)
    (board_calibration.2 ▸ unitGains_default)).2 (by decide +kernel)

/-- The largest entries that are accepted. -/
def thirtyVolts : DialDisplay where
  dialEntries := fun i => if i = 0 then 3 else 0
  digits := 2
  voltDecade := .V

def thirtyThreeHundredMilliampere : DialDisplay where
  dialEntries := fun i => if i ≤ 1 then 3 else 0
  digits := 4
  voltDecade := .mV

end Deliverable
end PoorMansSmu
