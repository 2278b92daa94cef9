import PoorMansSmu.CommitWords

/-!
# CalPage — the gain buttons of the calibration page

The page shows one pair of buttons for the gain of the source converter.  `showWidget` and
`renderCal` choose which, and `handleCalibrationButtons` has two coefficients for each pair.  The
commit chooses a coefficient by itself.  The buttons go by the value set, the commit by the
voltage with the offset added, and the two treat zero differently (`button_adjusts_applied_iff`).
-/

namespace PoorMansSmu
namespace CalPage

open Calibration SmuHal CommitWords

/-! ## Coefficients -/

/-- The four gains of `fltSetCommitVoltageSource`. -/
inductive DacGain
  | dacGainCompPos
  | dacGainCompNeg
  | dacGainCompPos2
  | dacGainCompNeg2
  deriving DecidableEq, Repr

def adjDacGainCompPos (c : DacGains) (val : ℚ) : DacGains :=
  { c with dacGainCompPos := c.dacGainCompPos + val }

def adjDacGainCompNeg (c : DacGains) (val : ℚ) : DacGains :=
  { c with dacGainCompNeg := c.dacGainCompNeg + val }

def adjDacGainCompPos2 (c : DacGains) (val : ℚ) : DacGains :=
  { c with dacGainCompPos2 := c.dacGainCompPos2 + val }

def adjDacGainCompNeg2 (c : DacGains) (val : ℚ) : DacGains :=
  { c with dacGainCompNeg2 := c.dacGainCompNeg2 + val }

namespace DacGain

def get (c : DacGains) : DacGain → ℚ
  | .dacGainCompPos => c.dacGainCompPos
  | .dacGainCompNeg => c.dacGainCompNeg
  | .dacGainCompPos2 => c.dacGainCompPos2
  | .dacGainCompNeg2 => c.dacGainCompNeg2

def adj (c : DacGains) (val : ℚ) : DacGain → DacGains
  | .dacGainCompPos => adjDacGainCompPos c val
  | .dacGainCompNeg => adjDacGainCompNeg c val
  | .dacGainCompPos2 => adjDacGainCompPos2 c val
  | .dacGainCompNeg2 => adjDacGainCompNeg2 c val

end DacGain

/-- The gain is changed, and nothing else. -/
def Adjusts (c c' : DacGains) (gain : DacGain) : Prop :=
  ∃ val ≠ 0, c' = gain.adj c val

theorem adjusts_adj_iff (c : DacGains) {val : ℚ} (hval : val ≠ 0) (gain gain' : DacGain) :
    Adjusts c (gain.adj c val) gain' ↔ gain = gain' := by
  constructor
  · rintro ⟨val', hval', heq⟩
    by_contra hne
    -- the gain that the right side changes is left alone on the left side
    have hget := congrArg (DacGain.get · gain') heq
    have hleft : gain'.get (gain.adj c val) = gain'.get c := by
      cases gain <;> cases gain' <;> first
        | rfl
        | exact absurd rfl hne
    have hright : gain'.get (gain'.adj c val') = gain'.get c + val' := by
      cases gain' <;> rfl
    rw [hleft, hright] at hget
    exact hval' (left_eq_add.1 hget)
  · rintro rfl
    exact ⟨val, hval, rfl⟩

/-! ## The page -/

def BUTTON_DAC_GAIN_COMP_UP : ℕ := 62
def BUTTON_DAC_GAIN_COMP_DOWN : ℕ := 63
def BUTTON_DAC_GAIN_COMP_UP2 : ℕ := 64
def BUTTON_DAC_GAIN_COMP_DOWN2 : ℕ := 65

/-- The tags of the buttons that `renderCal` draws for the gain of the source converter. -/
def renderCal (operationType : OperationType) (current_range : CurrentRange) : List ℕ :=
  if current_range = .MILLIAMP10 ∧ operationType = .SOURCE_CURRENT then
    [BUTTON_DAC_GAIN_COMP_UP2, BUTTON_DAC_GAIN_COMP_DOWN2]
  else if current_range = .MILLIAMP10 ∧ operationType = .SOURCE_VOLTAGE then
    [BUTTON_DAC_GAIN_COMP_UP2, BUTTON_DAC_GAIN_COMP_DOWN2]
  else [BUTTON_DAC_GAIN_COMP_UP, BUTTON_DAC_GAIN_COMP_DOWN]

/-- The calibration page of `showWidget`; for a voltage, the current range stands for its size. -/
def showWidget (operationType : OperationType) (getSetValue_micro : ℚ)
    (currentRange : CurrentRange) : List ℕ :=
  if operationType = .SOURCE_VOLTAGE then
    let setM := getSetValue_micro / 1000
    if |setM| > 2300 then renderCal .SOURCE_VOLTAGE .MILLIAMP10
    else renderCal .SOURCE_VOLTAGE .AMP1
  else renderCal .SOURCE_CURRENT currentRange

/-- The two calibration objects, when the page was touched last, and what was committed from it. -/
structure Page where
  timeSinceLastChange : ℕ
  V_CALIBRATION : DacGains
  C_CALIBRATION : DacGains
  committed : List Words

namespace Page

/-- A touch follows the last one by less than 50 ms. -/
def tooFast (s : Page) (millis : ℕ) : Bool :=
  let repeatDelay := 50
  (s.timeSinceLastChange + repeatDelay) % 4294967296 > millis

/-- One of the buttons: the gain for the sign of the set value is adjusted, and the value committed
again. -/
def gainButton (s : Page) (operationType : OperationType) (currentRange : CurrentRange)
    (setValue_micro : ℤ) (millis : ℕ) (neg pos : DacGains → ℚ → DacGains)
    (voltageVal currentVal : ℚ) : Page :=
  if s.tooFast millis then s
  else
    let s := { s with timeSinceLastChange := millis }
    let mv : ℚ := setValue_micro / 1000
    if operationType = .SOURCE_VOLTAGE then
      let c := if mv < 0 then neg s.V_CALIBRATION voltageVal else pos s.V_CALIBRATION voltageVal
      { s with
        V_CALIBRATION := c
        committed := s.committed ++ [voltageSourceWords c (truncate (mv * 1000)) true] }
    else
      let c := if mv < 0 then neg s.C_CALIBRATION currentVal else pos s.C_CALIBRATION currentVal
      { s with
        C_CALIBRATION := c
        committed := s.committed ++ [currentSourceWords c currentRange (truncate (mv * 1000))] }

/-- `handleCalibrationButtons`, as far as the gain of the source converter is concerned. -/
def handleCalibrationButtons (s : Page) (tag : ℕ) (operationType : OperationType)
    (currentRange : CurrentRange) (setValue_micro : ℤ) (millis : ℕ) : Page :=
  if tag = BUTTON_DAC_GAIN_COMP_UP then
    s.gainButton operationType currentRange setValue_micro millis adjDacGainCompNeg
      adjDacGainCompPos 0.000005 0.00001
  else if tag = BUTTON_DAC_GAIN_COMP_UP2 then
    s.gainButton operationType currentRange setValue_micro millis adjDacGainCompNeg2
      adjDacGainCompPos2 0.000005 0.000005
  else if tag = BUTTON_DAC_GAIN_COMP_DOWN then
    s.gainButton operationType currentRange setValue_micro millis adjDacGainCompNeg
      adjDacGainCompPos (-0.000005) (-0.00001)
  else if tag = BUTTON_DAC_GAIN_COMP_DOWN2 then
    s.gainButton operationType currentRange setValue_micro millis adjDacGainCompNeg2
      adjDacGainCompPos2 (-0.000005) (-0.000005)
  else s

end Page

/-! ## The coefficient of the commit -/

/-- The voltage that `fltSetCommitVoltageSource` chooses its gain for. -/
def inputVolts (V_CALIBRATION : DacGains) (voltage_uV : ℤ) : ℚ :=
  (voltage_uV : ℚ) / 1000 / 1000 + V_CALIBRATION.dacZeroComp

/-- The choice of `comp` in `fltSetCommitVoltageSource`. -/
def appliedGain (V_CALIBRATION : DacGains) (voltage_uV : ℤ) : DacGain :=
  let dac_voltage := inputVolts V_CALIBRATION voltage_uV
  if dac_voltage > 0 then
    if dac_voltage > 23 / 10 then .dacGainCompPos2 else .dacGainCompPos
  else
    if dac_voltage < -23 / 10 then .dacGainCompNeg2 else .dacGainCompNeg

theorem voltageSourceVolts_eq (V_CALIBRATION : DacGains) (voltage_uV : ℤ) :
    voltageSourceVolts V_CALIBRATION voltage_uV =
      inputVolts V_CALIBRATION voltage_uV *
        (appliedGain V_CALIBRATION voltage_uV).get V_CALIBRATION := by
  have hcomp : voltageSourceVolts V_CALIBRATION voltage_uV =
      inputVolts V_CALIBRATION voltage_uV *
        if inputVolts V_CALIBRATION voltage_uV > 0 then
          if inputVolts V_CALIBRATION voltage_uV > 23 / 10 then V_CALIBRATION.dacGainCompPos2
          else V_CALIBRATION.dacGainCompPos
        else
          if inputVolts V_CALIBRATION voltage_uV < -23 / 10 then V_CALIBRATION.dacGainCompNeg2
          else V_CALIBRATION.dacGainCompNeg := by
    simp only [voltageSourceVolts, dac_nonlinear_compensation_eq, ite_self,
      voltageInputDividerCompensation, mul_one]
    rfl
  rw [hcomp]
  unfold appliedGain
  dsimp only
  split_ifs <;> rfl

/-! ## The coefficient of the buttons -/

/-- The gain of the buttons shown for a set voltage. -/
def shownGain (voltage_uV : ℤ) : DacGain :=
  let mv : ℚ := voltage_uV / 1000
  if |mv| > 2300 then
    if mv < 0 then .dacGainCompNeg2 else .dacGainCompPos2
  else
    if mv < 0 then .dacGainCompNeg else .dacGainCompPos

section Buttons

variable {s : Page} {voltage_uV : ℤ} {range : CurrentRange} {tag millis : ℕ}

/-- A button adjusts one of the two gains of its pair, by the sign of the set voltage. -/
theorem gainButton_adjusts (voltage_uV : ℤ) (range : CurrentRange)
    (hready : s.tooFast millis = false) {neg pos : DacGains → ℚ → DacGains}
    (gainNeg gainPos : DacGain) (hneg : ∀ c val, neg c val = gainNeg.adj c val)
    (hpos : ∀ c val, pos c val = gainPos.adj c val) {val : ℚ} (hval : val ≠ 0) (currentVal : ℚ)
    (gain : DacGain) :
    Adjusts s.V_CALIBRATION (s.gainButton .SOURCE_VOLTAGE range voltage_uV millis neg pos val
        currentVal).V_CALIBRATION gain ↔
      (if (voltage_uV : ℚ) / 1000 < 0 then gainNeg else gainPos) = gain := by
  unfold Page.gainButton
  rw [hready, if_neg Bool.false_ne_true, if_pos rfl]
  by_cases hsign : (voltage_uV : ℚ) / 1000 < 0
  · simp only [if_pos hsign, hneg]
    exact adjusts_adj_iff s.V_CALIBRATION hval gainNeg gain
  · simp only [if_neg hsign, hpos]
    exact adjusts_adj_iff s.V_CALIBRATION hval gainPos gain

/-- Both buttons on the page adjust the gain that belongs to the page. -/
theorem handleCalibrationButtons_adjusts
    (hshown : tag ∈ showWidget .SOURCE_VOLTAGE voltage_uV range)
    (hready : s.tooFast millis = false) (gain : DacGain) :
    Adjusts s.V_CALIBRATION (s.handleCalibrationButtons tag .SOURCE_VOLTAGE range voltage_uV
        millis).V_CALIBRATION gain ↔ shownGain voltage_uV = gain := by
  have hfirst (val currentVal : ℚ) (hval : val ≠ 0) :=
    gainButton_adjusts voltage_uV range hready .dacGainCompNeg .dacGainCompPos (fun _ _ => rfl)
      (fun _ _ => rfl) hval currentVal gain
  have hsecond (val currentVal : ℚ) (hval : val ≠ 0) :=
    gainButton_adjusts voltage_uV range hready .dacGainCompNeg2 .dacGainCompPos2 (fun _ _ => rfl)
      (fun _ _ => rfl) hval currentVal gain
  unfold showWidget renderCal at hshown
  unfold shownGain
  -- the range that stands for the size of the voltage decides which pair is on the page
  by_cases hlarge : |(voltage_uV : ℚ) / 1000| > 2300
  · have htag : tag = BUTTON_DAC_GAIN_COMP_UP2 ∨ tag = BUTTON_DAC_GAIN_COMP_DOWN2 := by
      simpa [hlarge] using hshown
    simp only [if_pos hlarge]
    rcases htag with rfl | rfl
    · exact hsecond _ _ (by norm_num)
    · exact hsecond _ _ (by norm_num)
  · have htag : tag = BUTTON_DAC_GAIN_COMP_UP ∨ tag = BUTTON_DAC_GAIN_COMP_DOWN := by
      simpa [hlarge] using hshown
    simp only [if_neg hlarge]
    rcases htag with rfl | rfl
    · exact hfirst _ _ (by norm_num)
    · exact hfirst _ _ (by norm_num)

end Buttons

/-- The value set and the voltage with the offset lie in the same part of the axis: on the same side
of zero, where zero itself belongs to the positive values set and to the negative voltages, and both
within 2.3 V or both beyond. -/
structure SamePart (V_CALIBRATION : DacGains) (voltage_uV : ℤ) : Prop where
  sign : voltage_uV < 0 ↔ inputVolts V_CALIBRATION voltage_uV ≤ 0
  size : 2300000 < |voltage_uV| ↔ 23 / 10 < |inputVolts V_CALIBRATION voltage_uV|

/-- Sign and size tell the four gains apart. -/
theorem gain_eq_iff (neg large neg' large' : Prop) [Decidable neg] [Decidable large]
    [Decidable neg'] [Decidable large'] :
    ((if large then if neg then .dacGainCompNeg2 else .dacGainCompPos2
        else if neg then .dacGainCompNeg else .dacGainCompPos : DacGain) =
      if large' then if neg' then .dacGainCompNeg2 else .dacGainCompPos2
        else if neg' then .dacGainCompNeg else .dacGainCompPos) ↔
      (neg ↔ neg') ∧ (large ↔ large') := by
  by_cases hneg : neg <;> by_cases hlarge : large <;> by_cases hneg' : neg' <;>
    by_cases hlarge' : large' <;> simp [hneg, hlarge, hneg', hlarge']

theorem shownGain_eq_appliedGain_iff (V_CALIBRATION : DacGains) (voltage_uV : ℤ) :
    shownGain voltage_uV = appliedGain V_CALIBRATION voltage_uV ↔
      SamePart V_CALIBRATION voltage_uV := by
  have hsign : (voltage_uV : ℚ) / 1000 < 0 ↔ voltage_uV < 0 := by
    rw [div_lt_iff₀ (by norm_num), zero_mul]
    exact_mod_cast Iff.rfl
  have hsize : |(voltage_uV : ℚ) / 1000| > 2300 ↔ 2300000 < |voltage_uV| := by
    rw [abs_div, abs_of_pos (by norm_num : (0 : ℚ) < 1000), gt_iff_lt, lt_div_iff₀ (by norm_num)]
    norm_num
    exact_mod_cast Iff.rfl
  -- the choice of the commit, with the size looked at before the sign
  have happlied : appliedGain V_CALIBRATION voltage_uV =
      if 23 / 10 < |inputVolts V_CALIBRATION voltage_uV| then
        if inputVolts V_CALIBRATION voltage_uV ≤ 0 then .dacGainCompNeg2 else .dacGainCompPos2
      else
        if inputVolts V_CALIBRATION voltage_uV ≤ 0 then .dacGainCompNeg else .dacGainCompPos := by
    unfold appliedGain
    generalize inputVolts V_CALIBRATION voltage_uV = u
    rcases lt_or_ge 0 u with hpos | hneg
    · simp only [gt_iff_lt, hpos, if_true, abs_of_pos hpos, not_le.2 hpos, if_false]
    · have hbeyond : 23 / 10 < |u| ↔ u < -23 / 10 := by
        rw [abs_of_nonpos hneg, lt_neg]
        norm_num
      simp only [gt_iff_lt, not_lt.2 hneg, if_false, hbeyond, hneg, if_true]
  unfold shownGain
  rw [happlied, gain_eq_iff, hsign, hsize]
  exact ⟨fun h => ⟨h.1, h.2⟩, fun h => ⟨h.sign, h.size⟩⟩

/-- For every set voltage and offset: the buttons shown adjust the gain that is applied exactly
when the value set and the voltage with the offset lie in the same part of the axis. -/
theorem button_adjusts_applied_iff (s : Page) (voltage_uV : ℤ) (range : CurrentRange) {tag : ℕ}
    (hshown : tag ∈ showWidget .SOURCE_VOLTAGE voltage_uV range) {millis : ℕ}
    (hready : s.tooFast millis = false) :
    Adjusts s.V_CALIBRATION (s.handleCalibrationButtons tag .SOURCE_VOLTAGE range voltage_uV
        millis).V_CALIBRATION (appliedGain s.V_CALIBRATION voltage_uV) ↔
      SamePart s.V_CALIBRATION voltage_uV := by
  rw [handleCalibrationButtons_adjusts hshown hready]
  exact shownGain_eq_appliedGain_iff s.V_CALIBRATION voltage_uV

/-- Gains of one and an offset of 1 mV, some time after the page was touched last. -/
def offsetPage : Page where
  timeSinceLastChange := 0
  V_CALIBRATION := { DacComp.default with dacZeroComp := 1 / 1000 }
  C_CALIBRATION := DacComp.default
  committed := []

theorem button_adjusts_applied_one :
    Adjusts offsetPage.V_CALIBRATION (offsetPage.handleCalibrationButtons BUTTON_DAC_GAIN_COMP_UP
        .SOURCE_VOLTAGE .AMP1 1000000 1000).V_CALIBRATION
        (appliedGain offsetPage.V_CALIBRATION 1000000) ↔
      SamePart offsetPage.V_CALIBRATION 1000000 :=
  button_adjusts_applied_iff offsetPage 1000000 .AMP1 (by decide +kernel) (by decide)

/-- At half a millivolt below zero the negative gain is adjusted and the positive one applied. -/
theorem not_always_applied :
    ¬ ∀ (s : Page) (voltage_uV : ℤ) (range : CurrentRange) (tag millis : ℕ),
      tag ∈ showWidget .SOURCE_VOLTAGE voltage_uV range → s.tooFast millis = false →
        Adjusts s.V_CALIBRATION (s.handleCalibrationButtons tag .SOURCE_VOLTAGE range voltage_uV
          millis).V_CALIBRATION (appliedGain s.V_CALIBRATION voltage_uV) := by
  intro hall
  have hshown : BUTTON_DAC_GAIN_COMP_UP ∈ showWidget .SOURCE_VOLTAGE (-500 : ℤ) .AMP1 := by
    decide +kernel
  have hready : offsetPage.tooFast 1000 = false := by decide
  have hadjusts := hall offsetPage (-500) .AMP1 _ _ hshown hready
  rw [handleCalibrationButtons_adjusts hshown hready] at hadjusts
  revert hadjusts
  decide +kernel

end CalPage
end PoorMansSmu
