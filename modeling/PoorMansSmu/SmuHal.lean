import PoorMansSmu.Calibration
import PoorMansSmu.Hardware
import Mathlib.Tactic.SplitIfs

/-!
# SmuHal — the output stage

The class `ADCClass` of `SMU_HAL_717x.cpp`: committing source values and limits, switching the
current range, choosing the ADC inputs.  A method that changes the object returns the changed
object.  Every write to the board is applied to `hw` and appended to `sent`.

The voltage before quantisation is a function of its own for each of the four commits
(`voltageSourceVolts`, `currentSourceVolts`, `voltageLimitVolts`, `currentLimitVolts`), so that a
commit is: note the value, compute the voltage, write the span, write the code.
-/

namespace PoorMansSmu
namespace SmuHal

open Calibration Hardware Ltc2758

/-- One value sent to the limit converter: which commit sent it, and what it was. -/
structure LimitCommit where
  /-- `microVolt` for `fltSetCommitVoltageLimit`, `microAmpere` for `fltSetCommitCurrentLimit`. -/
  kind : Quantity
  value : Micro
  deriving DecidableEq, Repr

/-- One value sent to the source converter: what it was committed as, and what it was. -/
structure ValueCommit where
  operationType : OperationType
  value : ℤ
  deriving DecidableEq, Repr

/-- The state of `ADCClass`, the two calibration objects it reads, and the board. -/
structure ADCClass where
  setLimit_micro : Micro
  setValue_micro : ℤ
  current_range : CurrentRange
  operationType : OperationType
  DAC_RANGE_LOW : ℚ
  DAC_RANGE_HIGH : ℚ
  voltageMeasurementEnabled : Bool
  currentMeasurementEnabled : Bool
  gpio0 : Bool
  gpio1 : Bool
  V_CALIBRATION : DacComp
  C_CALIBRATION : DacComp
  hw : Hw
  /-- Every write made to the board, in order. -/
  sent : List HwWrite
  /-- Every limit committed, in order. -/
  limitCommits : List LimitCommit
  /-- Every source value committed, in order. -/
  valueCommits : List ValueCommit

/-! ## Voltages before quantisation -/

def R_shunt_1A : ℚ := 0.50
def R_mosfetSwitch : ℚ := 0.005
def voltageInputDividerCompensation : ℚ := 1

/-- The voltage of `fltSetCommitVoltageSource` before it is inverted for the converter. -/
def voltageSourceVolts (V_CALIBRATION : DacGains) (voltage_uV : ℚ) : ℚ :=
  let mv := voltage_uV / 1000
  let mv := if V_CALIBRATION.useDacCalibratedValues then dac_nonlinear_compensation mv else mv
  let dac_voltage := mv / 1000
  let dac_voltage := dac_voltage + V_CALIBRATION.dacZeroComp
  let comp :=
    if dac_voltage > 0 then
      if dac_voltage > 23 / 10 then V_CALIBRATION.dacGainCompPos2
      else V_CALIBRATION.dacGainCompPos
    else
      if dac_voltage < -23 / 10 then V_CALIBRATION.dacGainCompNeg2
      else V_CALIBRATION.dacGainCompNeg
  let dac_voltage := dac_voltage * comp
  dac_voltage * voltageInputDividerCompensation

/-- The voltage of `fltSetCommitCurrentSource`, inverted as the converter gets it. -/
def currentSourceVolts (C_CALIBRATION : DacGains) (current_range : CurrentRange)
    (current_uA : ℚ) : ℚ :=
  let mv := current_uA / 1000
  let mv := if C_CALIBRATION.useDacCalibratedValues then dac_nonlinear_compensation mv else mv
  let dac_voltage := mv / 1000
  match current_range with
  | .AMP1 =>
      let dac_voltage := dac_voltage * 10
      let dac_voltage := dac_voltage / 2
      let dac_voltage := dac_voltage + C_CALIBRATION.dacZeroComp
      let dac_voltage := dac_voltage * 0.9
      let dac_voltage :=
        if dac_voltage < 0 then dac_voltage * C_CALIBRATION.dacGainCompNeg
        else dac_voltage * C_CALIBRATION.dacGainCompPos
      let dac_voltage := dac_voltage * 1.09
      let dac_voltage := -dac_voltage
      dac_voltage
  | .MILLIAMP10 =>
      let dac_voltage := dac_voltage * 1000
      let dac_voltage := dac_voltage + C_CALIBRATION.dacZeroComp2
      let dac_voltage :=
        if dac_voltage < 0 then dac_voltage * C_CALIBRATION.dacGainCompNeg2
        else dac_voltage * C_CALIBRATION.dacGainCompPos2
      let dac_voltage := -dac_voltage
      dac_voltage

/-- The voltage of `fltSetCommitVoltageLimit`. -/
def voltageLimitVolts (voltage_uV : ℚ) : ℚ :=
  let mV := voltage_uV / 1000
  let mV := mV * voltageInputDividerCompensation
  mV / 1000

/-- The voltage of `fltSetCommitCurrentLimit`. -/
def currentLimitVolts (V_CALIBRATION : DacGains) (current_range : CurrentRange)
    (current_uA : ℚ) : ℚ :=
  match current_range with
  | .MILLIAMP10 =>
      let dac_voltage := current_uA / 1000
      if dac_voltage > 10 then 10 else dac_voltage
  | .AMP1 =>
      let dac_voltage := current_uA / 1000 / 1000
      let dac_voltage := 10 * dac_voltage * (R_shunt_1A + R_mosfetSwitch)
      dac_voltage * V_CALIBRATION.dacGainCompLim

namespace ADCClass

/-- Write to the board. -/
def write (s : ADCClass) (w : HwWrite) : ADCClass :=
  { s with hw := s.hw.apply w, sent := s.sent ++ [w] }

/-! ## Commits -/

def fltSetCommitVoltageSource (s : ADCClass) (voltage_uV : ℤ) (dynamicRange : Bool) : ADCClass :=
  let s := { s with
    operationType := .SOURCE_VOLTAGE
    setValue_micro := voltage_uV
    valueCommits := s.valueCommits ++ [ValueCommit.mk .SOURCE_VOLTAGE voltage_uV] }
  let dac_voltage := voltageSourceVolts s.V_CALIBRATION voltage_uV
  let (choice, low, high) : ℕ × ℚ × ℚ :=
    if dynamicRange then
      if |dac_voltage| ≤ 23 / 10 then (4, -5 / 2, 5 / 2)
      else if |dac_voltage| ≤ 46 / 10 then (2, -5, 5)
      else (3, -10, 10)
    else (3, -10, 10)
  let s := { s with DAC_RANGE_LOW := low, DAC_RANGE_HIGH := high }
  let span := choice * 4
  let s := s.write (.LTC2758_write 0 LTC2758_WRITE_SPAN_DAC ADDRESS_DACA span)
  let dac_voltage := -dac_voltage
  let v_adj := LTC2758_voltage_to_code dac_voltage s.DAC_RANGE_LOW s.DAC_RANGE_HIGH
  s.write (.LTC2758_write 0 LTC2758_WRITE_CODE_UPDATE_DAC ADDRESS_DACA v_adj)

def fltSetCommitCurrentSource (s : ADCClass) (current_uA : ℤ) : ADCClass :=
  let s := { s with
    operationType := .SOURCE_CURRENT
    setValue_micro := current_uA
    valueCommits := s.valueCommits ++ [ValueCommit.mk .SOURCE_CURRENT current_uA] }
  let dac_voltage := currentSourceVolts s.C_CALIBRATION s.current_range current_uA
  let (choice, low, high) : ℕ × ℚ × ℚ :=
    if |dac_voltage| < 22 / 10 then (4, -5 / 2, 5 / 2) else (3, -10, 10)
  let span := choice * 4
  let s := s.write (.LTC2758_write 0 LTC2758_WRITE_SPAN_DAC ADDRESS_DACA span)
  let v_adj := LTC2758_voltage_to_code dac_voltage low high
  s.write (.LTC2758_write 0 LTC2758_WRITE_CODE_UPDATE_DAC ADDRESS_DACA v_adj)

def fltSetCommitVoltageLimit (s : ADCClass) (voltage_uV : Micro) : ADCClass :=
  let s := { s with
    setLimit_micro := voltage_uV
    limitCommits := s.limitCommits ++ [LimitCommit.mk .microVolt voltage_uV] }
  -- 0 to 10 V, whatever the limit
  let span := 1 * 4
  let s := s.write (.LTC2758_write 1 LTC2758_WRITE_SPAN_DAC ADDRESS_DACA span)
  let v_adj := LTC2758_voltage_to_code (voltageLimitVolts voltage_uV.val) 0 10
  s.write (.LTC2758_write 1 LTC2758_WRITE_CODE_UPDATE_DAC ADDRESS_DACA v_adj)

def fltSetCommitCurrentLimit (s : ADCClass) (current_uA : Micro) : ADCClass :=
  let s := { s with
    setLimit_micro := current_uA
    limitCommits := s.limitCommits ++ [LimitCommit.mk .microAmpere current_uA] }
  let span := 1 * 4
  let dac_voltage := currentLimitVolts s.V_CALIBRATION s.current_range current_uA.val
  let s := s.write (.LTC2758_write 1 LTC2758_WRITE_SPAN_DAC ADDRESS_DACA span)
  let v_adj := LTC2758_voltage_to_code dac_voltage 0 10
  s.write (.LTC2758_write 1 LTC2758_WRITE_CODE_UPDATE_DAC ADDRESS_DACA v_adj)

/-! ## Current range -/

/-- The register address of entry 6 of `AD7176_regs`, which `setGPIO` reads: the identity register. -/
def gpioReadAddress : ℕ := 0x07

def setGpio (s : ADCClass) (nr : ℕ) (on : Bool) : ADCClass :=
  let v := s.hw.adc gpioReadAddress
  let v := v &&& 0xfff0
  let s := if nr = 0 then { s with gpio0 := on } else s
  let s := if nr = 1 then { s with gpio1 := on } else s
  -- bits 2 and 3 enable the outputs, bits 0 and 1 are their levels
  let b := match s.gpio0, s.gpio1 with
    | false, false => 0xC
    | true, false => 0xD
    | false, true => 0xE
    | true, true => 0xF
  s.write (.AD7176_WriteRegister 0x06 (v + b))

def setCurrentRange (s : ADCClass) (range : CurrentRange) (operationType : OperationType) :
    ADCClass :=
  let s := { s with current_range := range }
  match range with
  | .AMP1 =>
      -- relay before value
      let s := s.write (.digitalWrite4 true)
      let s := s.setGpio 1 true
      match operationType with
      | .SOURCE_VOLTAGE => s.fltSetCommitCurrentLimit s.setLimit_micro
      | .SOURCE_CURRENT => s.fltSetCommitCurrentSource s.setValue_micro
  | .MILLIAMP10 =>
      -- value before relay
      let s :=
        match operationType with
        | .SOURCE_VOLTAGE => s.fltSetCommitCurrentLimit s.setLimit_micro
        | .SOURCE_CURRENT => s.fltSetCommitCurrentSource s.setValue_micro
      let s := s.write (.digitalWrite4 false)
      s.setGpio 1 false

/-- `SETTINGS.max_current_10mA_range()`. -/
def max_current_10mA_range : ℚ := 9

/-- One of the two switches of `handleAutoCurrentRange`: in voltage mode the limit is committed once
more after the switch. -/
def autoSwitch (s : ADCClass) (range : CurrentRange) : ADCClass :=
  let s := s.setCurrentRange range s.operationType
  if s.operationType = .SOURCE_VOLTAGE then s.fltSetCommitCurrentLimit s.setLimit_micro else s

/-- `handleAutoCurrentRange`, with the measured current `C_STATS.rawValue` and whether a null or
gain calibration is under way. -/
def handleAutoCurrentRange (s : ADCClass) (enabled calibrating : Bool) (milliAmpere : ℚ) :
    ADCClass :=
  if !enabled then s
  else if !calibrating then
    let hysteresis : ℚ := 0.5
    let switchAt := max_current_10mA_range
    let s :=
      if s.current_range = .AMP1 ∧ |milliAmpere| < switchAt - hysteresis then
        s.autoSwitch .MILLIAMP10
      else s
    -- the second check sees the range that the first one has set
    if s.current_range = .MILLIAMP10 ∧ |milliAmpere| > switchAt then s.autoSwitch .AMP1 else s
  else s

/-! ## ADC inputs -/

def enableVoltageMeasurement (s : ADCClass) (enable : Bool) : ADCClass :=
  { s with voltageMeasurementEnabled := enable }

def enableCurrentMeasurement (s : ADCClass) (enable : Bool) : ADCClass :=
  { s with currentMeasurementEnabled := enable }

/-- The register writes of `updateSettings`. -/
def updateSettingsWrites (s : ADCClass) : List HwWrite :=
  if s.currentMeasurementEnabled ∧ s.voltageMeasurementEnabled then
    [.AD7176_WriteRegister 0x10 0x8001, .AD7176_WriteRegister 0x11 0x8043]
  else if s.currentMeasurementEnabled then
    [.AD7176_WriteRegister 0x10 0x8043, .AD7176_WriteRegister 0x11 0x0001]
  else if s.voltageMeasurementEnabled then
    [.AD7176_WriteRegister 0x10 0x8001, .AD7176_WriteRegister 0x11 0x0043]
  else []

def updateSettings (s : ADCClass) : ADCClass :=
  s.updateSettingsWrites.foldl write s

/-! ## Start -/

/-- The board and the object before `setup`: pin 4 low, the ADC as initialised, the converters as
`initDAC` leaves them. -/
def init (V_CALIBRATION C_CALIBRATION : DacComp) (adc : ℕ → ℕ) : ADCClass :=
  let s : ADCClass :=
    { setLimit_micro := ⟨0, .microAmpere⟩
      setValue_micro := 0
      current_range := .AMP1
      operationType := .SOURCE_VOLTAGE
      DAC_RANGE_LOW := 0
      DAC_RANGE_HIGH := 0
      voltageMeasurementEnabled := true
      currentMeasurementEnabled := true
      gpio0 := false
      gpio1 := false
      V_CALIBRATION := V_CALIBRATION
      C_CALIBRATION := C_CALIBRATION
      hw := ⟨false, adc, Dac.powerUp, Dac.powerUp⟩
      sent := []
      limitCommits := []
      valueCommits := [] }
  let s := s.write (.LTC2758_write 0 LTC2758_WRITE_SPAN_DAC ADDRESS_DAC_ALL 3)
  let s := s.write (.LTC2758_write 0 LTC2758_WRITE_CODE_UPDATE_DAC ADDRESS_DACA 0)
  let s := s.write (.LTC2758_write 1 LTC2758_WRITE_SPAN_DAC ADDRESS_DAC_ALL 3)
  s.write (.LTC2758_write 1 LTC2758_WRITE_CODE_UPDATE_DAC ADDRESS_DACA 0x6666)

/-- The calls `setup` makes, with the values of `SettingsClass`: 1234.5 mV and 33 mA. -/
def setup (V_CALIBRATION C_CALIBRATION : DacComp) (adc : ℕ → ℕ) : ADCClass :=
  let s := init V_CALIBRATION C_CALIBRATION adc
  let s := s.setGpio 1 false
  let s := s.fltSetCommitVoltageSource 1234500 true
  let s := s.setCurrentRange .AMP1 .SOURCE_VOLTAGE
  s.fltSetCommitCurrentLimit ⟨33000, .microAmpere⟩

/-! ## What a method does to the object

One lemma for each method and each of the fields operation type, range, limit, value and the two
histories. -/

section Effects

variable (s : ADCClass)

@[simp] theorem write_sent (w : HwWrite) : (s.write w).sent = s.sent ++ [w] := rfl

section VoltageSource

variable (voltage_uV : ℤ) (dynamicRange : Bool)

@[simp] theorem voltageSource_operationType :
    (s.fltSetCommitVoltageSource voltage_uV dynamicRange).operationType = .SOURCE_VOLTAGE := by
  unfold fltSetCommitVoltageSource
  rfl

@[simp] theorem voltageSource_current_range :
    (s.fltSetCommitVoltageSource voltage_uV dynamicRange).current_range = s.current_range := by
  unfold fltSetCommitVoltageSource
  rfl

@[simp] theorem voltageSource_setLimit :
    (s.fltSetCommitVoltageSource voltage_uV dynamicRange).setLimit_micro = s.setLimit_micro := by
  unfold fltSetCommitVoltageSource
  rfl

@[simp] theorem voltageSource_setValue :
    (s.fltSetCommitVoltageSource voltage_uV dynamicRange).setValue_micro = voltage_uV := by
  unfold fltSetCommitVoltageSource
  rfl

@[simp] theorem voltageSource_limitCommits :
    (s.fltSetCommitVoltageSource voltage_uV dynamicRange).limitCommits = s.limitCommits := by
  unfold fltSetCommitVoltageSource
  rfl

@[simp] theorem voltageSource_valueCommits :
    (s.fltSetCommitVoltageSource voltage_uV dynamicRange).valueCommits =
      s.valueCommits ++ [⟨.SOURCE_VOLTAGE, voltage_uV⟩] := by
  unfold fltSetCommitVoltageSource
  rfl

end VoltageSource

section CurrentSource

variable (current_uA : ℤ)

@[simp] theorem currentSource_operationType :
    (s.fltSetCommitCurrentSource current_uA).operationType = .SOURCE_CURRENT := by
  unfold fltSetCommitCurrentSource
  rfl

@[simp] theorem currentSource_current_range :
    (s.fltSetCommitCurrentSource current_uA).current_range = s.current_range := by
  unfold fltSetCommitCurrentSource
  rfl

@[simp] theorem currentSource_setLimit :
    (s.fltSetCommitCurrentSource current_uA).setLimit_micro = s.setLimit_micro := by
  unfold fltSetCommitCurrentSource
  rfl

@[simp] theorem currentSource_setValue :
    (s.fltSetCommitCurrentSource current_uA).setValue_micro = current_uA := by
  unfold fltSetCommitCurrentSource
  rfl

@[simp] theorem currentSource_limitCommits :
    (s.fltSetCommitCurrentSource current_uA).limitCommits = s.limitCommits := by
  unfold fltSetCommitCurrentSource
  rfl

@[simp] theorem currentSource_valueCommits :
    (s.fltSetCommitCurrentSource current_uA).valueCommits =
      s.valueCommits ++ [⟨.SOURCE_CURRENT, current_uA⟩] := by
  unfold fltSetCommitCurrentSource
  rfl

end CurrentSource

section Limits

variable (limit : Micro)

@[simp] theorem voltageLimit_operationType :
    (s.fltSetCommitVoltageLimit limit).operationType = s.operationType := rfl

@[simp] theorem voltageLimit_current_range :
    (s.fltSetCommitVoltageLimit limit).current_range = s.current_range := rfl

@[simp] theorem voltageLimit_setLimit :
    (s.fltSetCommitVoltageLimit limit).setLimit_micro = limit := rfl

@[simp] theorem voltageLimit_setValue :
    (s.fltSetCommitVoltageLimit limit).setValue_micro = s.setValue_micro := rfl

@[simp] theorem voltageLimit_limitCommits :
    (s.fltSetCommitVoltageLimit limit).limitCommits =
      s.limitCommits ++ [⟨.microVolt, limit⟩] := rfl

@[simp] theorem voltageLimit_valueCommits :
    (s.fltSetCommitVoltageLimit limit).valueCommits = s.valueCommits := rfl

@[simp] theorem currentLimit_operationType :
    (s.fltSetCommitCurrentLimit limit).operationType = s.operationType := rfl

@[simp] theorem currentLimit_current_range :
    (s.fltSetCommitCurrentLimit limit).current_range = s.current_range := rfl

@[simp] theorem currentLimit_setLimit :
    (s.fltSetCommitCurrentLimit limit).setLimit_micro = limit := rfl

@[simp] theorem currentLimit_setValue :
    (s.fltSetCommitCurrentLimit limit).setValue_micro = s.setValue_micro := rfl

@[simp] theorem currentLimit_limitCommits :
    (s.fltSetCommitCurrentLimit limit).limitCommits =
      s.limitCommits ++ [⟨.microAmpere, limit⟩] := rfl

@[simp] theorem currentLimit_valueCommits :
    (s.fltSetCommitCurrentLimit limit).valueCommits = s.valueCommits := rfl

end Limits

section Gpio

variable (nr : ℕ) (on : Bool)

@[simp] theorem setGpio_operationType : (s.setGpio nr on).operationType = s.operationType := by
  simp only [setGpio, write]
  split_ifs <;> rfl

@[simp] theorem setGpio_current_range : (s.setGpio nr on).current_range = s.current_range := by
  simp only [setGpio, write]
  split_ifs <;> rfl

@[simp] theorem setGpio_setLimit : (s.setGpio nr on).setLimit_micro = s.setLimit_micro := by
  simp only [setGpio, write]
  split_ifs <;> rfl

@[simp] theorem setGpio_setValue : (s.setGpio nr on).setValue_micro = s.setValue_micro := by
  simp only [setGpio, write]
  split_ifs <;> rfl

@[simp] theorem setGpio_limitCommits : (s.setGpio nr on).limitCommits = s.limitCommits := by
  simp only [setGpio, write]
  split_ifs <;> rfl

@[simp] theorem setGpio_valueCommits : (s.setGpio nr on).valueCommits = s.valueCommits := by
  simp only [setGpio, write]
  split_ifs <;> rfl

end Gpio

section Range

variable (range : CurrentRange) (operationType : OperationType)

@[simp] theorem setCurrentRange_current_range :
    (s.setCurrentRange range operationType).current_range = range := by
  cases range <;> cases operationType <;> rfl

/-- A switch in current mode commits a source current, which makes current mode the SMU's own. -/
theorem setCurrentRange_operationType :
    (s.setCurrentRange range operationType).operationType =
      if operationType = .SOURCE_VOLTAGE then s.operationType else .SOURCE_CURRENT := by
  cases range <;> cases operationType <;> rfl

@[simp] theorem setCurrentRange_own_operationType :
    (s.setCurrentRange range s.operationType).operationType = s.operationType := by
  rw [setCurrentRange_operationType]
  cases s.operationType <;> rfl

@[simp] theorem setCurrentRange_setLimit :
    (s.setCurrentRange range operationType).setLimit_micro = s.setLimit_micro := by
  cases range <;> cases operationType <;> rfl

@[simp] theorem setCurrentRange_setValue :
    (s.setCurrentRange range operationType).setValue_micro = s.setValue_micro := by
  cases range <;> cases operationType <;> rfl

/-- A switch in voltage mode commits the stored limit again, as a current. -/
theorem setCurrentRange_limitCommits :
    (s.setCurrentRange range operationType).limitCommits =
      if operationType = .SOURCE_VOLTAGE then
        s.limitCommits ++ [⟨.microAmpere, s.setLimit_micro⟩]
      else s.limitCommits := by
  cases range <;> cases operationType <;> rfl

/-- A switch in current mode commits the stored value again, as a current. -/
theorem setCurrentRange_valueCommits :
    (s.setCurrentRange range operationType).valueCommits =
      if operationType = .SOURCE_VOLTAGE then s.valueCommits
      else s.valueCommits ++ [⟨.SOURCE_CURRENT, s.setValue_micro⟩] := by
  cases range <;> cases operationType <;> rfl

@[simp] theorem autoSwitch_current_range : (s.autoSwitch range).current_range = range := by
  simp only [autoSwitch]
  split_ifs
  · exact s.setCurrentRange_current_range range _
  · exact s.setCurrentRange_current_range range _

@[simp] theorem autoSwitch_operationType :
    (s.autoSwitch range).operationType = s.operationType := by
  simp only [autoSwitch]
  split_ifs
  · exact s.setCurrentRange_own_operationType range
  · exact s.setCurrentRange_own_operationType range

@[simp] theorem autoSwitch_setLimit : (s.autoSwitch range).setLimit_micro = s.setLimit_micro := by
  simp only [autoSwitch]
  split_ifs
  · exact s.setCurrentRange_setLimit range _
  · exact s.setCurrentRange_setLimit range _

@[simp] theorem autoSwitch_setValue : (s.autoSwitch range).setValue_micro = s.setValue_micro := by
  simp only [autoSwitch]
  split_ifs
  · exact s.setCurrentRange_setValue range _
  · exact s.setCurrentRange_setValue range _

/-- An automatic switch in voltage mode commits the stored limit twice, as a current. -/
theorem autoSwitch_limitCommits :
    (s.autoSwitch range).limitCommits =
      if s.operationType = .SOURCE_VOLTAGE then
        s.limitCommits ++ [⟨.microAmpere, s.setLimit_micro⟩, ⟨.microAmpere, s.setLimit_micro⟩]
      else s.limitCommits := by
  unfold autoSwitch
  simp only [setCurrentRange_own_operationType]
  split_ifs with hop
  · simp [setCurrentRange_limitCommits, hop]
  · rw [setCurrentRange_limitCommits, if_neg hop]

/-- An automatic switch in current mode commits the stored value again. -/
theorem autoSwitch_valueCommits :
    (s.autoSwitch range).valueCommits =
      if s.operationType = .SOURCE_VOLTAGE then s.valueCommits
      else s.valueCommits ++ [⟨.SOURCE_CURRENT, s.setValue_micro⟩] := by
  unfold autoSwitch
  simp only [setCurrentRange_own_operationType]
  split_ifs with hop
  · simp [setCurrentRange_valueCommits, hop]
  · rw [setCurrentRange_valueCommits, if_neg hop]

/-- The automatic change of the range keeps what every switch it may make keeps. -/
theorem handleAutoCurrentRange_keeps {P : ADCClass → Prop}
    (hswitch : ∀ s range, P s → P (autoSwitch s range)) (enabled calibrating : Bool)
    (milliAmpere : ℚ) (hs : P s) : P (s.handleAutoCurrentRange enabled calibrating milliAmpere) := by
  simp only [handleAutoCurrentRange]
  split_ifs
  · exact hs
  · exact hswitch _ _ (hswitch _ _ hs)
  · exact hswitch _ _ hs
  · exact hswitch _ _ hs
  · exact hs
  · exact hs

@[simp] theorem handleAutoCurrentRange_operationType (enabled calibrating : Bool)
    (milliAmpere : ℚ) :
    (s.handleAutoCurrentRange enabled calibrating milliAmpere).operationType = s.operationType :=
  s.handleAutoCurrentRange_keeps (P := fun s' => s'.operationType = s.operationType)
    (fun _ _ h => (autoSwitch_operationType _ _).trans h) enabled calibrating milliAmpere rfl

@[simp] theorem handleAutoCurrentRange_setValue (enabled calibrating : Bool) (milliAmpere : ℚ) :
    (s.handleAutoCurrentRange enabled calibrating milliAmpere).setValue_micro =
      s.setValue_micro :=
  s.handleAutoCurrentRange_keeps (P := fun s' => s'.setValue_micro = s.setValue_micro)
    (fun _ _ h => (autoSwitch_setValue _ _).trans h) enabled calibrating milliAmpere rfl

end Range

end Effects

end ADCClass

end SmuHal
end PoorMansSmu
