import PoorMansSmu.Timers
import PoorMansSmu.ScpiParser

/-!
# ScpiHandlers — what a command does and what it answers

The handlers of `Poormanssmu.cpp` that `scpi_setup` registers, the parameters of a message, and the
units in which the setting commands take them.
-/

namespace PoorMansSmu
namespace Scpi

open SmuHal Program

/-! ## Parameters -/

/-- What follows the first space or tab of a message. -/
def notProcessed (message : CString) : CString :=
  ((message.dropWhile isspace).dropWhile fun c => c ≠ ' ' && c ≠ '\t').drop 1

/-- `SCPI_Parameters`. -/
def parameters (message : CString) : List CString :=
  ((strtok (notProcessed message) ',').map (List.dropWhile isspace)).take SCPI_ARRAY_SYZE

def digitsValue (digits : CString) : ℤ :=
  digits.foldl (fun n c => 10 * n + (c.toNat - '0'.toNat : ℕ)) 0

/-- `String::toInt`, which is `strtol`: a sign and digits after white space, within 32 bits. -/
def toInt (s : CString) : ℤ :=
  let s := s.dropWhile isspace
  let n :=
    match s with
    | '-' :: s => -digitsValue (s.takeWhile Char.isDigit)
    | '+' :: s => digitsValue (s.takeWhile Char.isDigit)
    | s => digitsValue (s.takeWhile Char.isDigit)
  max (-2147483648) (min n 2147483647)

/-- The first parameter as a number, if there is a parameter. -/
def firstParameter (message : CString) : Option ℤ := (parameters message).head?.map toInt

/-! ## Handlers -/

/-- `config_gain`, the record that `saveGain` keeps in the EEPROM. -/
structure ConfigGain where
  gain_positive : ℚ
  gain_negative : ℚ
  deriving DecidableEq, Repr

/-- The program, and what commands read and write besides. -/
structure Instrument where
  program : State
  gain : ConfigGain

/-- What the measuring commands read. -/
structure Readings where
  C_FILTERS_mean : ℚ := 0
  V_FILTERS_mean : ℚ := 0
  LM60_temperature : ℚ := 0
  TC74_temperature : ℚ := 0

inductive Reply
  | OK
  | ERROR
  | identity
  | number (value : ℚ) (decimals : ℕ)
  deriving DecidableEq, Repr

def saveGain (value : ℤ) : ConfigGain where
  gain_positive := value
  gain_negative := -value

/-- The answer of the handlers that need a parameter. -/
def acknowledge (parameter : Option ℤ) : Reply := if parameter.isSome then .OK else .ERROR

/-- The handler of a command, called with its first parameter. -/
def handle (x : Readings) (i : Instrument) (parameter : Option ℤ) : Caller → Instrument × Reply
  | .Identify => (i, .identity)
  | .systemErrSCPI => (i, .number 0 0)
  | .finTemperatureSCPI => (i, .number x.TC74_temperature 1)
  | .systemTemperatureSCPI => (i, .number x.LM60_temperature 1)
  | .sourceVoltageSCPI =>
      ({ i with program := scpi i.program (.sourceVoltageSCPI parameter) }, acknowledge parameter)
  | .sourceCurrentSCPI =>
      ({ i with program := scpi i.program (.sourceCurrentSCPI parameter) }, acknowledge parameter)
  | .sourceCurrentVLimitSCPI =>
      ({ i with program := scpi i.program (.sourceCurrentVLimitSCPI parameter) },
        acknowledge parameter)
  | .sourceVoltageILimitSCPI =>
      ({ i with program := scpi i.program (.sourceVoltageILimitSCPI parameter) },
        acknowledge parameter)
  | .setGainSCPI =>
      match parameter with
      | some gain => ({ i with gain := saveGain gain }, .OK)
      | none => (i, .ERROR)
  | .measureVoltageSCPI => (i, .number x.V_FILTERS_mean 3)
  | .measureCurrentSCPI => (i, .number x.C_FILTERS_mean 3)
  | .getGainSCPI => (i, .number i.gain.gain_positive 2)

/-- A message is executed; a message that is no command gets no answer. -/
def execute (x : Readings) (i : Instrument) (message : CString) : Instrument × Option Reply :=
  match scpi_setup.executeMessage message with
  | some caller =>
      let (i', reply) := handle x i (firstParameter message) caller
      (i', some reply)
  | none => (i, none)

/-! ## Units -/

/-- The commands that set a value or a limit. -/
inductive SettingCommand
  | sourceVoltage
  | sourceCurrent
  | sourceVoltageILimit
  | sourceCurrentVLimit
  deriving DecidableEq, Repr

/-- The units of parameters. -/
inductive ParameterUnit
  | mV
  | uA
  deriving DecidableEq, Repr

namespace SettingCommand

def command (n : ℤ) : SettingCommand → ScpiCommand
  | .sourceVoltage => .sourceVoltageSCPI (some n)
  | .sourceCurrent => .sourceCurrentSCPI (some n)
  | .sourceVoltageILimit => .sourceVoltageILimitSCPI (some n)
  | .sourceCurrentVLimit => .sourceCurrentVLimitSCPI (some n)

/-- The unit the handler announces. -/
def announced : SettingCommand → ParameterUnit
  | .sourceVoltage => .mV
  | .sourceCurrent => .uA
  | .sourceVoltageILimit => .uA
  | .sourceCurrentVLimit => .mV

/-- What `getSetValue_micro` or `getLimitValue_micro` returns afterwards. -/
def stored (s : ADCClass) : SettingCommand → ℤ
  | .sourceVoltage => s.setValue_micro
  | .sourceCurrent => s.setValue_micro
  | .sourceVoltageILimit => s.setLimit_micro.val
  | .sourceCurrentVLimit => s.setLimit_micro.val

end SettingCommand

/-- A number of units in micro-units. -/
def ParameterUnit.micro (n : ℤ) : ParameterUnit → ℤ
  | .mV => 1000 * n
  | .uA => n

/-- The command stores its parameter in the unit it announces. -/
def StoresAnnounced (p : State) (c : SettingCommand) (n : ℤ) : Prop :=
  c.stored (scpi p (c.command n)).SMU = c.announced.micro n

/-- The source command chooses the range that `fltCommitCurrentSourceAutoRange` prescribes for the
number of microamperes. -/
def ChoosesPrescribed (p : State) (n : ℤ) : Prop :=
  (scpi p (.sourceCurrentSCPI (some n))).SMU.current_range =
    (fltCommitCurrentSourceAutoRange p n true).SMU.current_range

instance (p : State) (c : SettingCommand) (n : ℤ) : Decidable (StoresAnnounced p c n) :=
  inferInstanceAs (Decidable (_ = _))

instance (p : State) (n : ℤ) : Decidable (ChoosesPrescribed p n) :=
  inferInstanceAs (Decidable (_ = _))

theorem autoRange_current_range (p : State) (uV : ℤ) :
    (fltCommitCurrentSourceAutoRange p uV true).SMU.current_range =
      if |uV| < 8000 then .MILLIAMP10 else .AMP1 := by
  unfold fltCommitCurrentSourceAutoRange
  simp only [if_true, ADCClass.currentSource_current_range]
  split_ifs
  · exact p.SMU.setCurrentRange_current_range _ _
  · exact p.SMU.setCurrentRange_current_range _ _

/-- What the four commands store: the source current is multiplied by 1000 although it is in
microamperes, the voltage limit is not although it is in millivolts. -/
theorem stored_eq (p : State) (c : SettingCommand) {n : ℤ} (hn : |n| ≤ 1000000) :
    c.stored (scpi p (c.command n)).SMU =
      match c with
      | .sourceVoltage => 1000 * n
      | .sourceCurrent => 1000 * n
      | .sourceVoltageILimit => n
      | .sourceCurrentVLimit => n := by
  have hrange := abs_le.1 hn
  cases c with
  | sourceVoltage =>
      have hfits : wrap32 (n * 1000) = n * 1000 := wrap32_of_fits (by omega) (by omega)
      calc (scpi p (.sourceVoltageSCPI (some n))).SMU.setValue_micro
          = wrap32 (n * 1000) := ADCClass.voltageSource_setValue _ _ true
        _ = 1000 * n := by rw [hfits, mul_comm]
  | sourceCurrent =>
      calc (scpi p (.sourceCurrentSCPI (some n))).SMU.setValue_micro
          = n * 1000 := ADCClass.currentSource_setValue _ _
        _ = 1000 * n := mul_comm n 1000
  | sourceVoltageILimit => rfl
  | sourceCurrentVLimit => rfl

/-- The voltage and its current limit are stored in the unit announced, the current and its voltage
limit only when they are 0, and the range is the prescribed one only outside the factor of 1000. -/
theorem units_right_iff (p : State) {n : ℤ} (hn : |n| ≤ 1000000) :
    (∀ c, StoresAnnounced p c n ↔ c = .sourceVoltage ∨ c = .sourceVoltageILimit ∨ n = 0) ∧
      (ChoosesPrescribed p n ↔ |n| < 8 ∨ 8000 ≤ |n|) := by
  refine ⟨?_, ?_⟩
  · intro c
    unfold StoresAnnounced
    rw [stored_eq p c hn]
    cases c with
    | sourceVoltage => simp [SettingCommand.announced, ParameterUnit.micro]
    | sourceCurrent =>
        simp only [SettingCommand.announced, ParameterUnit.micro, reduceCtorEq, false_or]
        omega
    | sourceVoltageILimit => simp [SettingCommand.announced, ParameterUnit.micro]
    | sourceCurrentVLimit =>
        simp only [SettingCommand.announced, ParameterUnit.micro, reduceCtorEq, false_or]
        omega
  · have hchosen : (scpi p (.sourceCurrentSCPI (some n))).SMU.current_range =
        if |n * 1000| < 8000 then .MILLIAMP10 else .AMP1 :=
      autoRange_current_range (useCurrentFeedback p) (n * 1000)
    -- the range is chosen by the product, so the bounds of the range divide by 1000
    have hscaled : |n * 1000| = |n| * 1000 := by rw [abs_mul]; rfl
    unfold ChoosesPrescribed
    rw [hchosen, autoRange_current_range, hscaled]
    split_ifs with hmilli hmicro hmicro
    · exact ⟨fun _ => Or.inl (by omega), fun _ => rfl⟩
    · omega
    · exact ⟨nofun, by omega⟩
    · exact ⟨fun _ => Or.inr (by omega), fun _ => rfl⟩

/-- One milliampere. -/
theorem units_right_thousand :
    (∀ c, StoresAnnounced board c 1000 ↔
      c = .sourceVoltage ∨ c = .sourceVoltageILimit ∨ (1000 : ℤ) = 0) ∧
      (ChoosesPrescribed board 1000 ↔ |(1000 : ℤ)| < 8 ∨ 8000 ≤ |(1000 : ℤ)|) :=
  units_right_iff board (by decide)

/-- 1000 uA are stored as 1 A, in the range of 1 A. -/
theorem thousand_microampere_stored_as_ampere :
    ¬ StoresAnnounced board .sourceCurrent 1000 ∧ ¬ ChoosesPrescribed board 1000 := by
  decide +kernel

/-! ## Commands that fail -/

/-- Nothing has changed: neither the state, nor the operation type of the next iteration. -/
structure Untouched (i i' : Instrument) : Prop where
  state : i' = i
  operationType : ∀ input,
    (loopMain i'.program input).operationType = (loopMain i.program input).operationType

/-- A source command finds its function selected. -/
def AlreadySelected (p : State) : Option Caller → Prop
  | some .sourceVoltageSCPI => p.functionType = .SOURCE_DC_VOLTAGE
  | some .sourceCurrentSCPI => p.functionType = .SOURCE_DC_CURRENT
  | _ => True

/-- Without a parameter a source command still selects its function, and does nothing else. -/
theorem select_eq_iff (p : State) (f : FunctionType) :
    { p with functionType := f } = p ↔ p.functionType = f := by
  refine ⟨?_, ?_⟩
  · intro h
    exact (congrArg State.functionType h).symm
  · intro h
    subst h
    rfl

theorem untouched_iff (i i' : Instrument) : Untouched i i' ↔ i' = i := by
  refine ⟨Untouched.state, ?_⟩
  intro h
  subst h
  exact ⟨rfl, fun _ => rfl⟩

theorem acknowledge_error {parameter : Option ℤ} (h : acknowledge parameter = .ERROR) :
    parameter = none := by
  cases parameter with
  | none => rfl
  | some n => cases h

/-- One handler. -/
theorem handle_error_iff (x : Readings) (i : Instrument) (parameter : Option ℤ) (caller : Caller)
    (h : (handle x i parameter caller).2 = .ERROR) :
    (handle x i parameter caller).1 = i ↔ AlreadySelected i.program (some caller) := by
  have hprogram : ∀ p, { i with program := p } = i ↔ p = i.program := by
    intro p
    refine ⟨fun h => congrArg Instrument.program h, ?_⟩
    intro h
    subst h
    rfl
  -- a handler that answers with an error was given no parameter
  cases caller with
  | sourceVoltageSCPI =>
      obtain rfl := acknowledge_error h
      exact (hprogram _).trans (select_eq_iff i.program _)
  | sourceCurrentSCPI =>
      obtain rfl := acknowledge_error h
      exact (hprogram _).trans (select_eq_iff i.program _)
  | sourceCurrentVLimitSCPI =>
      obtain rfl := acknowledge_error h
      exact ⟨fun _ => trivial, fun _ => rfl⟩
  | sourceVoltageILimitSCPI =>
      obtain rfl := acknowledge_error h
      exact ⟨fun _ => trivial, fun _ => rfl⟩
  | setGainSCPI =>
      cases parameter with
      | none => exact ⟨fun _ => trivial, fun _ => rfl⟩
      | some gain => cases h
  | Identify => cases h
  | systemErrSCPI => cases h
  | finTemperatureSCPI => cases h
  | systemTemperatureSCPI => cases h
  | measureVoltageSCPI => cases h
  | measureCurrentSCPI => cases h
  | getGainSCPI => cases h

/-- A message that is answered by an error leaves everything as it was exactly if it is no source
command, or its function is selected already. -/
theorem error_untouched_iff (x : Readings) (i : Instrument) (message : CString)
    (h : (execute x i message).2 = some .ERROR) :
    Untouched i (execute x i message).1 ↔
      AlreadySelected i.program (scpi_setup.executeMessage message) := by
  rw [untouched_iff]
  unfold execute at h ⊢
  cases hcaller : scpi_setup.executeMessage message with
  | none =>
      rw [hcaller] at h
      cases h
  | some caller =>
      rw [hcaller] at h
      exact handle_error_iff x i _ caller (Option.some.inj h)

/-- The voltage is sourced, and the command for it comes without a value. -/
theorem error_untouched_volt :
    Untouched ⟨board, saveGain 1⟩ (execute {} ⟨board, saveGain 1⟩ "SOUR:VOLT".toList).1 ↔
      AlreadySelected board (scpi_setup.executeMessage "SOUR:VOLT".toList) :=
  error_untouched_iff {} ⟨board, saveGain 1⟩ "SOUR:VOLT".toList (by decide +kernel)

/-- The voltage is sourced, and the command for the current comes without a value: it answers with an
error, and the next iteration goes by the current. -/
theorem error_selects_current :
    (execute {} ⟨board, saveGain 1⟩ "SOUR:CURR".toList).2 = some .ERROR ∧
      ¬ Untouched ⟨board, saveGain 1⟩ (execute {} ⟨board, saveGain 1⟩ "SOUR:CURR".toList).1 := by
  refine ⟨by decide +kernel, ?_⟩
  intro h
  have hselected : (execute {} ⟨board, saveGain 1⟩ "SOUR:CURR".toList).1.program.functionType =
      .SOURCE_DC_CURRENT := by decide +kernel
  have hkept := congrArg (fun i => i.program.functionType) h.state
  rw [hselected] at hkept
  cases hkept

end Scpi
end PoorMansSmu
