import PoorMansSmu.SmuHal

/-!
# FrontPanel — the menu, the dials and the functions that can be selected

The classes behind the touch screen: `MainMenuClass`, `DialClass`, `FunctionPulseClass`,
`FunctionSweepClass` and `DigitizerClass`.  A method that calls a callback returns what it calls it
with; a method that commits values takes and returns the output stage.

Drawing is left out.  How the keys of a dial change its display is left out as well: a display can be
anything.
-/

namespace PoorMansSmu
namespace FrontPanel

open SmuHal

/-! ## Touches and times -/

/-- The tag of the screen element that is touched. -/
inductive Tag
  | KEYBOARD_OK
  | KEYBOARD_CANCEL
  | BUTTON_SOURCE_SET
  | BUTTON_LIM_SET
  | BUTTON_CUR_AUTO
  | MENU_BUTTON_SOURCE_PULSE
  | MENU_BUTTON_SOURCE_DC_VOLTAGE
  | MENU_BUTTON_SOURCE_DC_CURRENT
  | MENU_BUTTON_SOURCE_SWEEP
  | MENU_BUTTON_DIGITIZE
  | MENU_BUTTON_GRAPH
  | MENU_BUTTON_LOGGER
  | MENU_BUTTON_RESISTANCE
  | MENU_SHOWSETTINGS
  | MAIN_MENU_CLOSE
  | PULSE_BUTTON_INC
  | PULSE_BUTTON_DEC
  | PULSE_BUTTON_INC2
  | PULSE_BUTTON_DEC2
  | PULSE_BUTTON_INC3
  | PULSE_BUTTON_DEC3
  | SWEEP_BUTTON_INC
  | SWEEP_BUTTON_DEC
  | SWEEP_BUTTON_STEP_INC
  | SWEEP_BUTTON_STEP_DEC
  | SWEEP_BUTTON_VOLT_INC
  | SWEEP_BUTTON_VOLT_DEC
  | SWEEP_BUTTON_CLEAR
  /-- A tag that the source writes as a number; 0 when nothing is touched. -/
  | number (n : ℕ)
  deriving DecidableEq, Repr

/-- `timer + period < millis()` for an unsigned 32-bit timer. -/
def elapsed (timer period millis : ℕ) : Bool := (timer + period) % 4294967296 < millis

/-- `timer + period < (int)millis()` for a timer of type `int`. -/
def elapsedInt (timer period : ℤ) (millis : ℕ) : Bool := wrap32 (timer + period) < wrap32 millis

/-! ## MainMenuClass -/

structure MainMenuClass where
  active : Bool := false
  toBeDisactive : Bool := false
  keepActiveForAWhileTimer : ℕ := 0
  scrollMainMenu : ℤ := 0
  scrollMainMenuDir : ℤ := 0
  functionType : FunctionType := .SOURCE_DC_VOLTAGE

namespace MainMenuClass

def open_ (m : MainMenuClass) : MainMenuClass :=
  { m with active := true, scrollMainMenuDir := 1 }

/-- The callback gets the function selected last. -/
def close (m : MainMenuClass) : MainMenuClass × Option FunctionType :=
  ({ m with scrollMainMenuDir := -1 }, if m.active then some m.functionType else none)

/-- The function that a button of the menu stands for. -/
def buttonFunction : Tag → Option FunctionType
  | .MENU_BUTTON_SOURCE_PULSE => some .SOURCE_PULSE
  | .MENU_BUTTON_SOURCE_DC_VOLTAGE => some .SOURCE_DC_VOLTAGE
  | .MENU_BUTTON_SOURCE_DC_CURRENT => some .SOURCE_DC_CURRENT
  | .MENU_BUTTON_SOURCE_SWEEP => some .SOURCE_SWEEP
  | .MENU_BUTTON_DIGITIZE => some .DIGITIZE
  | .MENU_BUTTON_GRAPH => some .GRAPH
  | .MENU_BUTTON_RESISTANCE => some .MEASURE_RESISTANCE
  | .MENU_BUTTON_LOGGER => some .DATALOGGER
  | .MENU_SHOWSETTINGS => some .SHOWSETTINGS
  | _ => none

def handleButtonAction (m : MainMenuClass) (inputTag : Tag) :
    MainMenuClass × Option FunctionType :=
  if m.scrollMainMenuDir ≠ 0 then (m, none)
  else
    match buttonFunction inputTag with
    | some f => { m with functionType := f }.close
    | none => (m, none)

/-- The menu slides in, and out again once it is closed; it counts as active for another 50 ms. -/
def render (m : MainMenuClass) (inputTag : Tag) (millis : ℕ) :
    MainMenuClass × Option FunctionType :=
  let scrollSpeed := 30
  let m := { m with scrollMainMenu := m.scrollMainMenu + m.scrollMainMenuDir * scrollSpeed }
  let m :=
    if m.scrollMainMenu > 350 then { m with scrollMainMenu := 350, scrollMainMenuDir := 0 } else m
  let (m, called) :=
    if inputTag = .MAIN_MENU_CLOSE ∧ m.scrollMainMenuDir = 0 then m.close else (m, none)
  let m :=
    if m.scrollMainMenuDir = -1 then
      let m := { m with scrollMainMenu := m.scrollMainMenu + m.scrollMainMenuDir * 15 }
      if m.scrollMainMenu < 0 then
        { m with
          keepActiveForAWhileTimer := millis
          scrollMainMenu := 0
          toBeDisactive := true
          scrollMainMenuDir := 0 }
      else m
    else m
  let m :=
    if m.toBeDisactive ∧ elapsed m.keepActiveForAWhileTimer 50 millis then
      { m with active := false, toBeDisactive := false }
    else m
  (m, called)

/-- The function that touching a tag asks the menu for: its button, or the one selected last. -/
def touches (m : MainMenuClass) (inputTag : Tag) : Option FunctionType :=
  if inputTag = .MAIN_MENU_CLOSE then some m.functionType else buttonFunction inputTag

/-- The callback only gets a function that was asked for. -/
theorem handleButtonAction_called {m : MainMenuClass} {inputTag : Tag} {f : FunctionType}
    (h : (m.handleButtonAction inputTag).2 = some f) : buttonFunction inputTag = some f := by
  unfold handleButtonAction at h
  split_ifs at h
  cases hbutton : buttonFunction inputTag with
  | none =>
      rw [hbutton] at h
      cases h
  | some g =>
      rw [hbutton] at h
      simp only [close] at h
      split_ifs at h
      rw [Option.some.inj h]

theorem render_called {m : MainMenuClass} {inputTag : Tag} {millis : ℕ} {f : FunctionType}
    (h : (m.render inputTag millis).2 = some f) :
    inputTag = .MAIN_MENU_CLOSE ∧ m.functionType = f := by
  simp only [render, close] at h
  split_ifs at h with _ hclose <;> simp_all

end MainMenuClass

/-! ## DialClass -/

/-- Whether a dial sets the source value or the limit. -/
inductive SetOrLimit
  | SET
  | LIMIT
  deriving DecidableEq, Repr

/-- `voltDecade`: the unit behind the digits, volt or ampere and their fractions. -/
inductive Decade
  | V
  | mV
  | uV
  deriving DecidableEq, Repr

def KEYBOARD_COMMA : ℕ := 11

/-- What stands on the display of a dial: its entries, each a digit or the comma, and the unit. -/
structure DialDisplay where
  dialEntries : ℕ → ℕ := fun _ => 0
  digits : ℕ := 0
  voltDecade : Decade := .mV
  negative : Bool := false

namespace DialDisplay

/-- The loop of `toMv` from entry `i` on.  After the comma the entry that follows it is read at once,
whether or not it is still on the display. -/
def toMvFrom (x : DialDisplay) : (fuel i dec : ℕ) → (sum : ℚ) → ℚ
  | 0, _, _, sum => sum
  | fuel + 1, i, dec, sum =>
      if i < x.digits then
        let (dec, i) := if x.dialEntries i = KEYBOARD_COMMA then (1, i + 1) else (dec, i)
        if dec = 0 then
          toMvFrom x fuel (i + 1) dec
            (if sum = 0 then x.dialEntries i else sum * 10 + x.dialEntries i)
        else toMvFrom x fuel (i + 1) (dec + 1) (sum + x.dialEntries i / 10 ^ dec)
      else sum

/-- The value on the display, in thousandths of volt or ampere. -/
def toMv (x : DialDisplay) : ℚ :=
  let sum := x.toMvFrom x.digits 0 0 0
  match x.voltDecade with
  | .V => sum * 1000
  | .mV => sum
  | .uV => sum / 1000

/-- How many entries follow the comma; -1 without a comma. -/
def decimalsAfterComma (x : DialDisplay) : ℤ :=
  match (List.range x.digits).find? fun i => x.dialEntries i = KEYBOARD_COMMA with
  | some i => x.digits - 1 - i
  | none => -1

end DialDisplay

/-- What `validate` finds. -/
inductive Verdict
  | ok
  | warning
  | error
  deriving DecidableEq, Repr

/-- A value printed with three decimals, and read as two numbers. -/
def numberValue (mv : ℚ) : ℤ := ⌊mv * 1000 + 1 / 2⌋ / 1000
def decimalValue (mv : ℚ) : ℤ := ⌊mv * 1000 + 1 / 2⌋ % 1000

/-- `SETTINGS.max_current_1A_range()`. -/
def max_current_1A_range : ℚ := 3300

/-- What every validation asks for first. -/
def validateDigits (x : DialDisplay) (verdict : Verdict) : Verdict :=
  if x.digits < 1 then .warning
  else if x.decimalsAfterComma = 0 then .warning
  else verdict

/-- The validation of a source voltage and of a voltage limit. -/
def validateAnyVoltage (x : DialDisplay) (mv : ℚ) : Verdict :=
  validateDigits x
    (match x.voltDecade with
    | .V => if |mv| > 30000 then .error else if x.decimalsAfterComma > 4 then .error else .ok
    | .mV => if |mv| > 30000 then .error else if x.decimalsAfterComma > 2 then .error else .ok
    | .uV =>
        if numberValue mv > 999 then .error
        else if decimalValue mv < 100 then .error
        else if x.decimalsAfterComma > 0 then .error
        else .ok)

def validateVoltage (x : DialDisplay) (mv : ℚ) : Verdict := validateAnyVoltage x mv

def validateVoltageLimit (x : DialDisplay) (mv : ℚ) : Verdict := validateAnyVoltage x mv

/-- The validation of a source current and of a current limit; they differ in how many decimals
milliamperes may have. -/
def validateAnyCurrent (x : DialDisplay) (mv : ℚ) (tooFine : Prop) [Decidable tooFine] : Verdict :=
  validateDigits x
    (match x.voltDecade with
    | .V =>
        if |mv| > max_current_1A_range then .error
        else if x.decimalsAfterComma > 4 then .error
        else .ok
    | .mV => if |mv| > max_current_1A_range then .error else if tooFine then .error else .ok
    | .uV =>
        if numberValue mv > 999 then .error
        else if x.decimalsAfterComma > 1 then .error
        else .ok)

def validateCurrent (x : DialDisplay) (mv : ℚ) : Verdict :=
  validateAnyCurrent x mv
    (x.decimalsAfterComma > 4 ∧ mv < 10 ∨ x.decimalsAfterComma > 2 ∧ mv > 10)

def validateCurrentLimit (x : DialDisplay) (mv : ℚ) : Verdict :=
  validateAnyCurrent x mv (x.decimalsAfterComma > 2)

/-- A dial.  Each of the two is opened at one place, so that `set_or_limit` is `SET` for the one and
`LIMIT` for the other; the methods get it as an argument. -/
structure DialClass where
  dialog : Bool := false
  error : Bool := false
  warning : Bool := false
  /-- The OK key was drawn, so that it can be touched. -/
  okDrawn : Bool := false
  vol_cur_type : OperationType := .SOURCE_VOLTAGE
  negative : Bool := false
  /-- The value on the display when it was validated last. -/
  mv : ℚ := 0

namespace DialClass

def open_ (d : DialClass) (type : OperationType) : DialClass :=
  { d with vol_cur_type := type, dialog := true }

def close (d : DialClass) : DialClass := { d with dialog := false }

def getMv (d : DialClass) : ℚ := if d.negative then -d.mv else d.mv

def validate (d : DialClass) (set_or_limit : SetOrLimit) (x : DialDisplay) (mv : ℚ) : Verdict :=
  match d.vol_cur_type, set_or_limit with
  | .SOURCE_VOLTAGE, .SET => validateVoltage x mv
  | .SOURCE_CURRENT, .SET => validateCurrent x mv
  -- a limit is of the other quantity than the value
  | .SOURCE_VOLTAGE, .LIMIT => validateCurrentLimit x mv
  | .SOURCE_CURRENT, .LIMIT => validateVoltageLimit x mv

/-- The callback, when it is called, gets whether the dial was cancelled. -/
def checkKeypress (d : DialClass) (inputTag : Tag) : DialClass × Option Bool :=
  if inputTag = .KEYBOARD_CANCEL ∧ d.dialog then ({ d with dialog := false }, some true)
  else if (inputTag = .KEYBOARD_OK ∧ d.okDrawn) ∧ d.dialog ∧ d.error = false then
    ({ d with dialog := false }, some false)
  else (d, none)

/-- An open dialog takes over the value on the display and draws the keypad, with the OK key if there
is neither error nor warning.  An error is only taken back by an entry that is in order. -/
def handleKeypadDialog (d : DialClass) (set_or_limit : SetOrLimit) (x : DialDisplay) : DialClass :=
  if d.dialog = false then d
  else
    let d := { d with mv := x.toMv }
    let d :=
      match d.validate set_or_limit x d.mv with
      | .ok => { d with error := false, warning := false }
      | .warning => { d with warning := true }
      | .error => { d with error := true }
    { d with okDrawn := !d.error && !d.warning }

/-- The quantity of a limit entered on the dial, as its display is labelled. -/
def limitQuantity (d : DialClass) : Quantity := d.vol_cur_type.limitQuantity

end DialClass

/-! ## FunctionPulseClass -/

structure FunctionPulseClass where
  /-- `myPulseTimer` has begun and not ended. -/
  myPulseTimer : Bool := false
  operationType : OperationType := .SOURCE_VOLTAGE
  max : ℚ := 2000
  min : ℚ := -2000
  pulseHigh : Bool := false
  hz : ℤ := 5
  knobOperation : ℕ := 0
  sinceLastPress : ℤ := 0

namespace FunctionPulseClass

/-- Starts the timer, or gives it another period. -/
def updateSamplingPeriod (c : FunctionPulseClass) : FunctionPulseClass :=
  { c with myPulseTimer := true }

def open_ (c : FunctionPulseClass) (SMU : ADCClass) (operationType : OperationType) :
    FunctionPulseClass × ADCClass :=
  let c := { c with operationType := operationType }
  let SMU := SMU.setCurrentRange .AMP1 operationType
  -- for a voltage the values of before are kept
  let c := if operationType = .SOURCE_CURRENT then { c with max := 20, min := -20 } else c
  (c.updateSamplingPeriod, SMU)

def close (c : FunctionPulseClass) : FunctionPulseClass := { c with myPulseTimer := false }

def buttonStep : OperationType → ℚ
  | .SOURCE_CURRENT => 1
  | .SOURCE_VOLTAGE => 100

/-- Steps are ten times finer around zero. -/
def stepUp (operationType : OperationType) (v : ℚ) : ℚ :=
  if operationType = .SOURCE_CURRENT ∧ v ≥ -1 ∧ v < 1 then v + 1 / 10
  else if operationType = .SOURCE_VOLTAGE ∧ v ≥ -100 ∧ v < 100 then v + 10
  else v + buttonStep operationType

def stepDown (operationType : OperationType) (v : ℚ) : ℚ :=
  if operationType = .SOURCE_CURRENT ∧ v > -1 ∧ v ≤ 1 then v - 1 / 10
  else if operationType = .SOURCE_VOLTAGE ∧ v > -100 ∧ v ≤ 100 then v - 10
  else v - buttonStep operationType

def handleButtonAction (c : FunctionPulseClass) (inputTag : Tag) (millis : ℕ) :
    FunctionPulseClass :=
  if elapsedInt c.sinceLastPress 100 millis then
    match inputTag with
    | .PULSE_BUTTON_INC =>
        let c := { c with hz := c.hz + (if c.hz < 10 then 1 else 10), sinceLastPress := wrap32 millis }
        c.updateSamplingPeriod
    | .PULSE_BUTTON_DEC =>
        let hz := c.hz - (if c.hz ≤ 10 then 1 else 10)
        let c := { c with hz := if hz < 1 then 1 else hz, sinceLastPress := wrap32 millis }
        c.updateSamplingPeriod
    | .PULSE_BUTTON_INC2 =>
        { c with min := stepUp c.operationType c.min, sinceLastPress := wrap32 millis }
    | .PULSE_BUTTON_DEC2 =>
        { c with min := stepDown c.operationType c.min, sinceLastPress := wrap32 millis }
    | .PULSE_BUTTON_INC3 =>
        { c with max := stepUp c.operationType c.max, sinceLastPress := wrap32 millis }
    | .PULSE_BUTTON_DEC3 =>
        { c with max := stepDown c.operationType c.max, sinceLastPress := wrap32 millis }
    | _ => c
  else c

def sourceVoltagePulse (c : FunctionPulseClass) (SMU : ADCClass) (high low : ℚ) :
    FunctionPulseClass × ADCClass :=
  let useDynamicRange : Bool := |low| < 4500 ∧ |high| < 4500
  if c.pulseHigh then
    ({ c with pulseHigh := false },
      SMU.fltSetCommitVoltageSource (truncate (low * 1000)) useDynamicRange)
  else
    ({ c with pulseHigh := true },
      SMU.fltSetCommitVoltageSource (truncate (high * 1000)) useDynamicRange)

def sourceCurrentPulse (c : FunctionPulseClass) (SMU : ADCClass) (high low : ℚ) :
    FunctionPulseClass × ADCClass :=
  if c.pulseHigh then
    ({ c with pulseHigh := false }, SMU.fltSetCommitCurrentSource (truncate (low * 1000)))
  else
    ({ c with pulseHigh := true }, SMU.fltSetCommitCurrentSource (truncate (high * 1000)))

/-- What the timer calls; `min` is passed for `high` and `max` for `low`. -/
def sourcePulse (c : FunctionPulseClass) (SMU : ADCClass) : FunctionPulseClass × ADCClass :=
  if c.operationType = .SOURCE_CURRENT then c.sourceCurrentPulse SMU c.min c.max
  else c.sourceVoltagePulse SMU c.min c.max

def rotaryEncChanged (c : FunctionPulseClass) (changeValue : ℚ) : FunctionPulseClass :=
  -- frequency, lower value, upper value
  if c.knobOperation = 0 then
    let hz := truncate (c.hz + changeValue * 10)
    { c with hz := if hz < 1 then 1 else hz }.updateSamplingPeriod
  else if c.knobOperation = 1 then { c with min := c.min + changeValue * 100 }
  else if c.knobOperation = 2 then { c with max := c.max + changeValue * 100 }
  else c

def rotaryEncButtonChanged (c : FunctionPulseClass) : FunctionPulseClass :=
  { c with knobOperation := if c.knobOperation > 2 then 0 else c.knobOperation + 1 }

section Effects

variable (c : FunctionPulseClass)

/-- Buttons and knob may start the timer; they never stop it. -/
theorem handleButtonAction_timer (inputTag : Tag) (millis : ℕ) :
    (c.handleButtonAction inputTag millis).myPulseTimer = c.myPulseTimer ∨
      (c.handleButtonAction inputTag millis).myPulseTimer = true := by
  unfold handleButtonAction
  by_cases hdue : elapsedInt c.sinceLastPress 100 millis = true
  · rw [if_pos hdue]
    cases inputTag <;> first
      | exact Or.inr rfl
      | exact Or.inl rfl
  · rw [if_neg hdue]
    exact Or.inl rfl

theorem handleButtonAction_operationType (inputTag : Tag) (millis : ℕ) :
    (c.handleButtonAction inputTag millis).operationType = c.operationType := by
  unfold handleButtonAction
  by_cases hdue : elapsedInt c.sinceLastPress 100 millis = true
  · rw [if_pos hdue]
    cases inputTag <;> rfl
  · rw [if_neg hdue]

theorem rotaryEncChanged_timer (changeValue : ℚ) :
    (c.rotaryEncChanged changeValue).myPulseTimer = c.myPulseTimer ∨
      (c.rotaryEncChanged changeValue).myPulseTimer = true := by
  unfold rotaryEncChanged
  split
  · exact Or.inr rfl
  · split_ifs <;> exact Or.inl rfl

/-- A pulse changes the output and which half of the period it is. -/
theorem sourcePulse_same (SMU : ADCClass) :
    (c.sourcePulse SMU).1.myPulseTimer = c.myPulseTimer ∧
      (c.sourcePulse SMU).1.operationType = c.operationType := by
  unfold sourcePulse sourceCurrentPulse sourceVoltagePulse
  simp only
  split_ifs <;> exact ⟨rfl, rfl⟩

/-- The value the next pulse commits. -/
def pulseValue : ℤ := truncate ((if c.pulseHigh then c.max else c.min) * 1000)

/-- A pulse commits its value as a source value of the pulse generator's own operation type. -/
theorem sourcePulse_commits (SMU : ADCClass) :
    (c.sourcePulse SMU).2.operationType = c.operationType ∧
      (c.sourcePulse SMU).2.setValue_micro = c.pulseValue ∧
      (c.sourcePulse SMU).2.setLimit_micro = SMU.setLimit_micro ∧
      (c.sourcePulse SMU).2.limitCommits = SMU.limitCommits := by
  unfold sourcePulse sourceCurrentPulse sourceVoltagePulse pulseValue
  cases hop : c.operationType with
  | SOURCE_VOLTAGE =>
      rw [if_neg (by decide)]
      split_ifs <;> simp
  | SOURCE_CURRENT =>
      rw [if_pos rfl]
      split_ifs <;> simp

theorem sourcePulse_valueCommits (SMU : ADCClass) :
    (c.sourcePulse SMU).2.valueCommits = SMU.valueCommits ++ [⟨c.operationType, c.pulseValue⟩] := by
  unfold sourcePulse sourceCurrentPulse sourceVoltagePulse pulseValue
  cases hop : c.operationType with
  | SOURCE_VOLTAGE =>
      rw [if_neg (by decide)]
      split_ifs <;> simp
  | SOURCE_CURRENT =>
      rw [if_pos rfl]
      split_ifs <;> simp

end Effects

end FunctionPulseClass

/-! ## FunctionSweepClass -/

structure FunctionSweepClass where
  currentSweepValue : ℚ := 0
  currentSweepDir : ℤ := 1
  operationType : OperationType := .SOURCE_VOLTAGE
  pulseTimer : ℤ := 0
  duration : ℚ := 5000
  step : ℚ := 100
  high : ℚ := 1000
  low : ℚ := -1000
  sinceLastPress2 : ℤ := 0
  lastButtonTag : Tag := .number 0
  pressDuration : ℤ := 0
  pauseBetweenChanges : ℤ := 500

namespace FunctionSweepClass

def open_ (c : FunctionSweepClass) (operationType : OperationType) (millis : ℕ) :
    FunctionSweepClass :=
  { c with pulseTimer := wrap32 millis, operationType := operationType }

/-- The time for the next value has come. -/
def due (c : FunctionSweepClass) (millis : ℕ) : Bool :=
  elapsedInt c.pulseTimer ((truncate c.duration).tdiv 2) millis

/-- The value turns round at the ends. -/
def nextValue (c : FunctionSweepClass) (millis : ℕ) : FunctionSweepClass :=
  let c := { c with pulseTimer := wrap32 millis }
  let c :=
    if c.currentSweepDir = 1 ∧ c.currentSweepValue ≥ c.high then { c with currentSweepDir := -1 }
    else if c.currentSweepDir = -1 ∧ c.currentSweepValue ≤ c.low then
      { c with currentSweepDir := 1 }
    else c
  { c with currentSweepValue := c.currentSweepValue + c.step * c.currentSweepDir }

def operateSmuVoltage (c : FunctionSweepClass) (SMU : ADCClass) (millis : ℕ) :
    FunctionSweepClass × ADCClass :=
  if c.due millis then
    let c := c.nextValue millis
    (c, SMU.fltSetCommitVoltageSource (truncate (c.currentSweepValue * 1000)) true)
  else (c, SMU)

def operateSmuCurrent (c : FunctionSweepClass) (SMU : ADCClass) (millis : ℕ) :
    FunctionSweepClass × ADCClass :=
  if c.due millis then
    let c := c.nextValue millis
    (c, SMU.fltSetCommitCurrentSource (truncate (c.currentSweepValue * 1000)))
  else (c, SMU)

def handle (c : FunctionSweepClass) (SMU : ADCClass) (millis : ℕ) :
    FunctionSweepClass × ADCClass :=
  if c.operationType = .SOURCE_VOLTAGE then c.operateSmuVoltage SMU millis
  else c.operateSmuCurrent SMU millis

/-- What a button changes. -/
def adjust (c : FunctionSweepClass) : Tag → FunctionSweepClass
  | .SWEEP_BUTTON_INC => { c with duration := c.duration + 100 }
  | .SWEEP_BUTTON_DEC => { c with duration := c.duration - 100 }
  | .SWEEP_BUTTON_STEP_INC => { c with step := c.step + 10 }
  | .SWEEP_BUTTON_STEP_DEC => { c with step := c.step - 10 }
  | .SWEEP_BUTTON_VOLT_INC => { c with high := c.high + 100, low := c.low - 100 }
  | .SWEEP_BUTTON_VOLT_DEC => { c with high := c.high - 100, low := c.low + 100 }
  | .SWEEP_BUTTON_CLEAR => { c with currentSweepValue := 0, currentSweepDir := 1 }
  | _ => c

/-- The buttons repeat, faster the longer one is held. -/
def handleButtonAction (c : FunctionSweepClass) (inputTag : Tag) (millis : ℕ) :
    FunctionSweepClass :=
  let c := if inputTag = .number 0 then { c with pressDuration := 0 } else c
  if c.lastButtonTag = inputTag ∧
      wrap32 (c.sinceLastPress2 + c.pauseBetweenChanges) > wrap32 millis then c
  else
    let pressDuration := c.pressDuration + 1
    let c := { c with
      pressDuration := pressDuration
      pauseBetweenChanges :=
        if pressDuration ≥ 15 then 50 else if pressDuration ≥ 5 then 125 else 250
      sinceLastPress2 := wrap32 millis
      lastButtonTag := inputTag }
    c.adjust inputTag

theorem adjust_operationType (c : FunctionSweepClass) (inputTag : Tag) :
    (c.adjust inputTag).operationType = c.operationType := by
  cases inputTag <;> rfl

theorem handleButtonAction_operationType (c : FunctionSweepClass) (inputTag : Tag) (millis : ℕ) :
    (c.handleButtonAction inputTag millis).operationType = c.operationType := by
  simp only [handleButtonAction]
  split_ifs <;> first
    | rfl
    | exact adjust_operationType _ _

theorem handle_operationType (c : FunctionSweepClass) (SMU : ADCClass) (millis : ℕ) :
    (c.handle SMU millis).1.operationType = c.operationType := by
  -- turning round changes the direction only
  have hnext : (c.nextValue millis).operationType = c.operationType := by
    simp only [nextValue]
    split_ifs <;> rfl
  unfold handle operateSmuVoltage operateSmuCurrent
  split_ifs
  · exact hnext
  · rfl
  · exact hnext
  · rfl

/-- A sweep that is due commits its next value, as a source value of its own operation type. -/
theorem handle_commits (c : FunctionSweepClass) (SMU : ADCClass) (millis : ℕ) :
    ¬ c.due millis = true ∧ (c.handle SMU millis).2 = SMU ∨
      c.due millis = true ∧ (c.handle SMU millis).2 =
        let v := truncate ((c.nextValue millis).currentSweepValue * 1000)
        match c.operationType with
        | .SOURCE_VOLTAGE => SMU.fltSetCommitVoltageSource v true
        | .SOURCE_CURRENT => SMU.fltSetCommitCurrentSource v := by
  unfold handle operateSmuVoltage operateSmuCurrent
  by_cases hdue : c.due millis = true
  · refine Or.inr ⟨hdue, ?_⟩
    simp only [hdue, if_true]
    cases c.operationType <;> rfl
  · refine Or.inl ⟨hdue, ?_⟩
    simp only [hdue]
    cases c.operationType <;> rfl

end FunctionSweepClass

/-! ## DigitizerClass -/

structure DigitizerClass where
  digitizeVoltage : Bool := true
  continuous : Bool := true
  triggerType : ℕ := 0
  bufferOverflow : Bool := false
  digitize : Bool := false
  allowTrigger : Bool := true
  digitizerCheckButtonTimer : ℕ := 0

namespace DigitizerClass

def updateSmuWhenVoltageCurrentFocusChange (d : DigitizerClass) (SMU : ADCClass) : ADCClass :=
  let SMU :=
    if d.digitizeVoltage then
      (SMU.enableVoltageMeasurement true).enableCurrentMeasurement false
    else (SMU.enableVoltageMeasurement false).enableCurrentMeasurement true
  SMU.updateSettings

def open_ (d : DigitizerClass) (SMU : ADCClass) : ADCClass :=
  d.updateSmuWhenVoltageCurrentFocusChange SMU

def close (d : DigitizerClass) (SMU : ADCClass) : DigitizerClass × ADCClass :=
  let SMU := (SMU.enableVoltageMeasurement true).enableCurrentMeasurement true
  let SMU := SMU.updateSettings
  ({ d with digitize := false, bufferOverflow := false }, SMU)

def loopDigitize (d : DigitizerClass) (SMU : ADCClass) (menuActive : Bool) :
    DigitizerClass × ADCClass :=
  let (d, SMU) :=
    if d.digitize = false ∧ menuActive = false then
      ({ d with digitize := true, bufferOverflow := false },
        d.updateSmuWhenVoltageCurrentFocusChange SMU)
    else (d, SMU)
  -- the flag is set by the sampling interrupt
  if d.bufferOverflow = true then ({ d with digitize := false }, SMU) else (d, SMU)

/-- The buttons of `renderGraph`: stop, trigger type, and the input to digitize. -/
def renderGraph (d : DigitizerClass) (inputTag : Tag) (menuActive : Bool) (millis : ℕ) :
    DigitizerClass :=
  if menuActive = false ∧ elapsed d.digitizerCheckButtonTimer 500 millis then
    let d := { d with digitizerCheckButtonTimer := millis }
    match inputTag with
    | .number 171 => { d with allowTrigger := !d.allowTrigger }
    | .number 172 =>
        let triggerType := if d.triggerType + 1 > 2 then 0 else d.triggerType + 1
        { d with triggerType := triggerType, continuous := triggerType = 0 }
    | .number 173 => { d with digitizeVoltage := !d.digitizeVoltage }
    | _ => d
  else d

end DigitizerClass

end FrontPanel
end PoorMansSmu
