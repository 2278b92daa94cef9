import PoorMansSmu.FrontPanel

/-!
# Program — the main program

`Poormanssmu.cpp`: the globals, the handlers of SCPI commands, the callbacks of menu, dials, knob and
buttons, and `loop`.  Commands are executed at the start of an iteration of `loop` and the pulse
timer interrupts between two of them, so a run is a list of commands, iterations and interrupts.

The null calibration and the automatic calibration also commit values.  Neither is under way in the
runs of this module; `Instrument` adds both.
-/

namespace PoorMansSmu
namespace Program

open SmuHal FrontPanel Calibration

/-! ## Globals -/

/-- The function that `ROTARY_ENCODER` calls when the knob is turned. -/
inductive RotaryFn
  | rotaryChangedVoltCurrentFn
  | rotaryChangedDontCareFn
  | FUNCTION_PULSE_rotaryEncChanged
  | DIGITIZER_rotaryEncChanged
  | LOGGER_rotaryChangedFn
  deriving DecidableEq, Repr

/-- The function that `PUSHBUTTON_ENC` calls when the knob is pressed. -/
inductive ButtonFn
  | pushButtonEncInterrupt
  | pushButtonEncDontCareFn
  | FUNCTION_PULSE_rotaryEncButtonChanged
  | DIGITIZER_rotaryEncButtonChanged
  | LOGGER_rotarySwitchFn
  deriving DecidableEq, Repr

/-- What belongs to the user interface alone. -/
structure Ui where
  changeDigit : ℕ := 0
  changeDigitTimeout : ℕ := 0
  showSettings : Bool := false
  /-- Used to make sure buttons are not triggered multiple times by a single touch. -/
  timeSinceLastChange : ℕ := 0
  settingsCurrentAutoRange : ℕ := 0
  buttonFn : ButtonFn := .pushButtonEncInterrupt
  MAINMENU : MainMenuClass := {}
  SOURCE_DIAL : DialClass := {}
  LIMIT_DIAL : DialClass := {}

/-- A call of `setCurrentRange` by the range button: the operation type that was passed and the
output stage's own. -/
structure RangeCall where
  passed : OperationType
  own : OperationType
  deriving DecidableEq, Repr

structure State where
  SMU : ADCClass
  operationType : OperationType
  functionType : FunctionType
  /-- `normalSamplingTimer` has begun and not ended. -/
  normalSamplingTimer : Bool
  rotaryFn : RotaryFn
  FUNCTION_PULSE : FunctionPulseClass
  FUNCTION_SWEEP : FunctionSweepClass
  DIGITIZER : DigitizerClass
  samplesUpdateTimer : ℤ
  ui : Ui
  /-- Every call of `setCurrentRange` by the range button, in order. -/
  rangeCalls : List RangeCall

/-- What one iteration of `loop` finds at its inputs. -/
structure LoopInput where
  millis : ℕ := 0
  /-- What the encoder makes of a turn of the knob. -/
  rotary : Option ℚ := none
  inputTag : Tag := .number 0
  /-- `checkButtons` takes the touch for a press: it has lasted and stayed in place. -/
  pressed : Bool := false
  gestureDetected : Bool := false
  /-- The gesture is a move down from the upper edge. -/
  gestureDown : Bool := false
  /-- The key of a push button that was pressed shortly. -/
  pushButton : Option ℕ := none
  encoderButton : Bool := false
  /-- What stands on the display of an open dial, keys and knob of this iteration included. -/
  display : DialDisplay := {}
  /-- `C_STATS.rawValue`. -/
  milliAmpere : ℚ := 0
  /-- `GD.inputs.track_val`. -/
  track_val : ℕ := 0
  /-- A null calibration or an automatic calibration is under way. -/
  calibrating : Bool := false

/-- The commands that set something. -/
inductive ScpiCommand
  | sourceVoltageSCPI (parameter : Option ℤ)
  | sourceCurrentSCPI (parameter : Option ℤ)
  | sourceVoltageILimitSCPI (parameter : Option ℤ)
  | sourceCurrentVLimitSCPI (parameter : Option ℤ)
  deriving DecidableEq, Repr

def getOperationType (functionType : FunctionType) : OperationType :=
  if functionType = .SOURCE_DC_CURRENT then .SOURCE_CURRENT else .SOURCE_VOLTAGE

/-- `SETTINGS`, in micro-units. -/
def setMilliVoltage : ℤ := 1234500
def setCurrentLimit : ℤ := 33000
def setMilliAmpere : ℤ := 13000
def setVoltageLimit : ℤ := 5432100

/-! ## User interface -/

namespace Ui

def anyDialogOpen (u : Ui) : Bool := u.SOURCE_DIAL.dialog || u.LIMIT_DIAL.dialog

def closeAllOpenDialogs (u : Ui) : Ui :=
  { u with SOURCE_DIAL := u.SOURCE_DIAL.close, LIMIT_DIAL := u.LIMIT_DIAL.close }

def openMainMenu (u : Ui) : Ui :=
  let u := if u.anyDialogOpen then u.closeAllOpenDialogs else u
  { u with MAINMENU := u.MAINMENU.open_ }

def houseKeeping (u : Ui) (millis : ℕ) : Ui :=
  if u.changeDigit > 0 ∧ elapsed u.changeDigitTimeout 5000 millis then { u with changeDigit := 0 }
  else u

def pushButtonEncInterrupt (u : Ui) (millis : ℕ) : Ui :=
  let changeDigit :=
    if u.changeDigit = 0 then 1000000
    else if u.changeDigit = 10000000 then 1000000
    else if u.changeDigit = 1000000 then 100000
    else if u.changeDigit = 100000 then 10000
    else if u.changeDigit = 10000 then 1000
    else if u.changeDigit = 1000 then 0
    else u.changeDigit
  { u with changeDigitTimeout := millis, changeDigit := changeDigit }

def pushButtonInterrupt (u : Ui) (key : ℕ) : Ui :=
  if key = 1 ∧ u.MAINMENU.active = false then u.openMainMenu
  else if key = 4 then { u with showSettings := !u.showSettings }
  else u

end Ui

/-! ## Commits -/

def useVoltageFeedback (p : State) : State := { p with SMU := p.SMU.setGpio 0 false }

def useCurrentFeedback (p : State) : State := { p with SMU := p.SMU.setGpio 0 true }

def fltCommitCurrentSourceAutoRange (p : State) (uV : ℤ) (autoRange : Bool) : State :=
  let SMU :=
    if autoRange then
      if |uV| < 8000 then p.SMU.setCurrentRange .MILLIAMP10 p.operationType
      else p.SMU.setCurrentRange .AMP1 p.operationType
    else p.SMU
  { p with SMU := SMU.fltSetCommitCurrentSource uV }

def closeSourceDCCallback (p : State) (set_or_limit : SetOrLimit) (cancel : Bool) : State :=
  if cancel then p
  else
    match set_or_limit with
    | .SET =>
        let mv := p.ui.SOURCE_DIAL.getMv
        -- the type of now, not the one the dial was opened for
        match p.operationType with
        | .SOURCE_VOLTAGE =>
            { p with SMU := p.SMU.fltSetCommitVoltageSource (truncate (mv * 1000)) true }
        | .SOURCE_CURRENT => fltCommitCurrentSourceAutoRange p (truncate (mv * 1000)) false
    | .LIMIT =>
        let mv := p.ui.LIMIT_DIAL.getMv
        let limit : Micro := ⟨truncate (mv * 1000), p.ui.LIMIT_DIAL.limitQuantity⟩
        match p.operationType with
        | .SOURCE_VOLTAGE => { p with SMU := p.SMU.fltSetCommitCurrentLimit limit }
        | .SOURCE_CURRENT => { p with SMU := p.SMU.fltSetCommitVoltageLimit limit }

/-- A digit is selected, or the source dial is open: a turn of the knob is taken. -/
def turnCommits (u : Ui) : Bool := u.changeDigit ≠ 0 && !u.anyDialogOpen

/-- The value a turn of the knob leads to. -/
def turnedValue (p : State) (changeVal : ℚ) : ℤ :=
  let changeVal :=
    if p.operationType = .SOURCE_CURRENT ∧ p.SMU.current_range = .MILLIAMP10 then changeVal / 100
    else changeVal
  let change_uV := truncate (changeVal * p.ui.changeDigit)
  p.SMU.setValue_micro + change_uV

/-- While a dial is open a turn changes at most the digits on its display. -/
def rotaryChangedVoltCurrentFn (p : State) (changeVal : ℚ) (millis : ℕ) : State :=
  let commits := turnCommits p.ui
  let p := { p with ui := { p.ui with changeDigitTimeout := millis } }
  if commits then
    -- no bound is checked
    let new_uV := turnedValue p changeVal
    match p.operationType with
    | .SOURCE_VOLTAGE => { p with SMU := p.SMU.fltSetCommitVoltageSource new_uV true }
    | .SOURCE_CURRENT => fltCommitCurrentSourceAutoRange p new_uV false
  else p

/-! ## SCPI commands -/

def sourceVoltageSCPI (p : State) (parameter : Option ℤ) : State :=
  let p :=
    match parameter with
    | some mv =>
        let p := useVoltageFeedback p
        { p with SMU := p.SMU.fltSetCommitVoltageSource (wrap32 (mv * 1000)) true }
    | none => p
  { p with functionType := .SOURCE_DC_VOLTAGE }

def sourceCurrentSCPI (p : State) (parameter : Option ℤ) : State :=
  let p :=
    match parameter with
    | some uA =>
        let p := useCurrentFeedback p
        -- the parameter is in microamperes already
        fltCommitCurrentSourceAutoRange p (uA * 1000) true
    | none => p
  { p with functionType := .SOURCE_DC_CURRENT }

def sourceVoltageILimitSCPI (p : State) (parameter : Option ℤ) : State :=
  match parameter with
  | some uA => { p with SMU := p.SMU.fltSetCommitCurrentLimit ⟨uA, .microAmpere⟩ }
  | none => p

def sourceCurrentVLimitSCPI (p : State) (parameter : Option ℤ) : State :=
  match parameter with
  | some mV => { p with SMU := p.SMU.fltSetCommitVoltageLimit ⟨mV, .microVolt⟩ }
  | none => p

def scpi (p : State) : ScpiCommand → State
  | .sourceVoltageSCPI parameter => sourceVoltageSCPI p parameter
  | .sourceCurrentSCPI parameter => sourceCurrentSCPI p parameter
  | .sourceVoltageILimitSCPI parameter => sourceVoltageILimitSCPI p parameter
  | .sourceCurrentVLimitSCPI parameter => sourceCurrentVLimitSCPI p parameter

/-! ## The menu callback -/

/-- Close the function that was selected so far. -/
def closeFunction (p : State) : State :=
  let p := { p with
    rotaryFn := .rotaryChangedDontCareFn
    ui := { p.ui with buttonFn := .pushButtonEncDontCareFn } }
  match p.functionType with
  | .SOURCE_PULSE =>
      { p with FUNCTION_PULSE := p.FUNCTION_PULSE.close, normalSamplingTimer := true }
  | .DIGITIZE =>
      let (DIGITIZER, SMU) := p.DIGITIZER.close p.SMU
      { p with DIGITIZER := DIGITIZER, SMU := SMU }
  | .SOURCE_DC_CURRENT => { p with ui := { p.ui with changeDigit := 0 } }
  | .SOURCE_DC_VOLTAGE => { p with ui := { p.ui with changeDigit := 0 } }
  | _ => p

/-- Open the pulse generator: its timer takes the place of the sampling timer. -/
def openPulse (p : State) : State :=
  let (FUNCTION_PULSE, SMU) := p.FUNCTION_PULSE.open_ p.SMU p.operationType
  { p with
    rotaryFn := .FUNCTION_PULSE_rotaryEncChanged
    ui := { p.ui with buttonFn := .FUNCTION_PULSE_rotaryEncButtonChanged }
    normalSamplingTimer := false
    FUNCTION_PULSE := FUNCTION_PULSE
    SMU := SMU }

def openDigitizer (p : State) : State :=
  { p with
    rotaryFn := .DIGITIZER_rotaryEncChanged
    ui := { p.ui with buttonFn := .DIGITIZER_rotaryEncButtonChanged }
    SMU := p.DIGITIZER.open_ p.SMU }

/-- Source voltage: the same value again, or a predefined one after sourcing current. -/
def openDCVoltage (p : State) : State :=
  let p := { p with
    rotaryFn := .rotaryChangedVoltCurrentFn
    ui := { p.ui with buttonFn := .pushButtonEncInterrupt } }
  let p := useVoltageFeedback p
  if p.SMU.operationType = .SOURCE_VOLTAGE then
    -- the output stage knows what it sourced last
    let SMU := p.SMU.fltSetCommitVoltageSource p.SMU.setValue_micro true
    { p with SMU := SMU.fltSetCommitCurrentLimit SMU.setLimit_micro }
  else
    let SMU := p.SMU.fltSetCommitVoltageSource setMilliVoltage true
    { p with SMU := SMU.fltSetCommitCurrentLimit ⟨setCurrentLimit, .microAmpere⟩ }

/-- Source current: the same value again, or a predefined one after sourcing voltage. -/
def openDCCurrent (p : State) : State :=
  let p := { p with
    rotaryFn := .rotaryChangedVoltCurrentFn
    ui := { p.ui with buttonFn := .pushButtonEncInterrupt } }
  let p := useCurrentFeedback p
  if p.SMU.operationType = .SOURCE_CURRENT then
    let p := fltCommitCurrentSourceAutoRange p p.SMU.setValue_micro true
    { p with SMU := p.SMU.fltSetCommitVoltageLimit p.SMU.setLimit_micro }
  else
    let p := fltCommitCurrentSourceAutoRange p setMilliAmpere true
    { p with SMU := p.SMU.fltSetCommitVoltageLimit ⟨setVoltageLimit, .microVolt⟩ }

/-- Open the function that is selected now. -/
def openFunction (p : State) (newFunctionType : FunctionType) (millis : ℕ) : State :=
  match newFunctionType with
  | .SOURCE_PULSE => openPulse p
  | .SOURCE_SWEEP =>
      { p with FUNCTION_SWEEP := p.FUNCTION_SWEEP.open_ p.operationType millis }
  | .DIGITIZE => openDigitizer p
  | .SOURCE_DC_VOLTAGE => openDCVoltage p
  | .SOURCE_DC_CURRENT => openDCCurrent p
  | .DATALOGGER =>
      { p with
        rotaryFn := .LOGGER_rotaryChangedFn
        ui := { p.ui with buttonFn := .LOGGER_rotarySwitchFn } }
  | .SHOWSETTINGS => { p with ui := { p.ui with showSettings := true } }
  | .GRAPH => p
  | .MEASURE_RESISTANCE => p

def closeMainMenuCallback (p : State) (newFunctionType : FunctionType) (millis : ℕ) : State :=
  let p := closeFunction p
  let p := openFunction p newFunctionType millis
  { p with functionType := newFunctionType }

/-- Take over the menu, and call the callback with what it is called with. -/
def menuCallback (p : State) (result : MainMenuClass × Option FunctionType) (millis : ℕ) : State :=
  let p := { p with ui := { p.ui with MAINMENU := result.1 } }
  match result.2 with
  | some f => closeMainMenuCallback p f millis
  | none => p

def handleMenuScrolldown (p : State) (input : LoopInput) : State :=
  if input.gestureDown ∧ p.ui.MAINMENU.active = false then { p with ui := p.ui.openMainMenu }
  else if p.ui.MAINMENU.active then
    menuCallback p (p.ui.MAINMENU.render input.inputTag input.millis) input.millis
  else p

def menuHandleButtonAction (p : State) (input : LoopInput) : State :=
  menuCallback p (p.ui.MAINMENU.handleButtonAction input.inputTag) input.millis

/-! ## Buttons, knob and dials -/

/-- `ROTARY_ENCODER.handle`. -/
def rotaryHandle (p : State) (input : LoopInput) : State :=
  match input.rotary with
  | none => p
  | some value =>
      match p.rotaryFn with
      | .rotaryChangedVoltCurrentFn => rotaryChangedVoltCurrentFn p value input.millis
      | .FUNCTION_PULSE_rotaryEncChanged =>
          { p with FUNCTION_PULSE := p.FUNCTION_PULSE.rotaryEncChanged value }
      | .rotaryChangedDontCareFn => p
      | .DIGITIZER_rotaryEncChanged => p
      | .LOGGER_rotaryChangedFn => p

/-- `PUSHBUTTONS.handle` and `PUSHBUTTON_ENC.handle`. -/
def buttonsHandle (p : State) (input : LoopInput) : State :=
  let p :=
    match input.pushButton with
    | some key => { p with ui := p.ui.pushButtonInterrupt key }
    | none => p
  if input.encoderButton then
    match p.ui.buttonFn with
    | .pushButtonEncInterrupt => { p with ui := p.ui.pushButtonEncInterrupt input.millis }
    | .FUNCTION_PULSE_rotaryEncButtonChanged =>
        { p with FUNCTION_PULSE := p.FUNCTION_PULSE.rotaryEncButtonChanged }
    | .pushButtonEncDontCareFn => p
    | .DIGITIZER_rotaryEncButtonChanged => p
    | .LOGGER_rotarySwitchFn => p
  else p

/-- Swap the current range. -/
def rangeButton (p : State) (millis : ℕ) : State :=
  if elapsed p.ui.timeSinceLastChange 500 millis then
    let currentRange : CurrentRange :=
      if p.SMU.current_range = .AMP1 then .MILLIAMP10 else .AMP1
    { p with
      ui := { p.ui with timeSinceLastChange := millis }
      SMU := p.SMU.setCurrentRange currentRange p.operationType
      rangeCalls := p.rangeCalls ++ [RangeCall.mk p.operationType p.SMU.operationType] }
  else p

/-- The tag the buttons of the functions get is 0 unless a press was taken. -/
def checkButtons (p : State) (input : LoopInput) : State × Tag :=
  if p.ui.MAINMENU.active ∨ input.pressed = false then (p, .number 0)
  else
    let p :=
      match input.inputTag with
      | .BUTTON_SOURCE_SET =>
          { p with ui := { p.ui with SOURCE_DIAL := p.ui.SOURCE_DIAL.open_ p.operationType } }
      | .BUTTON_LIM_SET =>
          { p with ui := { p.ui with LIMIT_DIAL := p.ui.LIMIT_DIAL.open_ p.operationType } }
      | .BUTTON_CUR_AUTO => rangeButton p input.millis
      | _ => p
    (p, input.inputTag)

def handleFunctionSpecifcButtonAction (p : State) (tag tag2 : Tag) (millis : ℕ) : State :=
  match p.functionType with
  | .SOURCE_PULSE => { p with FUNCTION_PULSE := p.FUNCTION_PULSE.handleButtonAction tag millis }
  | .SOURCE_SWEEP => { p with FUNCTION_SWEEP := p.FUNCTION_SWEEP.handleButtonAction tag2 millis }
  | _ => p

/-- The switches of the settings page that matter here: automatic range, voltage only, close. -/
def renderSetingsPage (p : State) (input : LoopInput) : State :=
  match input.inputTag with
  | .number 43 =>
      { p with ui := { p.ui with
          settingsCurrentAutoRange := if input.track_val > 30000 then 65535 else 0 } }
  | .number 46 =>
      let current : Bool := !(input.track_val > 30000)
      { p with SMU := (p.SMU.enableCurrentMeasurement current).enableVoltageMeasurement true }
  | .number 244 => { p with ui := { p.ui with showSettings := false } }
  | _ => p

/-- What the callback of a dial is called with, if it is called. -/
def dialCallback (p : State) (set_or_limit : SetOrLimit) : Option Bool → State
  | some cancel => closeSourceDCCallback p set_or_limit cancel
  | none => p

/-- The sign shown on the displays. -/
def readSigns (p : State) (x : DialDisplay) : State :=
  { p with ui := { p.ui with
      SOURCE_DIAL := { p.ui.SOURCE_DIAL with negative := x.negative }
      LIMIT_DIAL := { p.ui.LIMIT_DIAL with negative := x.negative } } }

/-- The dial that is open, the source dial first. -/
def dialsHandle (p : State) (input : LoopInput) : State :=
  let p := readSigns p input.display
  if p.ui.SOURCE_DIAL.dialog then
    let (d, called) := p.ui.SOURCE_DIAL.checkKeypress input.inputTag
    let p := dialCallback p .SET called
    { p with ui := { p.ui with SOURCE_DIAL := d.handleKeypadDialog .SET input.display } }
  else if p.ui.LIMIT_DIAL.dialog then
    let (d, called) := p.ui.LIMIT_DIAL.checkKeypress input.inputTag
    let p := dialCallback p .LIMIT called
    { p with ui := { p.ui with LIMIT_DIAL := d.handleKeypadDialog .LIMIT input.display } }
  else p

/-! ## The main loop -/

/-- The first half of `loopMain`: what does not depend on a touch. -/
def operate (p : State) (input : LoopInput) : State :=
  -- the one place where the type is derived
  let p := { p with operationType := getOperationType p.functionType }
  let p := { p with ui := p.ui.houseKeeping input.millis }
  let p := { p with
    SMU := p.SMU.handleAutoCurrentRange (p.ui.settingsCurrentAutoRange ≥ 10000) input.calibrating
      input.milliAmpere }
  if p.functionType = .SOURCE_SWEEP then
    let (FUNCTION_SWEEP, SMU) := p.FUNCTION_SWEEP.handle p.SMU input.millis
    { p with FUNCTION_SWEEP := FUNCTION_SWEEP, SMU := SMU }
  else p

/-- The touch screen in `loopMain`. -/
def touchMain (p : State) (input : LoopInput) : State :=
  if p.ui.showSettings = false then
    let p :=
      if input.gestureDetected = false then
        let (p, tag) := checkButtons p input
        let p := menuHandleButtonAction p input
        handleFunctionSpecifcButtonAction p tag input.inputTag input.millis
      else p
    handleMenuScrolldown p input
  else renderSetingsPage p input

def loopMain (p : State) (input : LoopInput) : State :=
  let p := operate p input
  let p := touchMain p input
  let p := buttonsHandle p input
  dialsHandle p input

/-- The part of `loop` for the digitizer. -/
def loopDigitizer (p : State) (input : LoopInput) : State :=
  let (DIGITIZER, SMU) := p.DIGITIZER.loopDigitize p.SMU p.ui.MAINMENU.active
  let p := { p with DIGITIZER := DIGITIZER, SMU := SMU }
  if (!p.DIGITIZER.digitize || !p.DIGITIZER.allowTrigger || !p.DIGITIZER.continuous) &&
      (wrap32 input.millis > wrap32 (p.samplesUpdateTimer + 100) || p.ui.MAINMENU.active) then
    let p := { p with samplesUpdateTimer := wrap32 input.millis }
    -- the menu key acts first, then the buttons, then the menu itself
    let p := if p.ui.MAINMENU.active then menuHandleButtonAction p input else p
    let p := buttonsHandle p input
    let p := handleMenuScrolldown p input
    { p with
      DIGITIZER := p.DIGITIZER.renderGraph input.inputTag p.ui.MAINMENU.active input.millis }
  else p

/-- The part of `loop` for the trend graph and for the logger. -/
def loopGraph (p : State) (input : LoopInput) : State :=
  let p := handleMenuScrolldown p input
  let p := menuHandleButtonAction p input
  buttonsHandle p input

def loop (p : State) (input : LoopInput) : State :=
  let p := rotaryHandle p input
  match p.functionType with
  | .DIGITIZE => loopDigitizer p input
  | .GRAPH => loopGraph p input
  | .DATALOGGER => loopGraph p input
  | _ => loopMain p input

/-! ## Runs -/

inductive Event
  /-- A command is executed. -/
  | scpi (command : ScpiCommand)
  /-- An iteration of `loop`. -/
  | loop (input : LoopInput)
  /-- The period of the pulse timer is over. -/
  | pulseTimer
  /-- The digitizer's buffer is full. -/
  | bufferFull

def step (p : State) : Event → State
  | .scpi command => scpi p command
  | .loop input => loop p input
  | .pulseTimer =>
      if p.FUNCTION_PULSE.myPulseTimer then
        let (FUNCTION_PULSE, SMU) := p.FUNCTION_PULSE.sourcePulse p.SMU
        { p with FUNCTION_PULSE := FUNCTION_PULSE, SMU := SMU }
      else p
  | .bufferFull => { p with DIGITIZER := { p.DIGITIZER with bufferOverflow := true } }

/-- The state after `setup`. -/
def boot (V_CALIBRATION C_CALIBRATION : DacComp) (adc : ℕ → ℕ) : State where
  SMU := ADCClass.setup V_CALIBRATION C_CALIBRATION adc
  operationType := .SOURCE_VOLTAGE
  functionType := .SOURCE_DC_VOLTAGE
  normalSamplingTimer := true
  rotaryFn := .rotaryChangedVoltCurrentFn
  FUNCTION_PULSE := {}
  FUNCTION_SWEEP := {}
  DIGITIZER := {}
  samplesUpdateTimer := 0
  ui := {}
  rangeCalls := []

/-! ## What a function leaves alone

Most functions only change the user interface and the output stage. -/

/-- The globals besides user interface, output stage and sampling are the same. -/
structure SameControl (p p' : State) : Prop where
  functionType : p'.functionType = p.functionType
  operationType : p'.operationType = p.operationType
  normalSamplingTimer : p'.normalSamplingTimer = p.normalSamplingTimer
  rotaryFn : p'.rotaryFn = p.rotaryFn
  pulseTimer : p'.FUNCTION_PULSE.myPulseTimer = p.FUNCTION_PULSE.myPulseTimer
  pulseType : p'.FUNCTION_PULSE.operationType = p.FUNCTION_PULSE.operationType
  sweep : p'.FUNCTION_SWEEP = p.FUNCTION_SWEEP
  digitize : p'.DIGITIZER.digitize = p.DIGITIZER.digitize
  rangeCalls : p'.rangeCalls = p.rangeCalls

theorem SameControl.refl (p : State) : SameControl p p :=
  ⟨rfl, rfl, rfl, rfl, rfl, rfl, rfl, rfl, rfl⟩

theorem SameControl.trans {p q r : State} (h : SameControl p q) (h' : SameControl q r) :
    SameControl p r :=
  ⟨h'.functionType.trans h.functionType, h'.operationType.trans h.operationType,
    h'.normalSamplingTimer.trans h.normalSamplingTimer, h'.rotaryFn.trans h.rotaryFn,
    h'.pulseTimer.trans h.pulseTimer, h'.pulseType.trans h.pulseType,
    h'.sweep.trans h.sweep, h'.digitize.trans h.digitize,
    h'.rangeCalls.trans h.rangeCalls⟩

/-- Only user interface and output stage change. -/
theorem sameControl_with (p : State) (SMU : ADCClass) (ui : Ui) :
    SameControl p { p with SMU := SMU, ui := ui } :=
  ⟨rfl, rfl, rfl, rfl, rfl, rfl, rfl, rfl, rfl⟩

section Effects

variable (p : State)

theorem fltCommitCurrentSourceAutoRange_same (uV : ℤ) (autoRange : Bool) :
    SameControl p (fltCommitCurrentSourceAutoRange p uV autoRange) :=
  sameControl_with p _ p.ui

/-- Every current committed makes current the output stage's type. -/
theorem fltCommitCurrentSourceAutoRange_operationType (uV : ℤ) (autoRange : Bool) :
    (fltCommitCurrentSourceAutoRange p uV autoRange).SMU.operationType = .SOURCE_CURRENT := by
  unfold fltCommitCurrentSourceAutoRange
  simp

theorem fltCommitCurrentSourceAutoRange_setLimit (uV : ℤ) (autoRange : Bool) :
    (fltCommitCurrentSourceAutoRange p uV autoRange).SMU.setLimit_micro =
      p.SMU.setLimit_micro := by
  unfold fltCommitCurrentSourceAutoRange
  simp only [ADCClass.currentSource_setLimit]
  split_ifs <;> simp

theorem fltCommitCurrentSourceAutoRange_setValue (uV : ℤ) (autoRange : Bool) :
    (fltCommitCurrentSourceAutoRange p uV autoRange).SMU.setValue_micro = uV := by
  unfold fltCommitCurrentSourceAutoRange
  rw [ADCClass.currentSource_setValue]

/-- Besides the output stage, opening a voltage source changes knob and button only. -/
theorem openDCVoltage_eq :
    openDCVoltage p = { p with
      SMU := (openDCVoltage p).SMU
      rotaryFn := .rotaryChangedVoltCurrentFn
      ui := { p.ui with buttonFn := .pushButtonEncInterrupt } } := by
  unfold openDCVoltage
  simp only
  split_ifs <;> rfl

/-- What was sourced before is committed again, or else the predefined value and limit. -/
theorem openDCVoltage_SMU :
    (openDCVoltage p).SMU =
      if p.SMU.operationType = .SOURCE_VOLTAGE then
        ((p.SMU.setGpio 0 false).fltSetCommitVoltageSource p.SMU.setValue_micro
          true).fltSetCommitCurrentLimit p.SMU.setLimit_micro
      else
        ((p.SMU.setGpio 0 false).fltSetCommitVoltageSource setMilliVoltage
          true).fltSetCommitCurrentLimit ⟨setCurrentLimit, .microAmpere⟩ := by
  unfold openDCVoltage useVoltageFeedback
  simp only [ADCClass.setGpio_operationType, ADCClass.setGpio_setValue,
    ADCClass.voltageSource_setLimit, ADCClass.setGpio_setLimit]
  split_ifs <;> rfl

theorem openDCCurrent_eq :
    openDCCurrent p = { p with
      SMU := (openDCCurrent p).SMU
      rotaryFn := .rotaryChangedVoltCurrentFn
      ui := { p.ui with buttonFn := .pushButtonEncInterrupt } } := by
  unfold openDCCurrent
  simp only
  split_ifs <;> rfl

theorem openDCCurrent_SMU :
    (openDCCurrent p).SMU =
      if p.SMU.operationType = .SOURCE_CURRENT then
        (fltCommitCurrentSourceAutoRange (useCurrentFeedback p) p.SMU.setValue_micro
          true).SMU.fltSetCommitVoltageLimit p.SMU.setLimit_micro
      else
        (fltCommitCurrentSourceAutoRange (useCurrentFeedback p) setMilliAmpere
          true).SMU.fltSetCommitVoltageLimit ⟨setVoltageLimit, .microVolt⟩ := by
  unfold openDCCurrent useCurrentFeedback
  simp only [ADCClass.setGpio_operationType, ADCClass.setGpio_setValue,
    fltCommitCurrentSourceAutoRange_setLimit, ADCClass.setGpio_setLimit]
  split_ifs <;> rfl

theorem closeSourceDCCallback_same (set_or_limit : SetOrLimit) (cancel : Bool) :
    SameControl p (closeSourceDCCallback p set_or_limit cancel) := by
  unfold closeSourceDCCallback
  split_ifs
  · exact SameControl.refl p
  · cases set_or_limit with
    | SET =>
        simp only
        split
        · exact sameControl_with p _ p.ui
        · -- a source current is committed without a change of the range
          exact fltCommitCurrentSourceAutoRange_same p _ false
    | LIMIT =>
        simp only
        split
        · exact sameControl_with p _ p.ui
        · exact sameControl_with p _ p.ui

theorem rotaryChangedVoltCurrentFn_same (changeVal : ℚ) (millis : ℕ) :
    SameControl p (rotaryChangedVoltCurrentFn p changeVal millis) := by
  have hui : SameControl p { p with ui := { p.ui with changeDigitTimeout := millis } } :=
    sameControl_with p p.SMU _
  unfold rotaryChangedVoltCurrentFn
  -- the time of the turn is noted whether or not it is taken
  by_cases hcommits : turnCommits p.ui = true
  · simp only [hcommits, if_true]
    split
    · exact sameControl_with p _ _
    · exact hui.trans (fltCommitCurrentSourceAutoRange_same _ _ false)
  · simp only [hcommits]
    exact hui

theorem dialCallback_same (set_or_limit : SetOrLimit) (called : Option Bool) :
    SameControl p (dialCallback p set_or_limit called) := by
  cases called with
  | none => exact SameControl.refl p
  | some cancel => exact closeSourceDCCallback_same p set_or_limit cancel

theorem dialsHandle_same (input : LoopInput) : SameControl p (dialsHandle p input) := by
  have hsigns : SameControl p (readSigns p input.display) := sameControl_with p p.SMU _
  unfold dialsHandle
  generalize readSigns p input.display = q at hsigns
  simp only
  split_ifs
  · exact (hsigns.trans (dialCallback_same q _ _)).trans (sameControl_with _ _ _)
  · exact (hsigns.trans (dialCallback_same q _ _)).trans (sameControl_with _ _ _)
  · exact hsigns

theorem buttonsHandle_same (input : LoopInput) : SameControl p (buttonsHandle p input) := by
  have hpush : ∀ ui : Ui, SameControl p { p with ui := ui } := sameControl_with p p.SMU
  unfold buttonsHandle
  cases input.pushButton with
  | none =>
      simp only
      split_ifs
      · split
        · exact hpush _
        · exact ⟨rfl, rfl, rfl, rfl, rfl, rfl, rfl, rfl, rfl⟩
        · exact SameControl.refl p
        · exact SameControl.refl p
        · exact SameControl.refl p
      · exact SameControl.refl p
  | some key =>
      simp only
      split_ifs
      · split
        · exact hpush _
        · exact ⟨rfl, rfl, rfl, rfl, rfl, rfl, rfl, rfl, rfl⟩
        · exact hpush _
        · exact hpush _
        · exact hpush _
      · exact hpush _

theorem renderSetingsPage_same (input : LoopInput) :
    SameControl p (renderSetingsPage p input) := by
  unfold renderSetingsPage
  split
  · exact sameControl_with p p.SMU _
  · exact sameControl_with p _ p.ui
  · exact sameControl_with p p.SMU _
  · exact SameControl.refl p

end Effects

end Program
end PoorMansSmu
