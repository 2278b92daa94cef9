import PoorMansSmu.Actions
import PoorMansSmu.RelCalibration
import PoorMansSmu.SweepBounds

/-!
# Instrument — the main program with its calibrations

In `Program` no calibration is under way.  Here the null calibration and the automatic calibrations
run beside the main program, on the same output stage, and the calibration page has its buttons.

An iteration of `loop` is cut into the calls that can commit something.  A run is a list of such
parts, in any order and with the interrupts anywhere between them; `iteration` is the order they
have in `loop`.  Without a calibration the parts of an iteration add up to `Program.loop`
(`exec_iteration`).
-/

namespace PoorMansSmu
namespace Instrument

open SmuHal FrontPanel Calibration Run
open Program (LoopInput ScpiCommand)

/-! ## State -/

/-- The main program and the calibrations.  The output stage is the program's: `calibrate` hands it
over for the time of a call. -/
structure State where
  program : Program.State
  calibration : NullCal.State
  /-- Step or limits of the sweep have been changed since power-up. -/
  sweepAdjusted : Bool := false
  /-- The levels of the pulses have been changed since power-up, other than by opening the pulse
  generator. -/
  pulseAdjusted : Bool := false

/-- What the buttons of the sweep change besides its duration. -/
def sweepSettings (c : FunctionSweepClass) : ℚ × ℚ × ℚ := (c.step, c.high, c.low)

def pulseLevels (c : FunctionPulseClass) : ℚ × ℚ := (c.max, c.min)

/-- The levels that the pulse generator sets itself when it is opened for a current. -/
def openedLevels : ℚ × ℚ := (20, -20)

namespace State

/-- The program goes on to another state, and the history notes what has been adjusted. -/
def proceed (s : State) (program : Program.State) : State :=
  { s with
    program := program
    sweepAdjusted := s.sweepAdjusted ||
      sweepSettings program.FUNCTION_SWEEP != sweepSettings s.program.FUNCTION_SWEEP
    pulseAdjusted := s.pulseAdjusted ||
      (pulseLevels program.FUNCTION_PULSE != pulseLevels s.program.FUNCTION_PULSE &&
        pulseLevels program.FUNCTION_PULSE != openedLevels) }

/-- The calibrations work on the output stage of the program. -/
def onOutput (s : State) : NullCal.State := { s.calibration with SMU := s.program.SMU }

def calibrate (s : State) (e : RelCalibration.CalEvent) : State :=
  let calibration := RelCalibration.calStep s.onOutput e
  { s with
    calibration := calibration
    program := { s.program with SMU := calibration.SMU } }

/-- What `handleAutoCurrentRange` asks for. -/
def calibrating (s : State) : Bool :=
  s.calibration.autoNullStarted ||
    (s.calibration.CALIBRATION.objects .SOURCE_VOLTAGE).autoCalInProgress ||
    (s.calibration.CALIBRATION.objects .SOURCE_CURRENT).autoCalInProgress

end State

/-! ## The calibration page -/

/-- A button of the page, with the coefficients as the button leaves them. -/
inductive CalibrationButton
  /-- A gain or an offset of the source converter. -/
  | source (V_CALIBRATION C_CALIBRATION : DacComp)
  /-- The gain of the limit converter. -/
  | limit (V_CALIBRATION : DacComp)
  | BUTTON_DAC_NONLINEAR_CALIBRATE
  | BUTTON_DAC_ZERO_CALIBRATE

/-- `handleCalibrationButtons` and what follows it in `checkButtons`, for a button that is not pressed
too fast: after an adjustment the value or the limit is committed again. -/
def State.handleCalibrationButtons (s : State) (millis : ℕ) : CalibrationButton → State
  | .source V_CALIBRATION C_CALIBRATION =>
      let SMU := { s.program.SMU with
        V_CALIBRATION := V_CALIBRATION
        C_CALIBRATION := C_CALIBRATION }
      let mv : ℚ := SMU.setValue_micro / 1000
      -- the type is the global one
      { s with program := { s.program with
          SMU := Program.commitSource SMU s.program.operationType (truncate (mv * 1000)) } }
  | .limit V_CALIBRATION =>
      match s.program.operationType with
      | .SOURCE_VOLTAGE =>
          let SMU := { s.program.SMU with V_CALIBRATION := V_CALIBRATION }
          { s with program := { s.program with
              SMU := SMU.fltSetCommitCurrentLimit SMU.setLimit_micro } }
      | .SOURCE_CURRENT => s
  | .BUTTON_DAC_NONLINEAR_CALIBRATE => s.calibrate (.startAutoCal s.program.operationType millis)
  | .BUTTON_DAC_ZERO_CALIBRATE =>
      s.calibrate (.startNullCalibration s.program.operationType millis)

/-! ## Parts -/

inductive Part
  /-- A command is executed. -/
  | scpi (command : ScpiCommand)
  | autoCalADCfromDAC (o : OperationType) (millis : ℕ)
  /-- The knob. -/
  | rotaryHandle (input : LoopInput)
  | handleAutoNull (millis : ℕ)
  /-- `loopMain` without the call of `handleAutoNull` it begins with. -/
  | loopMain (input : LoopInput)
  | loopDigitizer (input : LoopInput)
  | loopGraph (input : LoopInput)
  /-- A button of the calibration page, which acts in `loopMain`. -/
  | handleCalibrationButtons (button : CalibrationButton) (millis : ℕ)
  /-- The period of the pulse timer is over. -/
  | pulseTimer
  /-- The digitizer's buffer is full. -/
  | bufferFull
  /-- A value is measured. -/
  | handleSampling (o : OperationType) (v : ℚ)

def step (s : State) : Part → State
  | .scpi command => s.proceed (Program.scpi s.program command)
  | .autoCalADCfromDAC o millis => s.calibrate (.autoCalADCfromDAC o millis)
  | .rotaryHandle input => s.proceed (Program.rotaryHandle s.program input)
  | .handleAutoNull millis => s.calibrate (.handleAutoNull millis)
  | .loopMain input =>
      s.proceed (Program.loopMain s.program { input with calibrating := s.calibrating })
  | .loopDigitizer input => s.proceed (Program.loopDigitizer s.program input)
  | .loopGraph input => s.proceed (Program.loopGraph s.program input)
  | .handleCalibrationButtons button millis => s.handleCalibrationButtons millis button
  | .pulseTimer => s.proceed (Program.step s.program .pulseTimer)
  | .bufferFull => s.proceed (Program.step s.program .bufferFull)
  | .handleSampling o v => { s with calibration := NullCal.sample s.calibration o v }

/-- After `setup`. -/
def boot (V_CALIBRATION C_CALIBRATION : DacComp) (adc : ℕ → ℕ) (CALIBRATION : AutoCal.State) :
    State where
  program := Program.boot V_CALIBRATION C_CALIBRATION adc
  calibration := NullCal.boot (ADCClass.setup V_CALIBRATION C_CALIBRATION adc) CALIBRATION

/-! ## Iterations -/

/-- The parts of an iteration of `loop`, in their order.  A button of the calibration page comes last:
no other button has its tag, so nothing else in `loopMain` goes by it. -/
def iteration (functionType : FunctionType) (input : LoopInput)
    (button : Option CalibrationButton) : List Part :=
  .autoCalADCfromDAC .SOURCE_VOLTAGE input.millis ::
    .autoCalADCfromDAC .SOURCE_CURRENT input.millis ::
    .rotaryHandle input ::
    match functionType with
    | .DIGITIZE => [.loopDigitizer input]
    | .GRAPH => [.loopGraph input]
    | .DATALOGGER => [.loopGraph input]
    | _ =>
        [.handleAutoNull input.millis, .loopMain input] ++
          (button.map fun b => Part.handleCalibrationButtons b input.millis).toList

section Iteration

variable {s : State} (hidle : s.calibrating = false)
include hidle

theorem not_inProgress (o : OperationType) : ¬ AutoCal.InProgress s.calibration.CALIBRATION o := by
  simp only [State.calibrating, Bool.or_eq_false_iff] at hidle
  obtain ⟨⟨-, hvoltage⟩, hcurrent⟩ := hidle
  unfold AutoCal.InProgress
  cases o with
  | SOURCE_VOLTAGE => simp [hvoltage]
  | SOURCE_CURRENT => simp [hcurrent]

/-- Without a run, an automatic calibration does nothing. -/
theorem autoCalADCfromDAC_of_idle (o : OperationType) (millis : ℕ) :
    s.calibrate (.autoCalADCfromDAC o millis) = { s with calibration := s.onOutput } := by
  have hnone : ¬ AutoCal.InProgress s.onOutput.CALIBRATION o := not_inProgress hidle o
  have hsame := AutoCal.autoCalADCfromDAC_of_idle s.onOutput.CALIBRATION o millis
    (s.onOutput.FILTERS o).mean hnone
  simp only [State.calibrate, RelCalibration.calStep, RelCalibration.autoCalADCfromDAC,
    RelCalibration.Records, hnone, hsame, false_and, if_false]
  rfl

/-- And so does a null calibration that has not been started. -/
theorem handleAutoNull_of_idle (millis : ℕ) :
    s.calibrate (.handleAutoNull millis) = { s with calibration := s.onOutput } := by
  have hnone : s.onOutput.autoNullStarted = false := by
    simp only [State.calibrating, Bool.or_eq_false_iff] at hidle
    exact hidle.1.1
  simp only [State.calibrate, RelCalibration.calStep,
    NullCal.handleAutoNull_of_idle s.onOutput millis hnone]
  rfl

end Iteration

/-- A sweep keeps its value and its direction, or starts again at zero. -/
def SweepKept (c c' : FunctionSweepClass) : Prop :=
  c'.currentSweepValue = c.currentSweepValue ∧ c'.currentSweepDir = c.currentSweepDir ∨
    c'.currentSweepValue = 0 ∧ c'.currentSweepDir = 1

namespace SweepKept

theorem refl (c : FunctionSweepClass) : SweepKept c c := Or.inl ⟨rfl, rfl⟩

theorem of_eq {c c' : FunctionSweepClass} (h : c' = c) : SweepKept c c' := h ▸ refl c

theorem trans {c c' c'' : FunctionSweepClass} (h : SweepKept c c') (h' : SweepKept c' c'') :
    SweepKept c c'' := by
  rcases h' with ⟨hvalue, hdir⟩ | hzero
  · unfold SweepKept
    rw [hvalue, hdir]
    exact h
  · exact Or.inr hzero

theorem handleButtonAction (c : FunctionSweepClass) (inputTag : Tag) (millis : ℕ) :
    SweepKept c (c.handleButtonAction inputTag millis) := by
  have hadjust : ∀ d : FunctionSweepClass, SweepKept d (d.adjust inputTag) := by
    intro d
    cases inputTag with
    | SWEEP_BUTTON_CLEAR => exact Or.inr ⟨rfl, rfl⟩
    | _ => exact Or.inl ⟨rfl, rfl⟩
  have hreleased : SweepKept c
      (if inputTag = .number 0 then { c with pressDuration := 0 } else c) := by
    split_ifs
    · exact Or.inl ⟨rfl, rfl⟩
    · exact refl c
  unfold FunctionSweepClass.handleButtonAction
  simp only
  generalize (if inputTag = .number 0 then { c with pressDuration := 0 } else c) = d at hreleased
  by_cases hwait : d.lastButtonTag = inputTag ∧
      wrap32 (d.sinceLastPress2 + d.pauseBetweenChanges) > wrap32 millis
  · rw [if_pos hwait]
    exact hreleased
  · rw [if_neg hwait]
    refine hreleased.trans (trans ?_ (hadjust _))
    exact Or.inl ⟨rfl, rfl⟩

end SweepKept

section Sweep

variable (p : Program.State) (input : LoopInput)

theorem closeMainMenuCallback_sweep (f : FunctionType) (millis : ℕ) :
    SweepKept p.FUNCTION_SWEEP (Program.closeMainMenuCallback p f millis).FUNCTION_SWEEP := by
  have hclose : (Program.closeFunction p).FUNCTION_SWEEP = p.FUNCTION_SWEEP := by
    unfold Program.closeFunction
    simp only
    split <;> rfl
  unfold Program.closeMainMenuCallback
  rw [← hclose]
  generalize Program.closeFunction p = q
  cases f with
  | SOURCE_SWEEP => exact Or.inl ⟨rfl, rfl⟩
  | SOURCE_DC_VOLTAGE =>
      change SweepKept _ (Program.openDCVoltage q).FUNCTION_SWEEP
      rw [Program.openDCVoltage_eq]
      exact SweepKept.refl _
  | SOURCE_DC_CURRENT =>
      change SweepKept _ (Program.openDCCurrent q).FUNCTION_SWEEP
      rw [Program.openDCCurrent_eq]
      exact SweepKept.refl _
  | _ => exact SweepKept.refl _

theorem menuCallback_sweep (result : MainMenuClass × Option FunctionType) (millis : ℕ) :
    SweepKept p.FUNCTION_SWEEP (Program.menuCallback p result millis).FUNCTION_SWEEP := by
  unfold Program.menuCallback
  cases result.2 with
  | none => exact SweepKept.refl _
  | some f => exact closeMainMenuCallback_sweep _ f millis

theorem menuHandleButtonAction_sweep :
    SweepKept p.FUNCTION_SWEEP (Program.menuHandleButtonAction p input).FUNCTION_SWEEP :=
  menuCallback_sweep p _ _

theorem handleMenuScrolldown_sweep :
    SweepKept p.FUNCTION_SWEEP (Program.handleMenuScrolldown p input).FUNCTION_SWEEP := by
  unfold Program.handleMenuScrolldown
  split_ifs
  · exact SweepKept.refl _
  · exact menuCallback_sweep p _ _
  · exact SweepKept.refl _

theorem checkButtons_sweep :
    (Program.checkButtons p input).1.FUNCTION_SWEEP = p.FUNCTION_SWEEP := by
  have hrange : (Program.rangeButton p input.millis).FUNCTION_SWEEP = p.FUNCTION_SWEEP := by
    unfold Program.rangeButton
    by_cases hdue : elapsed p.ui.timeSinceLastChange 500 input.millis = true
    · rw [if_pos hdue]
    · rw [if_neg hdue]
  unfold Program.checkButtons
  split_ifs
  · rfl
  · simp only
    split
    · rfl
    · rfl
    · exact hrange
    · rfl

/-- Only a selected sweep gets the buttons. -/
theorem handleFunctionSpecifcButtonAction_sweep (tag tag2 : Tag) (millis : ℕ) :
    SweepKept p.FUNCTION_SWEEP
      (Program.handleFunctionSpecifcButtonAction p tag tag2 millis).FUNCTION_SWEEP := by
  have hbutton := SweepKept.handleButtonAction p.FUNCTION_SWEEP tag2 millis
  unfold Program.handleFunctionSpecifcButtonAction
  cases p.functionType with
  | SOURCE_SWEEP => exact hbutton
  | _ => exact SweepKept.refl _

theorem touchMain_sweep :
    SweepKept p.FUNCTION_SWEEP (Program.touchMain p input).FUNCTION_SWEEP := by
  unfold Program.touchMain
  split_ifs
  · refine SweepKept.trans ?_ (handleMenuScrolldown_sweep _ input)
    refine (SweepKept.of_eq (checkButtons_sweep p input)).trans ?_
    refine (menuHandleButtonAction_sweep _ input).trans ?_
    exact handleFunctionSpecifcButtonAction_sweep _ _ _ _
  · exact handleMenuScrolldown_sweep p input
  · exact SweepKept.of_eq (Program.renderSetingsPage_same p input).sweep

theorem loopMain_sweep :
    SweepKept (Program.operate p input).FUNCTION_SWEEP
      (Program.loopMain p input).FUNCTION_SWEEP := by
  unfold Program.loopMain
  simp only
  have hbuttons := (Program.buttonsHandle_same
    (Program.touchMain (Program.operate p input) input) input).sweep
  have hdials := (Program.dialsHandle_same (Program.buttonsHandle
    (Program.touchMain (Program.operate p input) input) input) input).sweep
  rw [hdials, hbuttons]
  exact touchMain_sweep _ input

theorem operate_sweep :
    (Program.operate p input).FUNCTION_SWEEP =
      if Program.SweepDue p input then p.FUNCTION_SWEEP.nextValue input.millis
      else p.FUNCTION_SWEEP := by
  unfold Program.operate
  simp only
  by_cases hsweep : p.functionType = .SOURCE_SWEEP
  · rw [if_pos hsweep]
    by_cases hdue : p.FUNCTION_SWEEP.due input.millis = true
    · have hcall : Program.SweepDue p input := ⟨hsweep, hdue⟩
      rw [if_pos hcall]
      exact (SweepBounds.handle_of_due hdue).1
    · have hcall : ¬ Program.SweepDue p input := fun h => hdue h.2
      rw [if_neg hcall]
      exact SweepBounds.handle_of_not_due hdue
  · have hcall : ¬ Program.SweepDue p input := fun h => hsweep h.1
    rw [if_neg hsweep, if_neg hcall]

theorem loopGraph_sweep :
    SweepKept p.FUNCTION_SWEEP (Program.loopGraph p input).FUNCTION_SWEEP := by
  unfold Program.loopGraph
  simp only
  rw [(Program.buttonsHandle_same _ input).sweep]
  exact (handleMenuScrolldown_sweep p input).trans (menuHandleButtonAction_sweep _ input)

theorem loopDigitizer_sweep :
    SweepKept p.FUNCTION_SWEEP (Program.loopDigitizer p input).FUNCTION_SWEEP := by
  have hrest : ∀ q : Program.State, SweepKept q.FUNCTION_SWEEP
      (Program.handleMenuScrolldown (Program.buttonsHandle q input) input).FUNCTION_SWEEP := by
    intro q
    have hbuttons := SweepKept.of_eq (Program.buttonsHandle_same q input).sweep
    exact hbuttons.trans (handleMenuScrolldown_sweep _ input)
  have hmenu : ∀ q : Program.State, q.FUNCTION_SWEEP = p.FUNCTION_SWEEP →
      SweepKept p.FUNCTION_SWEEP (Program.menuHandleButtonAction q input).FUNCTION_SWEEP :=
    fun q hq => hq ▸ menuHandleButtonAction_sweep q input
  unfold Program.loopDigitizer
  generalize p.DIGITIZER.loopDigitize p.SMU p.ui.MAINMENU.active = started
  simp only
  split_ifs
  · refine SweepKept.trans ?_ (hrest _)
    refine hmenu _ ?_
    rfl
  · exact hrest { p with
      DIGITIZER := started.1, SMU := started.2, samplesUpdateTimer := wrap32 input.millis }
  · exact SweepKept.refl _

end Sweep

/-- What a part does to the value of the sweep: `loopMain` goes on to the next value if it is due, and
otherwise the sweep is at most taken back to zero. -/
theorem step_sweep (s : State) (e : Part) :
    SweepKept s.program.FUNCTION_SWEEP (step s e).program.FUNCTION_SWEEP ∨
      ∃ input, e = .loopMain input ∧ Program.SweepDue s.program input ∧
        SweepKept (s.program.FUNCTION_SWEEP.nextValue input.millis)
          (step s e).program.FUNCTION_SWEEP := by
  cases e with
  | scpi command =>
      rcases command with ⟨_ | _⟩ | ⟨_ | _⟩ | ⟨_ | _⟩ | ⟨_ | _⟩ <;>
        exact Or.inl (SweepKept.refl _)
  | autoCalADCfromDAC o millis => exact Or.inl (SweepKept.refl _)
  | rotaryHandle input =>
      exact Or.inl (SweepKept.of_eq (Program.rotaryHandle_sweep s.program input))
  | handleAutoNull millis => exact Or.inl (SweepKept.refl _)
  | loopMain input =>
      have hkept := loopMain_sweep s.program { input with calibrating := s.calibrating }
      rw [operate_sweep] at hkept
      by_cases hdue : Program.SweepDue s.program { input with calibrating := s.calibrating }
      · rw [if_pos hdue] at hkept
        exact Or.inr ⟨input, rfl, hdue, hkept⟩
      · rw [if_neg hdue] at hkept
        exact Or.inl hkept
  | loopDigitizer input => exact Or.inl (loopDigitizer_sweep s.program input)
  | loopGraph input => exact Or.inl (loopGraph_sweep s.program input)
  | handleCalibrationButtons button millis =>
      cases button with
      | limit V_CALIBRATION =>
          simp only [step, State.handleCalibrationButtons]
          split
          · exact Or.inl (SweepKept.refl _)
          · exact Or.inl (SweepKept.refl _)
      | _ => exact Or.inl (SweepKept.refl _)
  | pulseTimer =>
      simp only [step, State.proceed, Program.step]
      split_ifs
      · exact Or.inl (SweepKept.refl _)
      · exact Or.inl (SweepKept.refl _)
  | bufferFull => exact Or.inl (SweepKept.refl _)
  | handleSampling o v => exact Or.inl (SweepKept.refl _)

end Instrument
end PoorMansSmu
