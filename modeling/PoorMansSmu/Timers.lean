import PoorMansSmu.Program
import PoorMansSmu.Lib.Run

/-!
# Timers — which timer runs in which function

The pulse timer belongs to the pulse generator, the sampling timer to every other function, and the
digitizer captures only while it is selected.  The menu callback closes the old function and opens
the new one; the SCPI commands that source a voltage or a current select a function without doing
either.  A run keeps the timers right exactly when no such command comes while the pulse generator is
selected or a capture is under way.
-/

namespace PoorMansSmu
namespace Program

open SmuHal FrontPanel Calibration Run

/-- Each timer runs in its own functions, and a capture only in the digitizer. -/
structure TimersMatch (p : State) : Prop where
  pulse : p.FUNCTION_PULSE.myPulseTimer = true ↔ p.functionType = .SOURCE_PULSE
  normal : p.normalSamplingTimer = true ↔ p.functionType ≠ .SOURCE_PULSE
  digitize : p.DIGITIZER.digitize = true → p.functionType = .DIGITIZE

theorem timersMatch_iff (p : State) :
    TimersMatch p ↔
      ((p.FUNCTION_PULSE.myPulseTimer = true ↔ p.functionType = .SOURCE_PULSE) ∧
        (p.normalSamplingTimer = true ↔ p.functionType ≠ .SOURCE_PULSE)) ∧
      (p.DIGITIZER.digitize = true → p.functionType = .DIGITIZE) :=
  ⟨fun h => ⟨⟨h.pulse, h.normal⟩, h.digitize⟩, fun h => ⟨h.1.1, h.1.2, h.2⟩⟩

instance (p : State) : Decidable (TimersMatch p) := decidable_of_iff' _ (timersMatch_iff p)

/-- No command that sources a value comes while the pulse generator is selected or a capture is
under way. -/
def CommandFits (p : State) : Event → Prop
  | .scpi (.sourceVoltageSCPI _) =>
      p.functionType ≠ .SOURCE_PULSE ∧ p.DIGITIZER.digitize = false
  | .scpi (.sourceCurrentSCPI _) =>
      p.functionType ≠ .SOURCE_PULSE ∧ p.DIGITIZER.digitize = false
  | _ => True

/-- The timers match, and the knob adjusts the pulse timer only while that is to run. -/
structure TimerInv (p : State) : Prop extends TimersMatch p where
  knob : p.rotaryFn = .FUNCTION_PULSE_rotaryEncChanged → p.functionType = .SOURCE_PULSE

theorem SameControl.timerInv {p p' : State} (h : SameControl p p') (hp : TimerInv p) :
    TimerInv p' where
  pulse := by
    rw [h.pulseTimer, h.functionType]
    exact hp.pulse
  normal := by
    rw [h.normalSamplingTimer, h.functionType]
    exact hp.normal
  digitize := by
    rw [h.digitize, h.functionType]
    exact hp.digitize
  knob := by
    rw [h.rotaryFn, h.functionType]
    exact hp.knob

/-- The pulse generator may start its timer again while it is selected. -/
theorem TimerInv.pulse_again {p : State} (hp : TimerInv p) {c : FunctionPulseClass}
    (hc : c.myPulseTimer = p.FUNCTION_PULSE.myPulseTimer ∨ c.myPulseTimer = true)
    (hselected : p.functionType = .SOURCE_PULSE) :
    TimerInv { p with FUNCTION_PULSE := c } where
  pulse := by
    rcases hc with hc | hc
    · simp only [hc]
      exact hp.pulse
    · simp only [hc, hselected]
  normal := hp.normal
  digitize := hp.digitize
  knob := hp.knob

/-- A new state of the digitizer that captures only while it is selected. -/
theorem TimerInv.digitizer {p : State} (hp : TimerInv p) {d : DigitizerClass} {SMU : ADCClass}
    (hd : d.digitize = true → p.functionType = .DIGITIZE) :
    TimerInv { p with DIGITIZER := d, SMU := SMU } where
  pulse := hp.pulse
  normal := hp.normal
  digitize := hd
  knob := hp.knob

/-! ## The menu callback -/

/-- Every function is closed: sampling runs, no pulses, no capture, and the knob does nothing. -/
structure Closed (p : State) : Prop where
  pulse : p.FUNCTION_PULSE.myPulseTimer = false
  normal : p.normalSamplingTimer = true
  digitize : p.DIGITIZER.digitize = false
  knob : p.rotaryFn = .rotaryChangedDontCareFn

theorem closeFunction_closed {p : State} (hp : TimerInv p) : Closed (closeFunction p) := by
  have hpulse : p.functionType ≠ .SOURCE_PULSE → p.FUNCTION_PULSE.myPulseTimer = false := by
    intro hne
    exact Bool.eq_false_iff.2 fun h => hne (hp.pulse.1 h)
  have hdigitize : p.functionType ≠ .DIGITIZE → p.DIGITIZER.digitize = false := by
    intro hne
    exact Bool.eq_false_iff.2 fun h => hne (hp.digitize h)
  have hnormal := hp.normal.2
  unfold closeFunction
  cases hf : p.functionType with
  | SOURCE_PULSE => exact ⟨rfl, rfl, hdigitize (by simp [hf]), rfl⟩
  | DIGITIZE => exact ⟨hpulse (by simp [hf]), hnormal (by simp [hf]), rfl, rfl⟩
  | _ => exact ⟨hpulse (by simp [hf]), hnormal (by simp [hf]), hdigitize (by simp [hf]), rfl⟩

/-- Opening a voltage or current source starts and stops no timer. -/
theorem openDC_closed {p : State} (hp : Closed p) :
    (Closed { openDCVoltage p with rotaryFn := .rotaryChangedDontCareFn } ∧
      (openDCVoltage p).rotaryFn = .rotaryChangedVoltCurrentFn) ∧
    (Closed { openDCCurrent p with rotaryFn := .rotaryChangedDontCareFn } ∧
      (openDCCurrent p).rotaryFn = .rotaryChangedVoltCurrentFn) := by
  rw [openDCVoltage_eq, openDCCurrent_eq]
  constructor
  · exact ⟨{ hp with knob := rfl }, rfl⟩
  · exact ⟨{ hp with knob := rfl }, rfl⟩

/-- Opening a function other than the pulse generator leaves every timer as it was when all were
closed. -/
theorem openFunction_closed {p : State} (hp : Closed p) {f : FunctionType} (millis : ℕ)
    (hf : f ≠ .SOURCE_PULSE) :
    (openFunction p f millis).FUNCTION_PULSE.myPulseTimer = false ∧
      (openFunction p f millis).normalSamplingTimer = true ∧
      (openFunction p f millis).DIGITIZER.digitize = false ∧
      (openFunction p f millis).rotaryFn ≠ .FUNCTION_PULSE_rotaryEncChanged := by
  have hknob : p.rotaryFn ≠ .FUNCTION_PULSE_rotaryEncChanged := by
    rw [hp.knob]
    decide
  cases f with
  | SOURCE_PULSE => exact absurd rfl hf
  | SOURCE_DC_VOLTAGE =>
      obtain ⟨⟨h, hrotary⟩, -⟩ := openDC_closed hp
      refine ⟨h.pulse, h.normal, h.digitize, ?_⟩
      rw [openFunction, hrotary]
      decide
  | SOURCE_DC_CURRENT =>
      obtain ⟨-, h, hrotary⟩ := openDC_closed hp
      refine ⟨h.pulse, h.normal, h.digitize, ?_⟩
      rw [openFunction, hrotary]
      decide
  | DIGITIZE => exact ⟨hp.pulse, hp.normal, hp.digitize, by simp [openFunction, openDigitizer]⟩
  | DATALOGGER => exact ⟨hp.pulse, hp.normal, hp.digitize, by simp [openFunction]⟩
  | SOURCE_SWEEP => exact ⟨hp.pulse, hp.normal, hp.digitize, hknob⟩
  | GRAPH => exact ⟨hp.pulse, hp.normal, hp.digitize, hknob⟩
  | MEASURE_RESISTANCE => exact ⟨hp.pulse, hp.normal, hp.digitize, hknob⟩
  | SHOWSETTINGS => exact ⟨hp.pulse, hp.normal, hp.digitize, hknob⟩

theorem closeMainMenuCallback_timerInv {p : State} (hp : TimerInv p) (f : FunctionType)
    (millis : ℕ) : TimerInv (closeMainMenuCallback p f millis) := by
  have hclosed := closeFunction_closed hp
  unfold closeMainMenuCallback
  by_cases hf : f = .SOURCE_PULSE
  · subst hf
    have hdigitize : (openPulse (closeFunction p)).DIGITIZER.digitize = false := hclosed.digitize
    exact
      { pulse := ⟨fun _ => rfl, fun _ => rfl⟩
        normal := ⟨fun h => absurd h Bool.false_ne_true, fun h => absurd rfl h⟩
        digitize := fun h => absurd (hdigitize.symm.trans h) Bool.false_ne_true
        knob := fun _ => rfl }
  · obtain ⟨hpulse, hnormal, hdigitize, hknob⟩ := openFunction_closed hclosed millis hf
    exact
      { pulse := ⟨fun h => absurd (hpulse.symm.trans h) Bool.false_ne_true, fun h => absurd h hf⟩
        normal := ⟨fun _ => hf, fun _ => hnormal⟩
        digitize := fun h => absurd (hdigitize.symm.trans h) Bool.false_ne_true
        knob := fun h => absurd h hknob }

theorem menuCallback_timerInv {p : State} (hp : TimerInv p)
    (result : MainMenuClass × Option FunctionType) (millis : ℕ) :
    TimerInv (menuCallback p result millis) := by
  have hmenu := (sameControl_with p p.SMU { p.ui with MAINMENU := result.1 }).timerInv hp
  unfold menuCallback
  cases result.2 with
  | none => exact hmenu
  | some f => exact closeMainMenuCallback_timerInv hmenu f millis

theorem handleMenuScrolldown_timerInv {p : State} (hp : TimerInv p) (input : LoopInput) :
    TimerInv (handleMenuScrolldown p input) := by
  unfold handleMenuScrolldown
  split_ifs
  · exact (sameControl_with p p.SMU _).timerInv hp
  · exact menuCallback_timerInv hp _ _
  · exact hp

/-! ## An iteration of the main loop -/

theorem rotaryHandle_timerInv {p : State} (hp : TimerInv p) (input : LoopInput) :
    TimerInv (rotaryHandle p input) := by
  unfold rotaryHandle
  split
  · exact hp
  · split
    · exact (rotaryChangedVoltCurrentFn_same p _ input.millis).timerInv hp
    · next hknob =>
        -- the timer can be started here, and the function selected is the pulse generator
        exact hp.pulse_again (p.FUNCTION_PULSE.rotaryEncChanged_timer _) (hp.knob hknob)
    · exact hp
    · exact hp
    · exact hp

theorem operate_timerInv {p : State} (hp : TimerInv p) (input : LoopInput) :
    TimerInv (operate p input) := by
  unfold operate
  simp only
  split_ifs
  · exact { hp with }
  · exact { hp with }

theorem rangeButton_timerInv {p : State} (hp : TimerInv p) (millis : ℕ) :
    TimerInv (rangeButton p millis) := by
  unfold rangeButton
  by_cases hdue : elapsed p.ui.timeSinceLastChange 500 millis = true
  · rw [if_pos hdue]
    exact { hp with }
  · rw [if_neg hdue]
    exact hp

theorem checkButtons_timerInv {p : State} (hp : TimerInv p) (input : LoopInput) :
    TimerInv (checkButtons p input).1 := by
  unfold checkButtons
  split_ifs
  · exact hp
  · simp only
    split
    · exact (sameControl_with p p.SMU _).timerInv hp
    · exact (sameControl_with p p.SMU _).timerInv hp
    · exact rangeButton_timerInv hp input.millis
    · exact hp

theorem handleFunctionSpecifcButtonAction_timerInv {p : State} (hp : TimerInv p) (tag tag2 : Tag)
    (millis : ℕ) : TimerInv (handleFunctionSpecifcButtonAction p tag tag2 millis) := by
  unfold handleFunctionSpecifcButtonAction
  split
  · next hf =>
      exact hp.pulse_again (p.FUNCTION_PULSE.handleButtonAction_timer tag millis) hf
  · exact { hp with }
  · exact hp

theorem touchMain_timerInv {p : State} (hp : TimerInv p) (input : LoopInput) :
    TimerInv (touchMain p input) := by
  unfold touchMain
  split_ifs
  · have hmenu := menuCallback_timerInv (checkButtons_timerInv hp input)
      ((checkButtons p input).1.ui.MAINMENU.handleButtonAction input.inputTag) input.millis
    exact handleMenuScrolldown_timerInv (handleFunctionSpecifcButtonAction_timerInv hmenu _ _ _) _
  · exact handleMenuScrolldown_timerInv hp input
  · exact (renderSetingsPage_same p input).timerInv hp

theorem loopMain_timerInv {p : State} (hp : TimerInv p) (input : LoopInput) :
    TimerInv (loopMain p input) := by
  have htouch := touchMain_timerInv (operate_timerInv hp input) input
  have hbuttons := (buttonsHandle_same _ input).timerInv htouch
  exact (dialsHandle_same _ input).timerInv hbuttons

theorem loopGraph_timerInv {p : State} (hp : TimerInv p) (input : LoopInput) :
    TimerInv (loopGraph p input) := by
  have hmenu := menuCallback_timerInv (handleMenuScrolldown_timerInv hp input)
    ((handleMenuScrolldown p input).ui.MAINMENU.handleButtonAction input.inputTag) input.millis
  exact (buttonsHandle_same _ input).timerInv hmenu

/-- The buttons on the digitizer's screen start and stop nothing. -/
theorem renderGraph_digitize (d : DigitizerClass) (inputTag : Tag) (menuActive : Bool)
    (millis : ℕ) : (d.renderGraph inputTag menuActive millis).digitize = d.digitize := by
  unfold DigitizerClass.renderGraph
  split_ifs
  · simp only
    split <;> rfl
  · rfl

/-- The digitizer starts a capture only in its own part of the loop. -/
theorem loopDigitizer_timerInv {p : State} (hp : TimerInv p) (hf : p.functionType = .DIGITIZE)
    (input : LoopInput) : TimerInv (loopDigitizer p input) := by
  unfold loopDigitizer
  simp only
  generalize p.DIGITIZER.loopDigitize p.SMU p.ui.MAINMENU.active = started
  have hstarted : TimerInv { p with DIGITIZER := started.1, SMU := started.2 } :=
    hp.digitizer fun _ => hf
  have htimer : TimerInv { p with
      DIGITIZER := started.1, SMU := started.2, samplesUpdateTimer := wrap32 input.millis } :=
    { hstarted with }
  -- what follows the menu, whether or not that is active
  have hrest : ∀ q : State, TimerInv q →
      TimerInv (let q := handleMenuScrolldown (buttonsHandle q input) input
        { q with DIGITIZER :=
          q.DIGITIZER.renderGraph input.inputTag q.ui.MAINMENU.active input.millis }) := by
    intro q hq
    have hscroll := handleMenuScrolldown_timerInv ((buttonsHandle_same q input).timerInv hq) input
    refine hscroll.digitizer fun hdigitize => hscroll.digitize ?_
    rwa [renderGraph_digitize] at hdigitize
  split_ifs
  · exact hrest _ (menuCallback_timerInv htimer _ _)
  · exact hrest _ htimer
  · exact hstarted

theorem loop_timerInv {p : State} (hp : TimerInv p) (input : LoopInput) :
    TimerInv (loop p input) := by
  have hknob := rotaryHandle_timerInv hp input
  unfold loop
  simp only
  split
  · next hf => exact loopDigitizer_timerInv hknob hf input
  · exact loopGraph_timerInv hknob input
  · exact loopGraph_timerInv hknob input
  · exact loopMain_timerInv hknob input

/-! ## Runs -/

/-- A command that fits selects a source without leaving a timer or a capture behind. -/
theorem select_timerInv {p q : State} (hp : TimerInv p) (hq : SameControl p q)
    (hfits : p.functionType ≠ .SOURCE_PULSE ∧ p.DIGITIZER.digitize = false) {f : FunctionType}
    (hf : f ≠ .SOURCE_PULSE) : TimerInv { q with functionType := f } := by
  have hq' := hq.timerInv hp
  have hfunction : q.functionType ≠ .SOURCE_PULSE := by
    rw [hq.functionType]
    exact hfits.1
  exact
    { pulse := ⟨fun h => absurd (hq'.pulse.1 h) hfunction, fun h => absurd h hf⟩
      normal := ⟨fun _ => hf, fun _ => hq'.normal.2 hfunction⟩
      digitize := fun h => absurd (hfits.2.symm.trans (hq.digitize.symm.trans h)) Bool.false_ne_true
      knob := fun h => absurd (hq'.knob h) hfunction }

/-- What the two commands that source a value do before they select the function. -/
theorem sourceSCPI_same (p : State) (parameter : Option ℤ) :
    (∃ q, SameControl p q ∧
        sourceVoltageSCPI p parameter = { q with functionType := .SOURCE_DC_VOLTAGE }) ∧
      ∃ q, SameControl p q ∧
        sourceCurrentSCPI p parameter = { q with functionType := .SOURCE_DC_CURRENT } := by
  cases parameter with
  | none => exact ⟨⟨p, SameControl.refl p, rfl⟩, ⟨p, SameControl.refl p, rfl⟩⟩
  | some v =>
      refine ⟨⟨_, ?_, rfl⟩, ⟨_, ?_, rfl⟩⟩
      · exact sameControl_with p _ p.ui
      · exact (sameControl_with p _ p.ui).trans (fltCommitCurrentSourceAutoRange_same _ _ true)

theorem step_timerInv (p : State) (e : Event) (hp : TimerInv p) (hfits : CommandFits p e) :
    TimerInv (step p e) := by
  cases e with
  | scpi command =>
      cases command with
      | sourceVoltageSCPI parameter =>
          obtain ⟨⟨q, hq, heq⟩, -⟩ := sourceSCPI_same p parameter
          rw [step, scpi, heq]
          exact select_timerInv hp hq hfits (by decide)
      | sourceCurrentSCPI parameter =>
          obtain ⟨-, q, hq, heq⟩ := sourceSCPI_same p parameter
          rw [step, scpi, heq]
          exact select_timerInv hp hq hfits (by decide)
      | sourceVoltageILimitSCPI parameter =>
          cases parameter with
          | none => exact hp
          | some uA => exact (sameControl_with p _ p.ui).timerInv hp
      | sourceCurrentVLimitSCPI parameter =>
          cases parameter with
          | none => exact hp
          | some mV => exact (sameControl_with p _ p.ui).timerInv hp
  | loop input => exact loop_timerInv hp input
  | pulseTimer =>
      simp only [step]
      split_ifs
      · have hsame := (p.FUNCTION_PULSE.sourcePulse_same p.SMU).1
        refine ⟨⟨?_, hp.normal, hp.digitize⟩, hp.knob⟩
        simp only [hsame]
        exact hp.pulse
      · exact hp
  | bufferFull => exact hp.digitizer hp.digitize

/-- A command that does not fit leaves the pulse timer running, or a capture under way, in the
function it selects. -/
theorem not_timersMatch_step (p : State) (e : Event) (hp : TimerInv p)
    (hfits : ¬ CommandFits p e) : ¬ TimersMatch (step p e) := by
  have hselect : ∀ q : State, SameControl p q → ∀ f : FunctionType, f ≠ .SOURCE_PULSE →
      f ≠ .DIGITIZE → ¬ (p.functionType ≠ .SOURCE_PULSE ∧ p.DIGITIZER.digitize = false) →
      ¬ TimersMatch { q with functionType := f } := by
    intro q hq f hpulse hdigitize hnot hmatch
    rcases not_and_or.1 hnot with h | h
    · have hrunning : q.FUNCTION_PULSE.myPulseTimer = true := by
        rw [hq.pulseTimer]
        exact hp.pulse.2 (not_not.1 h)
      exact hpulse (hmatch.pulse.1 hrunning)
    · have hcapture : q.DIGITIZER.digitize = true := by
        rw [hq.digitize]
        exact Bool.eq_true_of_not_eq_false h
      exact hdigitize (hmatch.digitize hcapture)
  cases e with
  | scpi command =>
      cases command with
      | sourceVoltageSCPI parameter =>
          obtain ⟨⟨q, hq, heq⟩, -⟩ := sourceSCPI_same p parameter
          rw [step, scpi, heq]
          exact hselect q hq _ (by decide) (by decide) hfits
      | sourceCurrentSCPI parameter =>
          obtain ⟨-, q, hq, heq⟩ := sourceSCPI_same p parameter
          rw [step, scpi, heq]
          exact hselect q hq _ (by decide) (by decide) hfits
      | sourceVoltageILimitSCPI parameter => exact absurd trivial hfits
      | sourceCurrentVLimitSCPI parameter => exact absurd trivial hfits
  | loop input => exact absurd trivial hfits
  | pulseTimer => exact absurd trivial hfits
  | bufferFull => exact absurd trivial hfits

section Boot

variable (V_CALIBRATION C_CALIBRATION : DacComp) (adc : ℕ → ℕ)

theorem boot_timerInv : TimerInv (boot V_CALIBRATION C_CALIBRATION adc) where
  pulse := ⟨fun h => absurd h Bool.false_ne_true, fun h => by cases h⟩
  normal := ⟨fun _ h => (by cases h), fun _ => rfl⟩
  digitize := fun h => absurd h Bool.false_ne_true
  knob := fun h => by cases h

/-- In every run from power-up the timers always match the function exactly when no command that
sources a value comes while the pulse generator is selected or a capture is under way. -/
theorem timers_match_iff (es : List Event) :
    Always step TimersMatch (boot V_CALIBRATION C_CALIBRATION adc) es ↔
      Guarded step CommandFits (boot V_CALIBRATION C_CALIBRATION adc) es :=
  always_iff_guarded (fun _ hp => hp.toTimersMatch) step_timerInv not_timersMatch_step
    (boot_timerInv V_CALIBRATION C_CALIBRATION adc) es

end Boot

/-- Open the main menu by a gesture and wait until it has slid in. -/
def openMenu : List Event :=
  .loop { gestureDetected := true, gestureDown := true } :: List.replicate 12 (.loop {})

/-- The board with calibration values as first written, and the identity of the ADC at address 7. -/
def board : State := boot DacComp.default DacComp.default fun _ => 0x0C94

/-- The pulse generator is selected in the menu, and a voltage is sourced by a command: the pulses
go on although the function is the voltage source. -/
theorem pulses_go_on_after_command :
    ¬ Always step TimersMatch board
      (openMenu ++ [.loop { inputTag := .MENU_BUTTON_SOURCE_PULSE },
        .scpi (.sourceVoltageSCPI (some 1000))]) := by
  decide +kernel

end Program
end PoorMansSmu
