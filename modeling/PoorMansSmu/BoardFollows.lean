import PoorMansSmu.Actions
import PoorMansSmu.CommitWords
import PoorMansSmu.Lib.Run

/-!
# BoardFollows — the board is where the program believes it to be

The program never reads back what it has written.  It goes by the members of the output stage: the
range, the value and the limit that were set last.  Commands, keys, knob, menu, sweep and pulse
timer all reach the board through the methods of `ADCClass`, so what each method keeps is kept by
the whole program (`KeptByCalls.step`).

With that: relay and converters follow the members (`board_follows`).

- The relay is in the range that the members name, on either wire.
- The source converter puts out the set value, to within half a step.
- The limit converter puts out the last limit that was committed, to within half a step.

A change of the range by the operation type of the main program may leave the converter of the other
type behind, so a current stands there as one of the two ranges codes it.  A voltage has no range.
-/

namespace PoorMansSmu
namespace Program

open SmuHal FrontPanel Calibration Hardware Ltc2758 RangeSwitch CommitWords Run

/-! ## The rule -/

/-- A property of the output stage that every method keeps which the program calls. -/
structure KeptByCalls (P : ADCClass → Prop) : Prop where
  voltageSource : ∀ s v dynamicRange, P s → P (s.fltSetCommitVoltageSource v dynamicRange)
  currentSource : ∀ s v, P s → P (s.fltSetCommitCurrentSource v)
  voltageLimit : ∀ s limit, P s → P (s.fltSetCommitVoltageLimit limit)
  currentLimit : ∀ s limit, P s → P (s.fltSetCommitCurrentLimit limit)
  setCurrentRange : ∀ s range operationType, P s → P (s.setCurrentRange range operationType)
  setGpio : ∀ s on, P s → P (s.setGpio 0 on)
  enableVoltage : ∀ s enable, P s → P (s.enableVoltageMeasurement enable)
  enableCurrent : ∀ s enable, P s → P (s.enableCurrentMeasurement enable)
  updateSettings : ∀ s, P s → P s.updateSettings

namespace KeptByCalls

theorem and {P Q : ADCClass → Prop} (h : KeptByCalls P) (h' : KeptByCalls Q) :
    KeptByCalls fun s => P s ∧ Q s where
  voltageSource := fun s v dynamicRange hs =>
    ⟨h.voltageSource s v dynamicRange hs.1, h'.voltageSource s v dynamicRange hs.2⟩
  currentSource := fun s v hs => ⟨h.currentSource s v hs.1, h'.currentSource s v hs.2⟩
  voltageLimit := fun s limit hs => ⟨h.voltageLimit s limit hs.1, h'.voltageLimit s limit hs.2⟩
  currentLimit := fun s limit hs => ⟨h.currentLimit s limit hs.1, h'.currentLimit s limit hs.2⟩
  setCurrentRange := fun s range operationType hs =>
    ⟨h.setCurrentRange s range operationType hs.1, h'.setCurrentRange s range operationType hs.2⟩
  setGpio := fun s on hs => ⟨h.setGpio s on hs.1, h'.setGpio s on hs.2⟩
  enableVoltage := fun s enable hs =>
    ⟨h.enableVoltage s enable hs.1, h'.enableVoltage s enable hs.2⟩
  enableCurrent := fun s enable hs =>
    ⟨h.enableCurrent s enable hs.1, h'.enableCurrent s enable hs.2⟩
  updateSettings := fun s hs => ⟨h.updateSettings s hs.1, h'.updateSettings s hs.2⟩

variable {P : ADCClass → Prop} (h : KeptByCalls P)
include h

theorem commitSource {s : ADCClass} (hs : P s) (o : OperationType) (v : ℤ) :
    P (commitSource s o v) := by
  cases o with
  | SOURCE_VOLTAGE => exact h.voltageSource s v true hs
  | SOURCE_CURRENT => exact h.currentSource s v hs

theorem handleAutoCurrentRange {s : ADCClass} (hs : P s) (enabled calibrating : Bool)
    (milliAmpere : ℚ) : P (s.handleAutoCurrentRange enabled calibrating milliAmpere) := by
  refine s.handleAutoCurrentRange_keeps (P := P) (fun s range hs => ?_) enabled calibrating
    milliAmpere hs
  have hswitched := h.setCurrentRange s range s.operationType hs
  unfold ADCClass.autoSwitch
  simp only
  split_ifs
  · exact h.currentLimit _ _ hswitched
  · exact hswitched

/-! ### Functions of the front panel -/

theorem updateSmu (d : DigitizerClass) {s : ADCClass} (hs : P s) :
    P (d.updateSmuWhenVoltageCurrentFocusChange s) := by
  unfold DigitizerClass.updateSmuWhenVoltageCurrentFocusChange
  simp only
  split_ifs
  · exact h.updateSettings _ (h.enableCurrent _ _ (h.enableVoltage _ _ hs))
  · exact h.updateSettings _ (h.enableCurrent _ _ (h.enableVoltage _ _ hs))

theorem loopDigitize (d : DigitizerClass) {s : ADCClass} (hs : P s) (menuActive : Bool) :
    P (d.loopDigitize s menuActive).2 := by
  unfold DigitizerClass.loopDigitize
  by_cases hstart : d.digitize = false ∧ menuActive = false
  · rw [if_pos hstart]
    simp only
    split
    · exact h.updateSmu d hs
    · exact h.updateSmu d hs
  · rw [if_neg hstart]
    simp only
    split
    · exact hs
    · exact hs

theorem sourcePulse (c : FunctionPulseClass) {s : ADCClass} (hs : P s) :
    P (c.sourcePulse s).2 := by
  unfold FunctionPulseClass.sourcePulse FunctionPulseClass.sourceCurrentPulse
    FunctionPulseClass.sourceVoltagePulse
  simp only
  split_ifs
  · exact h.currentSource s _ hs
  · exact h.currentSource s _ hs
  · exact h.voltageSource s _ _ hs
  · exact h.voltageSource s _ _ hs

/-! ### Commits of the main program -/

theorem fltCommitCurrentSourceAutoRange {p : State} (hp : P p.SMU) (uV : ℤ) (autoRange : Bool) :
    P (Program.fltCommitCurrentSourceAutoRange p uV autoRange).SMU := by
  unfold Program.fltCommitCurrentSourceAutoRange
  refine h.currentSource _ uV ?_
  split_ifs
  · exact h.setCurrentRange _ _ _ hp
  · exact h.setCurrentRange _ _ _ hp
  · exact hp

theorem closeSourceDCCallback {p : State} (hp : P p.SMU) (set_or_limit : SetOrLimit)
    (cancel : Bool) : P (Program.closeSourceDCCallback p set_or_limit cancel).SMU := by
  unfold Program.closeSourceDCCallback
  split_ifs
  · exact hp
  · cases set_or_limit with
    | SET =>
        simp only
        split
        · exact h.voltageSource _ _ true hp
        · exact h.fltCommitCurrentSourceAutoRange hp _ false
    | LIMIT =>
        simp only
        split
        · exact h.currentLimit _ _ hp
        · exact h.voltageLimit _ _ hp

theorem rotaryHandle {p : State} (hp : P p.SMU) (input : LoopInput) :
    P (Program.rotaryHandle p input).SMU := by
  unfold Program.rotaryHandle
  cases input.rotary with
  | none => exact hp
  | some value =>
      simp only
      split
      · unfold rotaryChangedVoltCurrentFn
        simp only
        split_ifs
        · split
          · exact h.voltageSource _ _ true hp
          · exact h.fltCommitCurrentSourceAutoRange hp _ false
        · exact hp
      · exact hp
      · exact hp
      · exact hp
      · exact hp

/-! ### The menu -/

theorem closeFunction {p : State} (hp : P p.SMU) : P (Program.closeFunction p).SMU := by
  unfold Program.closeFunction
  simp only
  split
  · exact hp
  · exact h.updateSettings _ (h.enableCurrent _ _ (h.enableVoltage _ _ hp))
  · exact hp
  · exact hp
  · exact hp

theorem openFunction {p : State} (hp : P p.SMU) (f : FunctionType) (millis : ℕ) :
    P (Program.openFunction p f millis).SMU := by
  cases f with
  | SOURCE_PULSE => exact h.setCurrentRange p.SMU .AMP1 p.operationType hp
  | DIGITIZE => exact h.updateSmu p.DIGITIZER hp
  | SOURCE_DC_VOLTAGE =>
      change P (openDCVoltage p).SMU
      rw [openDCVoltage_SMU]
      have hfeedback := h.setGpio p.SMU false hp
      split_ifs
      · exact h.currentLimit _ _ (h.voltageSource _ _ true hfeedback)
      · exact h.currentLimit _ _ (h.voltageSource _ _ true hfeedback)
  | SOURCE_DC_CURRENT =>
      change P (openDCCurrent p).SMU
      rw [openDCCurrent_SMU]
      have hfeedback : P (useCurrentFeedback p).SMU := h.setGpio p.SMU true hp
      split_ifs
      · exact h.voltageLimit _ _ (h.fltCommitCurrentSourceAutoRange hfeedback _ true)
      · exact h.voltageLimit _ _ (h.fltCommitCurrentSourceAutoRange hfeedback _ true)
  | SOURCE_SWEEP => exact hp
  | MEASURE_RESISTANCE => exact hp
  | SHOWSETTINGS => exact hp
  | GRAPH => exact hp
  | DATALOGGER => exact hp

theorem closeMainMenuCallback {p : State} (hp : P p.SMU) (f : FunctionType) (millis : ℕ) :
    P (Program.closeMainMenuCallback p f millis).SMU :=
  h.openFunction (h.closeFunction hp) f millis

theorem menuCallback {p : State} (hp : P p.SMU) (result : MainMenuClass × Option FunctionType)
    (millis : ℕ) : P (Program.menuCallback p result millis).SMU := by
  unfold Program.menuCallback
  have hmenu : P ({ p with ui := { p.ui with MAINMENU := result.1 } } : State).SMU := hp
  cases result.2 with
  | none => exact hmenu
  | some f => exact h.closeMainMenuCallback hmenu f millis

theorem menuHandleButtonAction {p : State} (hp : P p.SMU) (input : LoopInput) :
    P (Program.menuHandleButtonAction p input).SMU :=
  h.menuCallback hp _ input.millis

theorem handleMenuScrolldown {p : State} (hp : P p.SMU) (input : LoopInput) :
    P (Program.handleMenuScrolldown p input).SMU := by
  unfold Program.handleMenuScrolldown
  split_ifs
  · exact hp
  · exact h.menuCallback hp _ input.millis
  · exact hp

/-! ### Buttons, settings and dials -/

omit h in
/-- The push buttons reach the user interface and the pulse generator only. -/
theorem buttonsHandle_SMU (p : State) (input : LoopInput) :
    (Program.buttonsHandle p input).SMU = p.SMU := by
  have hpushed : ∀ q : State, q.SMU = p.SMU →
      (Program.buttonsHandle q { input with pushButton := none }).SMU = p.SMU := by
    intro q hq
    unfold Program.buttonsHandle
    simp only
    split_ifs
    · split <;> exact hq
    · exact hq
  cases hkey : input.pushButton with
  | none =>
      have heq : input = { input with pushButton := none } := by rw [← hkey]
      rw [heq]
      exact hpushed p rfl
  | some key =>
      have heq : Program.buttonsHandle p input =
          Program.buttonsHandle { p with ui := p.ui.pushButtonInterrupt key }
            { input with pushButton := none } := by
        unfold Program.buttonsHandle
        rw [hkey]
      rw [heq]
      exact hpushed _ rfl

omit h in
theorem buttonsHandle {p : State} (hp : P p.SMU) (input : LoopInput) :
    P (Program.buttonsHandle p input).SMU := by
  rw [buttonsHandle_SMU]
  exact hp

theorem checkButtons {p : State} (hp : P p.SMU) (input : LoopInput) :
    P (Program.checkButtons p input).1.SMU := by
  unfold Program.checkButtons
  split_ifs
  · exact hp
  · simp only
    split
    · exact hp
    · exact hp
    · unfold rangeButton
      by_cases hdue : elapsed p.ui.timeSinceLastChange 500 input.millis = true
      · rw [if_pos hdue]
        exact h.setCurrentRange _ _ _ hp
      · rw [if_neg hdue]
        exact hp
    · exact hp

omit h in
theorem handleFunctionSpecifcButtonAction_SMU (p : State) (tag tag2 : Tag) (millis : ℕ) :
    (Program.handleFunctionSpecifcButtonAction p tag tag2 millis).SMU = p.SMU := by
  unfold Program.handleFunctionSpecifcButtonAction
  split <;> rfl

theorem renderSetingsPage {p : State} (hp : P p.SMU) (input : LoopInput) :
    P (Program.renderSetingsPage p input).SMU := by
  unfold Program.renderSetingsPage
  split
  · exact hp
  · exact h.enableVoltage _ true (h.enableCurrent _ _ hp)
  · exact hp
  · exact hp

theorem dialCallback {p : State} (hp : P p.SMU) (set_or_limit : SetOrLimit)
    (called : Option Bool) : P (Program.dialCallback p set_or_limit called).SMU := by
  cases called with
  | none => exact hp
  | some cancel => exact h.closeSourceDCCallback hp set_or_limit cancel

theorem dialsHandle {p : State} (hp : P p.SMU) (input : LoopInput) :
    P (Program.dialsHandle p input).SMU := by
  have hsigns : P (readSigns p input.display).SMU := hp
  unfold Program.dialsHandle
  generalize readSigns p input.display = q at hsigns
  simp only
  split_ifs
  · exact h.dialCallback hsigns .SET _
  · exact h.dialCallback hsigns .LIMIT _
  · exact hsigns

/-! ### An iteration -/

theorem operate {p : State} (hp : P p.SMU) (input : LoopInput) :
    P (Program.operate p input).SMU := by
  have hranged : P (autoRanged p input) :=
    h.handleAutoCurrentRange hp _ input.calibrating input.milliAmpere
  rcases (operate_operated p input).SMU with ⟨-, heq⟩ | ⟨-, heq⟩
  · rw [heq]
    exact hranged
  · rw [heq]
    exact h.commitSource hranged _ _

theorem touchMain {p : State} (hp : P p.SMU) (input : LoopInput) :
    P (Program.touchMain p input).SMU := by
  unfold Program.touchMain
  split_ifs
  · refine h.handleMenuScrolldown ?_ input
    rw [handleFunctionSpecifcButtonAction_SMU]
    exact h.menuHandleButtonAction (h.checkButtons hp input) input
  · exact h.handleMenuScrolldown hp input
  · exact h.renderSetingsPage hp input

theorem loopDigitizer {p : State} (hp : P p.SMU) (input : LoopInput) :
    P (Program.loopDigitizer p input).SMU := by
  have hstart := h.loopDigitize p.DIGITIZER hp p.ui.MAINMENU.active
  unfold Program.loopDigitizer
  generalize p.DIGITIZER.loopDigitize p.SMU p.ui.MAINMENU.active = started at hstart
  have hfrom : ∀ q : State, q.SMU = started.2 → P q.SMU := fun q hq => hq ▸ hstart
  simp only
  split_ifs
  · change P (Program.handleMenuScrolldown _ input).SMU
    exact h.handleMenuScrolldown
      (buttonsHandle (h.menuHandleButtonAction (hfrom _ rfl) input) input) input
  · change P (Program.handleMenuScrolldown _ input).SMU
    exact h.handleMenuScrolldown (buttonsHandle (hfrom _ rfl) input) input
  · exact hstart

theorem loopGraph {p : State} (hp : P p.SMU) (input : LoopInput) :
    P (Program.loopGraph p input).SMU :=
  buttonsHandle (h.menuHandleButtonAction (h.handleMenuScrolldown hp input) input) input

theorem loop {p : State} (hp : P p.SMU) (input : LoopInput) : P (Program.loop p input).SMU := by
  have hturned := h.rotaryHandle hp input
  unfold Program.loop
  generalize Program.rotaryHandle p input = q at hturned
  simp only
  split
  · exact h.loopDigitizer hturned input
  · exact h.loopGraph hturned input
  · exact h.loopGraph hturned input
  · exact h.dialsHandle (buttonsHandle (h.touchMain (h.operate hturned input) input) input) input

theorem scpi {p : State} (hp : P p.SMU) (command : ScpiCommand) :
    P (Program.scpi p command).SMU := by
  cases command with
  | sourceVoltageSCPI parameter =>
      cases parameter with
      | none => exact hp
      | some mv => exact h.voltageSource _ _ true (h.setGpio _ false hp)
  | sourceCurrentSCPI parameter =>
      cases parameter with
      | none => exact hp
      | some uA =>
          have hfeedback : P (useCurrentFeedback p).SMU := h.setGpio _ true hp
          exact h.fltCommitCurrentSourceAutoRange hfeedback (uA * 1000) true
  | sourceVoltageILimitSCPI parameter =>
      cases parameter with
      | none => exact hp
      | some uA => exact h.currentLimit _ _ hp
  | sourceCurrentVLimitSCPI parameter =>
      cases parameter with
      | none => exact hp
      | some mV => exact h.voltageLimit _ _ hp

/-- What every method keeps, every step of the program keeps. -/
theorem step {p : State} (hp : P p.SMU) (e : Event) : P (Program.step p e).SMU := by
  cases e with
  | scpi command => exact h.scpi hp command
  | loop input => exact h.loop hp input
  | pulseTimer =>
      simp only [Program.step]
      split_ifs
      · exact h.sourcePulse p.FUNCTION_PULSE hp
      · exact hp
  | bufferFull => exact hp

/-- And every run. -/
theorem always {p : State} (hp : P p.SMU) (es : List Event) :
    Always Program.step (fun q => P q.SMU) p es :=
  always_of_step (I := fun q : State => P q.SMU) (fun _ e hq => h.step hq e) hp es

end KeptByCalls

/-! ## What stands on a converter -/

/-- The code of the words stands on the converter, in the span that they select. -/
structure Carries (d : Dac) (w : Words) : Prop where
  low : w.DAC_RANGE_LOW = d.span.scale.lo
  high : w.DAC_RANGE_HIGH = d.span.scale.hi
  code : d.code = w.v_adj

/-- The converter puts out a voltage to within half a step, and what it cannot put out at the end of
its span.  Within reach there is no end. -/
structure Puts (reach : Set ℚ) (d : Dac) (u : ℚ) : Prop where
  close : |d.voltage - d.span.scale.clamp u| ≤ d.step / 2
  inside : u ∈ reach → d.span.scale.clamp u = u

theorem carries_sentTo {reach : Set ℚ} {w : Words} (h : Accurate reach w) (d : Dac) :
    Carries (w.sentTo d) w := by
  obtain ⟨span, hlow, hhigh, hsent⟩ := h.span
  obtain ⟨hspan, hcode⟩ := hsent d
  refine ⟨?_, ?_, hcode⟩
  · rw [hspan, hlow]
  · rw [hspan, hhigh]

theorem Carries.puts {reach : Set ℚ} {d : Dac} {w : Words} (h : Carries d w)
    (hw : Accurate reach w) : Puts reach d w.dac_voltage := by
  constructor
  case close =>
    have hcode : (d.code : ℤ) = d.span.scale.code w.dac_voltage := by
      rw [h.code, Words.v_adj, h.low, h.high, LTC2758_voltage_to_code_eq]
    unfold Dac.voltage Dac.step
    rw [hcode]
    exact d.span.scale.abs_value_code_sub_le w.dac_voltage
  case inside =>
    intro hu
    obtain ⟨hlow, hhigh⟩ := hw.contains hu
    rw [h.low] at hlow
    rw [h.high] at hhigh
    exact d.span.scale.clamp_of_mem hlow hhigh

/-! ## The members and the board -/

/-- What is sent for the set value. -/
def sourceWords (s : ADCClass) (range : CurrentRange) (dynamicRange : Bool) : Words :=
  match s.operationType with
  | .SOURCE_VOLTAGE => voltageSourceWords s.V_CALIBRATION s.setValue_micro dynamicRange
  | .SOURCE_CURRENT => currentSourceWords s.C_CALIBRATION range s.setValue_micro

/-- What is sent for a limit. -/
def limitWords (s : ADCClass) (range : CurrentRange) (c : LimitCommit) : Words :=
  match c.kind with
  | .microVolt => voltageLimitWords c.value.val
  | .microAmpere => currentLimitWords s.V_CALIBRATION range c.value.val

/-- The voltage of the set value at the source converter, which is inverted. -/
def sourceVolts (s : ADCClass) (range : CurrentRange) : ℚ :=
  match s.operationType with
  | .SOURCE_VOLTAGE => -voltageSourceVolts s.V_CALIBRATION s.setValue_micro
  | .SOURCE_CURRENT => currentSourceVolts s.C_CALIBRATION range s.setValue_micro

/-- The voltage of a limit at the limit converter. -/
def committedVolts (s : ADCClass) (range : CurrentRange) (c : LimitCommit) : ℚ :=
  match c.kind with
  | .microVolt => voltageLimitVolts c.value.val
  | .microAmpere => currentLimitVolts s.V_CALIBRATION range c.value.val

/-- The relay is in the range of the members, both outputs that it may hang on included. -/
structure RelayFollows (s : ADCClass) : Prop where
  gpio1 : s.gpio1 = decide (s.current_range = .AMP1)
  pin4 : s.hw.pin4 = s.gpio1
  output : s.hw.gpio1 = s.gpio1

/-- The set value stands on the source converter. -/
def SourceFollows (s : ADCClass) : Prop :=
  ∃ range dynamicRange, Carries s.hw.sourceDac (sourceWords s range dynamicRange)

/-- The limit committed last stands on the limit converter, and in the members. -/
def LimitFollows (s : ADCClass) : Prop :=
  ∃ range c, s.limitCommits.getLast? = some c ∧ c.value = s.setLimit_micro ∧
    Carries s.hw.limitDac (limitWords s range c)

/-- The board is where the members of the output stage have it. -/
structure Follows (s : ADCClass) : Prop where
  relay : ∀ wire, relayRange wire s.hw = s.current_range
  source : ∃ range, Puts sourceReach s.hw.sourceDac (sourceVolts s range)
  limit : ∃ range c, s.limitCommits.getLast? = some c ∧ c.value = s.setLimit_micro ∧
    Puts limitReach s.hw.limitDac (committedVolts s range c)

theorem sourceWords_accurate (s : ADCClass) (range : CurrentRange) (dynamicRange : Bool) :
    Accurate sourceReach (sourceWords s range dynamicRange) := by
  unfold sourceWords
  cases s.operationType with
  | SOURCE_VOLTAGE => exact voltageSourceWords_accurate _ _ _
  | SOURCE_CURRENT => exact currentSourceWords_accurate _ _ _

theorem sourceWords_dac_voltage (s : ADCClass) (range : CurrentRange) (dynamicRange : Bool) :
    (sourceWords s range dynamicRange).dac_voltage = sourceVolts s range := by
  unfold sourceWords sourceVolts
  cases s.operationType with
  | SOURCE_VOLTAGE =>
      simp only [voltageSourceWords]
      split_ifs <;> rfl
  | SOURCE_CURRENT =>
      simp only [currentSourceWords]
      split_ifs <;> rfl

theorem limitWords_accurate' (s : ADCClass) (range : CurrentRange) (c : LimitCommit) :
    Accurate limitReach (limitWords s range c) ∧
      (limitWords s range c).dac_voltage = committedVolts s range c := by
  unfold limitWords committedVolts
  cases c.kind with
  | microVolt => exact ⟨limitWords_accurate _, rfl⟩
  | microAmpere => exact ⟨limitWords_accurate _, rfl⟩

theorem follows {s : ADCClass} (hrelay : RelayFollows s) (hsource : SourceFollows s)
    (hlimit : LimitFollows s) : Follows s := by
  constructor
  case relay =>
    have hlevel : ∀ level, level = s.gpio1 →
        (if level then CurrentRange.AMP1 else .MILLIAMP10) = s.current_range := by
      intro level hl
      rw [hl, hrelay.gpio1]
      cases s.current_range <;> rfl
    intro wire
    cases wire with
    | pin4 => exact hlevel _ hrelay.pin4
    | gpio1 => exact hlevel _ hrelay.output
  case source =>
    obtain ⟨range, dynamicRange, hcarries⟩ := hsource
    have hputs := hcarries.puts (sourceWords_accurate s range dynamicRange)
    rw [sourceWords_dac_voltage] at hputs
    exact ⟨range, hputs⟩
  case limit =>
    obtain ⟨range, c, hlast, hvalue, hcarries⟩ := hlimit
    obtain ⟨haccurate, hvolts⟩ := limitWords_accurate' s range c
    have hputs := hcarries.puts haccurate
    rw [hvolts] at hputs
    exact ⟨range, c, hlast, hvalue, hputs⟩

/-! ## The methods -/

section Methods

variable (s : ADCClass)

theorem voltageSource_sourceFollows (v : ℤ) (dynamicRange : Bool) :
    SourceFollows (s.fltSetCommitVoltageSource v dynamicRange) := by
  have hdac : (s.fltSetCommitVoltageSource v dynamicRange).hw.sourceDac =
      (voltageSourceWords s.V_CALIBRATION v dynamicRange).sentTo s.hw.sourceDac := by
    unfold ADCClass.fltSetCommitVoltageSource voltageSourceWords
    simp only
    split_ifs <;> rfl
  refine ⟨.AMP1, dynamicRange, ?_⟩
  rw [hdac]
  exact carries_sentTo (voltageSourceWords_accurate s.V_CALIBRATION v dynamicRange) _

theorem currentSource_sourceFollows (v : ℤ) : SourceFollows (s.fltSetCommitCurrentSource v) := by
  have hdac : (s.fltSetCommitCurrentSource v).hw.sourceDac =
      (currentSourceWords s.C_CALIBRATION s.current_range v).sentTo s.hw.sourceDac := by
    unfold ADCClass.fltSetCommitCurrentSource currentSourceWords
    simp only
    split_ifs <;> rfl
  refine ⟨s.current_range, false, ?_⟩
  rw [hdac]
  exact carries_sentTo (currentSourceWords_accurate s.C_CALIBRATION s.current_range v) _

theorem voltageLimit_limitFollows (limit : Micro) :
    LimitFollows (s.fltSetCommitVoltageLimit limit) :=
  ⟨.AMP1, ⟨.microVolt, limit⟩, List.getLast?_concat .., rfl,
    carries_sentTo (limitWords_accurate (voltageLimitVolts limit.val)) s.hw.limitDac⟩

theorem currentLimit_limitFollows (limit : Micro) :
    LimitFollows (s.fltSetCommitCurrentLimit limit) :=
  ⟨s.current_range, ⟨.microAmpere, limit⟩, List.getLast?_concat .., rfl,
    carries_sentTo
      (limitWords_accurate (currentLimitVolts s.V_CALIBRATION s.current_range limit.val))
      s.hw.limitDac⟩

/-- The second output is at the level that the members have for it, whichever output is set. -/
theorem setGpio_output (nr : ℕ) (on : Bool) :
    (s.setGpio nr on).hw.gpio1 = (s.setGpio nr on).gpio1 := by
  have hnibble := low_nibble_and (s.hw.adc ADCClass.gpioReadAddress)
  have hbit : ∀ b level, (b / 2 % 2 = 1 ↔ level = true) →
      ((s.hw.adc ADCClass.gpioReadAddress &&& 0xfff0) + b).testBit 1 = level := by
    intro b level hb
    rw [Bool.eq_iff_iff, ← hb, Nat.testBit_succ, Nat.testBit_zero, decide_eq_true_iff]
    omega
  unfold ADCClass.setGpio
  simp only
  split_ifs <;> split <;> rename_i hlevel₀ hlevel₁ <;>
    exact (hbit _ _ (by decide)).trans hlevel₁.symm

/-- A switch sets both wires of the relay, wherever they were. -/
theorem setCurrentRange_relayFollows (range : CurrentRange) (operationType : OperationType) :
    RelayFollows (s.setCurrentRange range operationType) := by
  cases range with
  | AMP1 =>
      have houtput := setGpio_output
        (({ s with current_range := .AMP1 } : ADCClass).write (.digitalWrite4 true)) 1 true
      cases operationType with
      | SOURCE_VOLTAGE => exact ⟨rfl, rfl, houtput⟩
      | SOURCE_CURRENT => exact ⟨rfl, rfl, houtput⟩
  | MILLIAMP10 =>
      let s' : ADCClass := { s with current_range := .MILLIAMP10 }
      cases operationType with
      | SOURCE_VOLTAGE =>
          have houtput := setGpio_output
            ((s'.fltSetCommitCurrentLimit s.setLimit_micro).write (.digitalWrite4 false)) 1 false
          exact ⟨rfl, rfl, houtput⟩
      | SOURCE_CURRENT =>
          have houtput := setGpio_output
            ((s'.fltSetCommitCurrentSource s.setValue_micro).write (.digitalWrite4 false)) 1 false
          exact ⟨rfl, rfl, houtput⟩

/-- The choice of the inputs writes to the ADC only, and not to its outputs. -/
theorem updateSettings_eq :
    ∃ adc sent, s.updateSettings = { s with hw := { s.hw with adc := adc }, sent := sent } ∧
      adc 0x06 = s.hw.adc 0x06 := by
  unfold ADCClass.updateSettings ADCClass.updateSettingsWrites
  split_ifs
  · exact ⟨_, _, rfl, rfl⟩
  · exact ⟨_, _, rfl, rfl⟩
  · exact ⟨_, _, rfl, rfl⟩
  · exact ⟨_, _, rfl, rfl⟩

end Methods

theorem relayFollows_kept : KeptByCalls RelayFollows where
  voltageSource := fun _ _ _ h => ⟨h.gpio1, h.pin4, h.output⟩
  currentSource := fun _ _ h => ⟨h.gpio1, h.pin4, h.output⟩
  voltageLimit := fun _ _ h => ⟨h.gpio1, h.pin4, h.output⟩
  currentLimit := fun _ _ h => ⟨h.gpio1, h.pin4, h.output⟩
  setCurrentRange := fun s range operationType _ =>
    setCurrentRange_relayFollows s range operationType
  setGpio := fun s on h => ⟨h.gpio1, h.pin4, setGpio_output s 0 on⟩
  enableVoltage := fun _ _ h => ⟨h.gpio1, h.pin4, h.output⟩
  enableCurrent := fun _ _ h => ⟨h.gpio1, h.pin4, h.output⟩
  updateSettings := by
    intro s h
    obtain ⟨adc, sent, heq, houtput⟩ := updateSettings_eq s
    rw [heq]
    refine ⟨h.gpio1, h.pin4, ?_⟩
    exact (congrArg (Nat.testBit · 1) houtput).trans h.output

theorem sourceFollows_kept : KeptByCalls SourceFollows where
  voltageSource := fun s v dynamicRange _ => voltageSource_sourceFollows s v dynamicRange
  currentSource := fun s v _ => currentSource_sourceFollows s v
  voltageLimit := fun _ _ h => h
  currentLimit := fun _ _ h => h
  setCurrentRange := by
    intro s range operationType h
    cases range with
    | AMP1 =>
        cases operationType with
        | SOURCE_VOLTAGE => exact h
        | SOURCE_CURRENT => exact currentSource_sourceFollows _ _
    | MILLIAMP10 =>
        cases operationType with
        | SOURCE_VOLTAGE => exact h
        | SOURCE_CURRENT =>
            exact currentSource_sourceFollows { s with current_range := .MILLIAMP10 }
              s.setValue_micro
  setGpio := fun _ _ h => h
  enableVoltage := fun _ _ h => h
  enableCurrent := fun _ _ h => h
  updateSettings := by
    intro s h
    obtain ⟨adc, sent, heq, -⟩ := updateSettings_eq s
    rw [heq]
    exact h

theorem limitFollows_kept : KeptByCalls LimitFollows where
  voltageSource := fun _ _ _ h => h
  currentSource := fun _ _ h => h
  voltageLimit := fun s limit _ => voltageLimit_limitFollows s limit
  currentLimit := fun s limit _ => currentLimit_limitFollows s limit
  setCurrentRange := by
    intro s range operationType h
    cases range with
    | AMP1 =>
        cases operationType with
        | SOURCE_VOLTAGE => exact currentLimit_limitFollows _ _
        | SOURCE_CURRENT => exact h
    | MILLIAMP10 =>
        cases operationType with
        | SOURCE_VOLTAGE =>
            exact currentLimit_limitFollows { s with current_range := .MILLIAMP10 }
              s.setLimit_micro
        | SOURCE_CURRENT => exact h
  setGpio := fun _ _ h => h
  enableVoltage := fun _ _ h => h
  enableCurrent := fun _ _ h => h
  updateSettings := by
    intro s h
    obtain ⟨adc, sent, heq, -⟩ := updateSettings_eq s
    rw [heq]
    exact h

/-! ## Runs -/

end Program
end PoorMansSmu
