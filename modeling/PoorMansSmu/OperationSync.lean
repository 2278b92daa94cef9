import PoorMansSmu.Actions
import PoorMansSmu.Timers

/-!
# OperationSync — two operation types that should be one

The main program derives an operation type from the function that is selected, the output stage keeps
the type of the last source value committed.  The range button passes the one to a function that
acts by it on values of the other.  The two agree as long as the functions that count as voltage
sources are selected while a voltage is sourced, and no command selects a function without a value
of its kind.
-/

namespace PoorMansSmu
namespace Program

open SmuHal FrontPanel Calibration Run

/-- The range button always passed the output stage's own type; and wherever `loopMain` runs, what
it derives from the function is that type. -/
structure OperationsAgree (p : State) : Prop where
  calls : ∀ c ∈ p.rangeCalls, c.passed = c.own
  derived : runsLoopMain p.functionType = true →
    getOperationType p.functionType = p.SMU.operationType

theorem operationsAgree_iff (p : State) :
    OperationsAgree p ↔ (∀ c ∈ p.rangeCalls, c.passed = c.own) ∧
      (runsLoopMain p.functionType = true →
        getOperationType p.functionType = p.SMU.operationType) :=
  ⟨fun h => ⟨h.calls, h.derived⟩, fun h => ⟨h.1, h.2⟩⟩

instance (p : State) : Decidable (OperationsAgree p) := decidable_of_iff' _ (operationsAgree_iff p)

/-- The functions that count as voltage sources although selecting them commits no voltage. -/
def countsAsVoltage : FunctionType → Bool
  | .SOURCE_PULSE => true
  | .SOURCE_SWEEP => true
  | .MEASURE_RESISTANCE => true
  | .SHOWSETTINGS => true
  | _ => false

/-- A command without a parameter selects the kind of source that is on already; the menu selects a
function that counts as a voltage source only while a voltage is sourced; the knob is turned, and a
pulse comes, only while what they source by is the output stage's own type. -/
def KeepsKind (p : State) : Event → Prop
  | .scpi (.sourceVoltageSCPI none) => p.SMU.operationType = .SOURCE_VOLTAGE
  | .scpi (.sourceCurrentSCPI none) => p.SMU.operationType = .SOURCE_CURRENT
  | .scpi _ => True
  | .loop input =>
      (TurnTaken p input → p.operationType = p.SMU.operationType) ∧
        ∀ f, p.ui.MAINMENU.touches input.inputTag = some f → countsAsVoltage f = true →
          p.SMU.operationType = .SOURCE_VOLTAGE
  | .pulseTimer =>
      p.FUNCTION_PULSE.myPulseTimer = true →
        p.FUNCTION_PULSE.operationType = p.SMU.operationType
  | .bufferFull => True

instance decidableKeepsKind (p : State) : ∀ e, Decidable (KeepsKind p e)
  | .scpi (.sourceVoltageSCPI none) => inferInstanceAs (Decidable (_ = _))
  | .scpi (.sourceVoltageSCPI (some _)) => isTrue trivial
  | .scpi (.sourceCurrentSCPI none) => inferInstanceAs (Decidable (_ = _))
  | .scpi (.sourceCurrentSCPI (some _)) => isTrue trivial
  | .scpi (.sourceVoltageILimitSCPI _) => isTrue trivial
  | .scpi (.sourceCurrentVLimitSCPI _) => isTrue trivial
  | .loop _ => inferInstanceAs (Decidable (_ ∧ ∀ f, _ = some f → _ → _))
  | .pulseTimer => inferInstanceAs (Decidable (_ → _))
  | .bufferFull => isTrue trivial

/-- The two types agree, the global one also where `loopMain` does not run, and the type kept by a
sweep while it is selected. -/
structure SyncInv (p : State) : Prop extends OperationsAgree p where
  elsewhere : runsLoopMain p.functionType = false → p.operationType = p.SMU.operationType
  sweep : p.functionType = .SOURCE_SWEEP →
    p.FUNCTION_SWEEP.operationType = p.SMU.operationType

theorem SyncInv.of_eq {p p' : State} (hp : SyncInv p) (hfunction : p'.functionType = p.functionType)
    (htype : p'.operationType = p.operationType)
    (hsweep : p'.FUNCTION_SWEEP.operationType = p.FUNCTION_SWEEP.operationType)
    (hcalls : p'.rangeCalls = p.rangeCalls)
    (hsmu : p'.SMU.operationType = p.SMU.operationType) : SyncInv p' where
  calls := by
    rw [hcalls]
    exact hp.calls
  derived := by
    rw [hfunction, hsmu]
    exact hp.derived
  elsewhere := by
    rw [hfunction, htype, hsmu]
    exact hp.elsewhere
  sweep := by
    rw [hfunction, hsweep, hsmu]
    exact hp.sweep

theorem Quiet.syncInv {p p' : State} (h : Quiet p p') (hp : SyncInv p) : SyncInv p' :=
  hp.of_eq h.functionType h.operationType h.sweepType h.rangeCalls h.smuType

theorem Sourced.syncInv {p p' : State} {op : OperationType} {v : ℤ} (h : Sourced p p' op v)
    (hp : SyncInv p) (hop : op = p.SMU.operationType) : SyncInv p' := by
  refine hp.of_eq h.functionType h.operationType h.sweepType h.rangeCalls ?_
  rw [h.SMU, commitSource_operationType, hop]

/-! ## Closing and opening functions -/

/-- The voltage source makes voltage the output stage's type. -/
theorem openDCVoltage_operationType (p : State) :
    (openDCVoltage p).SMU.operationType = .SOURCE_VOLTAGE := by
  rw [openDCVoltage_SMU]
  split_ifs <;> simp

theorem openDCCurrent_operationType (p : State) :
    (openDCCurrent p).SMU.operationType = .SOURCE_CURRENT := by
  rw [openDCCurrent_SMU]
  split_ifs
  · rw [ADCClass.voltageLimit_operationType, fltCommitCurrentSourceAutoRange_operationType]
  · rw [ADCClass.voltageLimit_operationType, fltCommitCurrentSourceAutoRange_operationType]

/-- Opening the pulse generator changes the range in the type that is passed to it. -/
theorem openPulse_operationType {p : State} (hp : p.operationType = p.SMU.operationType) :
    (openPulse p).SMU.operationType = p.SMU.operationType := by
  have hopened : (openPulse p).SMU = p.SMU.setCurrentRange .AMP1 p.operationType := rfl
  rw [hopened, hp]
  exact p.SMU.setCurrentRange_own_operationType .AMP1

/-- What a selection in the menu leaves: the two types agree if they did before, and if the function
counts as a voltage source only while a voltage is sourced. -/
theorem closeMainMenuCallback_syncInv {p : State} (hcalls : ∀ c ∈ p.rangeCalls, c.passed = c.own)
    (hp : p.operationType = p.SMU.operationType) (f : FunctionType) (millis : ℕ)
    (hf : countsAsVoltage f = true → p.SMU.operationType = .SOURCE_VOLTAGE) :
    SyncInv (closeMainMenuCallback p f millis) := by
  have hclose := closeFunction_quiet p
  unfold closeMainMenuCallback
  generalize closeFunction p = q at hclose
  have hq : q.operationType = q.SMU.operationType := by
    rw [hclose.operationType, hclose.smuType, hp]
  rw [← hclose.rangeCalls] at hcalls
  rw [← hclose.smuType] at hf
  -- closing changes neither type, so only what opening commits or derives matters
  cases f with
  | SOURCE_PULSE =>
      have hkept : (openPulse q).SMU.operationType = q.SMU.operationType :=
        openPulse_operationType hq
      refine ⟨⟨hcalls, fun _ => ?_⟩, nofun, nofun⟩
      exact (hkept.trans (hf rfl)).symm
  | SOURCE_SWEEP =>
      exact ⟨⟨hcalls, fun _ => (hf rfl).symm⟩, nofun, fun _ => hq⟩
  | MEASURE_RESISTANCE =>
      exact ⟨⟨hcalls, fun _ => (hf rfl).symm⟩, nofun, nofun⟩
  | SHOWSETTINGS =>
      exact ⟨⟨hcalls, fun _ => (hf rfl).symm⟩, nofun, nofun⟩
  | SOURCE_DC_VOLTAGE =>
      refine ⟨⟨?_, fun _ => (openDCVoltage_operationType q).symm⟩, nofun, nofun⟩
      change ∀ c ∈ (openDCVoltage q).rangeCalls, _
      rw [openDCVoltage_eq]
      exact hcalls
  | SOURCE_DC_CURRENT =>
      refine ⟨⟨?_, fun _ => (openDCCurrent_operationType q).symm⟩, nofun, nofun⟩
      change ∀ c ∈ (openDCCurrent q).rangeCalls, _
      rw [openDCCurrent_eq]
      exact hcalls
  | DIGITIZE =>
      have hkept : (openDigitizer q).SMU.operationType = q.SMU.operationType := by
        unfold openDigitizer DigitizerClass.open_
        exact (updateSmu_quiet _ _).1
      refine ⟨⟨hcalls, nofun⟩, fun _ => ?_, nofun⟩
      exact hq.trans hkept.symm
  | GRAPH =>
      exact ⟨⟨hcalls, nofun⟩, fun _ => hq, nofun⟩
  | DATALOGGER =>
      exact ⟨⟨hcalls, nofun⟩, fun _ => hq, nofun⟩

/-! ## Iterations -/

/-- Before the action of an iteration: the types agree, and type and menu are those before the
iteration. -/
structure BeforeAction (p q : State) : Prop where
  inv : SyncInv q
  agree : q.operationType = q.SMU.operationType
  own : q.SMU.operationType = p.SMU.operationType
  menu : q.ui.MAINMENU.functionType = p.ui.MAINMENU.functionType

theorem Quiet.beforeAction {p q q' : State} (h : Quiet q q') (hq : BeforeAction p q) :
    BeforeAction p q' where
  inv := h.syncInv hq.inv
  agree := by rw [h.operationType, h.smuType, hq.agree]
  own := h.smuType.trans hq.own
  menu := h.ui.menu.trans hq.menu

theorem rangeButton_syncInv {p : State} (hp : SyncInv p)
    (hagree : p.operationType = p.SMU.operationType) (millis : ℕ) :
    SyncInv (rangeButton p millis) := by
  unfold rangeButton
  by_cases hdue : elapsed p.ui.timeSinceLastChange 500 millis = true
  · rw [if_pos hdue]
    -- a switch for the own type leaves the own type as it is
    have hkept : ∀ range, (p.SMU.setCurrentRange range p.operationType).operationType =
        p.SMU.operationType := by
      intro range
      rw [hagree]
      exact p.SMU.setCurrentRange_own_operationType range
    refine ⟨⟨?_, fun h => (hp.derived h).trans (hkept _).symm⟩,
      fun h => (hp.elsewhere h).trans (hkept _).symm, fun h => (hp.sweep h).trans (hkept _).symm⟩
    intro c hc
    rcases List.mem_append.1 hc with hc | hc
    · exact hp.calls c hc
    · rw [List.mem_singleton.1 hc]
      exact hagree
  · rw [if_neg hdue]
    exact hp

/-- A dial commits by the global type, which is the output stage's own. -/
theorem closeSourceDCCallback_syncInv {p : State} (hp : SyncInv p)
    (hagree : p.operationType = p.SMU.operationType) (set_or_limit : SetOrLimit) :
    SyncInv (closeSourceDCCallback p set_or_limit false) := by
  have hsame := closeSourceDCCallback_same p set_or_limit false
  refine hp.of_eq hsame.functionType hsame.operationType
    (congrArg FunctionSweepClass.operationType hsame.sweep) hsame.rangeCalls ?_
  unfold closeSourceDCCallback
  cases set_or_limit with
  | SET =>
      simp only [Bool.false_eq_true, if_false]
      split
      · next hop => rw [ADCClass.voltageSource_operationType, ← hagree, hop]
      · next hop => rw [fltCommitCurrentSourceAutoRange_operationType, ← hagree, hop]
  | LIMIT =>
      simp only [Bool.false_eq_true, if_false]
      split <;> simp

theorem actionRule_syncInv {p : State} {input : LoopInput} (hok : KeepsKind p (.loop input)) :
    ActionRule input (BeforeAction p) SyncInv where
  pre_kept := fun _ _ h hq => h.beforeAction hq
  post_kept := fun _ _ h hq => h.syncInv hq
  post_menu := IgnoresUi.keptByMenu fun _ _ hq => { hq with }
  post_ui := fun _ _ hq => { hq with }
  stay := fun _ hq => hq.inv
  range := fun _ _ _ hq => rangeButton_syncInv hq.inv hq.agree _
  menu := by
    intro q m f htouch hq
    refine closeMainMenuCallback_syncInv (p := { q with ui := { q.ui with MAINMENU := m } })
      hq.inv.calls hq.agree f input.millis fun hf => ?_
    have htouch' : p.ui.MAINMENU.touches input.inputTag = some f := by
      rw [← htouch]
      unfold MainMenuClass.touches
      rw [hq.menu]
    exact hq.own.trans (hok.2 f htouch' hf)
  sourceDial := fun _ _ hq _ _ => closeSourceDCCallback_syncInv hq.inv hq.agree .SET
  limitDial := fun _ _ hq _ _ => closeSourceDCCallback_syncInv hq.inv hq.agree .LIMIT

/-- `operate` derives the global type anew, and what it commits is of the output stage's own type. -/
theorem Operated.beforeAction {p q q' : State} {input : LoopInput} (h : Operated q q' input)
    (hq : SyncInv q) (hmain : runsLoopMain q.functionType = true)
    (hown : q.SMU.operationType = p.SMU.operationType)
    (hmenu : q.ui.MAINMENU.functionType = p.ui.MAINMENU.functionType) : BeforeAction p q' := by
  -- a due sweep value is of the type kept by the sweep
  have hkept : q'.SMU.operationType = q.SMU.operationType := by
    rcases h.SMU with ⟨-, heq⟩ | ⟨hdue, heq⟩
    · rw [heq]
      exact q.SMU.handleAutoCurrentRange_operationType _ _ _
    · rw [heq, commitSource_operationType]
      exact hq.sweep hdue.1
  have hderived := hq.derived hmain
  refine ⟨⟨⟨?_, ?_⟩, ?_, ?_⟩, ?_, hkept.trans hown, h.ui.menu.trans hmenu⟩
  · rw [h.rangeCalls]
    exact hq.calls
  · intro _
    rw [h.functionType, hkept, hderived]
  · intro hnot
    rw [h.functionType, hmain] at hnot
    cases hnot
  · intro hsweep
    rw [h.functionType] at hsweep
    rw [h.sweepType, hkept]
    exact hq.sweep hsweep
  · rw [h.operationType, hkept, hderived]

theorem loop_syncInv {p : State} (hp : SyncInv p) {input : LoopInput}
    (hok : KeepsKind p (.loop input)) : SyncInv (loop p input) := by
  have hturned : SyncInv (rotaryHandle p input) ∧
      (rotaryHandle p input).SMU.operationType = p.SMU.operationType ∧
      (rotaryHandle p input).ui.MAINMENU.functionType = p.ui.MAINMENU.functionType := by
    rcases rotaryHandle_cases p input with ⟨-, hquiet⟩ | ⟨hturn, hsourced⟩
    · exact ⟨hquiet.syncInv hp, hquiet.smuType, hquiet.ui.menu⟩
    · have hagree := hok.1 hturn
      refine ⟨hsourced.syncInv hp hagree, ?_, hsourced.ui.menu⟩
      rw [hsourced.SMU, commitSource_operationType, hagree]
  obtain ⟨hinv, hown, hmenu⟩ := hturned
  -- a knob turn comes before the iteration derives the type
  have hrule := actionRule_syncInv hok
  have hfunction := rotaryHandle_functionType p input
  refine loop_rule p (fun _ => hrule.toMenuRule) (fun hother => ?_) (fun _ => hrule)
    fun hruns => ?_
  · rw [← hfunction] at hother
    exact ⟨hinv, hinv.elsewhere hother, hown, hmenu⟩
  · rw [← hfunction] at hruns
    exact (operate_operated _ input).beforeAction hinv hruns hown hmenu

/-! ## Runs -/

theorem scpi_syncInv {p : State} (hp : SyncInv p) (command : ScpiCommand)
    (hok : KeepsKind p (.scpi command)) : SyncInv (scpi p command) := by
  -- a command makes its function the one selected, whatever it commits
  have hselect : ∀ (q : State) (f : FunctionType), q.rangeCalls = p.rangeCalls →
      runsLoopMain f = true → f ≠ .SOURCE_SWEEP → getOperationType f = q.SMU.operationType →
      SyncInv { q with functionType := f } := by
    intro q f hcalls hmain hsweep hderived
    refine ⟨⟨?_, fun _ => hderived⟩, fun h => ?_, fun h => absurd h hsweep⟩
    · rw [hcalls]
      exact hp.calls
    · rw [hmain] at h
      cases h
  cases command with
  | sourceVoltageSCPI parameter =>
      cases parameter with
      | none => exact hselect p _ rfl rfl (by decide) hok.symm
      | some mv =>
          refine hselect _ _ rfl rfl (by decide) ?_
          simp only [ADCClass.voltageSource_operationType]
          rfl
  | sourceCurrentSCPI parameter =>
      cases parameter with
      | none => exact hselect p _ rfl rfl (by decide) hok.symm
      | some uA =>
          refine hselect _ _ rfl rfl (by decide) ?_
          rw [fltCommitCurrentSourceAutoRange_operationType]
          rfl
  | sourceVoltageILimitSCPI parameter =>
      cases parameter with
      | none => exact hp
      | some uA => exact hp.of_eq rfl rfl rfl rfl (ADCClass.currentLimit_operationType _ _)
  | sourceCurrentVLimitSCPI parameter =>
      cases parameter with
      | none => exact hp
      | some mV => exact hp.of_eq rfl rfl rfl rfl (ADCClass.voltageLimit_operationType _ _)

theorem step_syncInv (p : State) (e : Event) (hp : SyncInv p) (hok : KeepsKind p e) :
    SyncInv (step p e) := by
  cases e with
  | scpi command => exact scpi_syncInv hp command hok
  | loop input => exact loop_syncInv hp hok
  | pulseTimer =>
      simp only [step]
      split_ifs with hrunning
      · refine hp.of_eq rfl rfl rfl rfl ?_
        exact (FunctionPulseClass.sourcePulse_commits _ _).1.trans (hok hrunning)
      · exact hp
  | bufferFull => exact hp.of_eq rfl rfl rfl rfl rfl

section Boot

variable (V_CALIBRATION C_CALIBRATION : DacComp) (adc : ℕ → ℕ)

theorem setup_operationType :
    (ADCClass.setup V_CALIBRATION C_CALIBRATION adc).operationType = .SOURCE_VOLTAGE := by
  unfold ADCClass.setup
  simp [ADCClass.setCurrentRange_operationType]

theorem boot_syncInv : SyncInv (boot V_CALIBRATION C_CALIBRATION adc) where
  calls := by simp [boot]
  derived := fun _ => (setup_operationType V_CALIBRATION C_CALIBRATION adc).symm
  elsewhere := nofun
  sweep := nofun

/-- In every run from power-up whose steps keep the kind of source, the range button always passes
the output stage's own operation type, and `loopMain` always derives it.  The runs are those of the
main program: no null calibration and no automatic calibration is under way, which source values of
their own operation type. -/
theorem operations_agree_of_guarded (es : List Event)
    (h : Guarded step KeepsKind (boot V_CALIBRATION C_CALIBRATION adc) es) :
    Always step OperationsAgree (boot V_CALIBRATION C_CALIBRATION adc) es := by
  have hinv := always_of_guarded step_syncInv (boot_syncInv V_CALIBRATION C_CALIBRATION adc) h
  exact hinv.mono fun _ hp => hp.toOperationsAgree

end Boot

/-- Select a function in the menu and wait until the menu is gone. -/
def select (button : Tag) : List Event :=
  openMenu ++ [.loop { inputTag := button }] ++ List.replicate 8 (.loop {}) ++
    [.loop { millis := 100 }]

/-- Press the range button. -/
def pressRange : Event := .loop { inputTag := .BUTTON_CUR_AUTO, pressed := true, millis := 1000 }

/-- The current source is selected and the range changed. -/
theorem operations_agree_current_source :
    Always step OperationsAgree board
      (select .MENU_BUTTON_SOURCE_DC_CURRENT ++ [pressRange]) :=
  operations_agree_of_guarded DacComp.default DacComp.default (fun _ => 0x0C94)
    (select .MENU_BUTTON_SOURCE_DC_CURRENT ++ [pressRange]) (by decide +kernel)

/-- The resistance meter is selected while a current is sourced: the range button passes voltage to
an output stage that sources current. -/
theorem range_button_passes_other_type :
    ¬ Always step OperationsAgree board
      (select .MENU_BUTTON_SOURCE_DC_CURRENT ++ select .MENU_BUTTON_RESISTANCE ++
        [pressRange]) := by
  decide +kernel

end Program
end PoorMansSmu
