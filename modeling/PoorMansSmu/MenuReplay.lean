import PoorMansSmu.MenuClosing
import PoorMansSmu.OperationSync

/-!
# MenuReplay — closing the main menu without choosing an entry

The key CLOSE calls the callback with the function the menu remembers, the entry chosen last, and
the callback closes the function in use and opens that one.  Commands that select a function do not
tell the menu.

So nothing happens to what is sourced and limited when the menu remembers the function in use and
the output stage already sources what that function asks for (`close_keeps_source_iff`); otherwise
CLOSE selects another function, or replaces the values by predefined ones.
-/

namespace PoorMansSmu
namespace Program

open SmuHal FrontPanel Calibration Run

/-! ## What is sourced -/

/-- The function in use, and what the output stage sources for it. -/
structure SourceView where
  functionType : FunctionType
  operationType : OperationType
  setValue_micro : ℤ
  setLimit_micro : ℤ
  deriving DecidableEq, Repr

def sourceView (p : State) : SourceView where
  functionType := p.functionType
  operationType := p.SMU.operationType
  setValue_micro := p.SMU.setValue_micro
  setLimit_micro := p.SMU.setLimit_micro.val

/-- Opening the function would leave the output stage's operation type as it is. -/
def Fits (p : State) : FunctionType → Prop
  | .SOURCE_DC_VOLTAGE => p.SMU.operationType = .SOURCE_VOLTAGE
  | .SOURCE_DC_CURRENT => p.SMU.operationType = .SOURCE_CURRENT
  -- the range is changed for the global type, which commits a current in current mode
  | .SOURCE_PULSE => p.operationType = .SOURCE_VOLTAGE ∨ p.SMU.operationType = .SOURCE_CURRENT
  | _ => True

instance decidableFits (p : State) : ∀ f, Decidable (Fits p f)
  | .SOURCE_DC_VOLTAGE => inferInstanceAs (Decidable (_ = _))
  | .SOURCE_DC_CURRENT => inferInstanceAs (Decidable (_ = _))
  | .SOURCE_PULSE => inferInstanceAs (Decidable (_ ∨ _))
  | .SOURCE_SWEEP => isTrue trivial
  | .DIGITIZE => isTrue trivial
  | .GRAPH => isTrue trivial
  | .DATALOGGER => isTrue trivial
  | .MEASURE_RESISTANCE => isTrue trivial
  | .SHOWSETTINGS => isTrue trivial

/-- The menu remembers the function in use, and that function finds what it asks for. -/
structure ReplayFits (p : State) : Prop where
  remembered : p.ui.MAINMENU.functionType = p.functionType
  fits : Fits p p.functionType

theorem Quiet.sourceView_eq {p p' : State} (h : Quiet p p') :
    sourceView p' = sourceView p := by
  unfold sourceView
  rw [h.functionType, h.smuType, h.setValue, h.setLimit]

theorem fits_congr {p p' : State} (hop : p'.operationType = p.operationType)
    (htype : p'.SMU.operationType = p.SMU.operationType) (f : FunctionType) :
    Fits p' f ↔ Fits p f := by
  cases f <;> simp only [Fits, hop, htype]

theorem Quiet.fits_iff {p p' : State} (h : Quiet p p') (f : FunctionType) :
    Fits p' f ↔ Fits p f :=
  fits_congr h.operationType h.smuType f

theorem Quiet.replayFits_iff {p p' : State} (h : Quiet p p') : ReplayFits p' ↔ ReplayFits p := by
  constructor
  · rintro ⟨hmenu, hfits⟩
    rw [h.ui.menu, h.functionType] at hmenu
    rw [h.functionType] at hfits
    exact ⟨hmenu, (h.fits_iff _).1 hfits⟩
  · rintro ⟨hmenu, hfits⟩
    refine ⟨?_, ?_⟩
    · rw [h.ui.menu, h.functionType, hmenu]
    · rw [h.functionType]
      exact (h.fits_iff _).2 hfits

/-! ## Opening a function -/

/-- What opening a function does to what decides about later openings. -/
structure Opened (p p' : State) (f : FunctionType) : Prop where
  operationType : p'.operationType = p.operationType
  menu : p'.ui.MAINMENU = p.ui.MAINMENU
  fits : Fits p' f
  kept : Fits p f → p'.SMU.operationType = p.SMU.operationType ∧
    p'.SMU.setValue_micro = p.SMU.setValue_micro ∧ p'.SMU.setLimit_micro = p.SMU.setLimit_micro
  changed : ¬ Fits p f → p'.SMU.operationType ≠ p.SMU.operationType

section Open

variable (p : State)

theorem openDCVoltage_opened : Opened p (openDCVoltage p) .SOURCE_DC_VOLTAGE where
  operationType := by rw [openDCVoltage_eq]
  menu := by rw [openDCVoltage_eq]
  fits := openDCVoltage_operationType p
  kept := by
    intro (hvoltage : p.SMU.operationType = .SOURCE_VOLTAGE)
    refine ⟨(openDCVoltage_operationType p).trans hvoltage.symm, ?_⟩
    -- value and limit of before are committed again
    rw [openDCVoltage_SMU, if_pos hvoltage]
    simp
  changed := by
    intro hnot
    rw [openDCVoltage_operationType]
    exact fun h => hnot h.symm

theorem openDCCurrent_opened : Opened p (openDCCurrent p) .SOURCE_DC_CURRENT where
  operationType := by rw [openDCCurrent_eq]
  menu := by rw [openDCCurrent_eq]
  fits := openDCCurrent_operationType p
  kept := by
    intro (hcurrent : p.SMU.operationType = .SOURCE_CURRENT)
    refine ⟨(openDCCurrent_operationType p).trans hcurrent.symm, ?_⟩
    rw [openDCCurrent_SMU, if_pos hcurrent, ADCClass.voltageLimit_setValue,
      fltCommitCurrentSourceAutoRange_setValue]
    exact ⟨rfl, ADCClass.voltageLimit_setLimit _ _⟩
  changed := by
    intro hnot
    rw [openDCCurrent_operationType]
    exact fun h => hnot h.symm

/-- The pulse generator changes the range only, but in current mode that commits the value again. -/
theorem openPulse_opened : Opened p (openPulse p) .SOURCE_PULSE := by
  have hopened : (openPulse p).SMU = p.SMU.setCurrentRange .AMP1 p.operationType := rfl
  have htype := p.SMU.setCurrentRange_operationType .AMP1 p.operationType
  rw [← hopened] at htype
  refine ⟨rfl, rfl, ?_, fun hfits => ⟨?_, ?_, ?_⟩, fun hnot => ?_⟩
  · by_cases hvoltage : p.operationType = .SOURCE_VOLTAGE
    · exact Or.inl hvoltage
    · exact Or.inr (htype.trans (if_neg hvoltage))
  · rcases hfits with hvoltage | hcurrent
    · rw [htype, if_pos hvoltage]
    · -- a current is committed where one was sourced
      rw [htype, hcurrent, ite_self]
  · rw [hopened, ADCClass.setCurrentRange_setValue]
  · rw [hopened, ADCClass.setCurrentRange_setLimit]
  · obtain ⟨hvoltage, hcurrent⟩ := not_or.1 hnot
    rw [htype, if_neg hvoltage]
    exact fun h => hcurrent h.symm

theorem openDigitizer_opened : Opened p (openDigitizer p) .DIGITIZE := by
  obtain ⟨htype, hvalue, hlimit, -, -⟩ := updateSmu_quiet p.DIGITIZER p.SMU
  exact ⟨rfl, rfl, trivial, fun _ => ⟨htype, hvalue, hlimit⟩, fun hnot => absurd trivial hnot⟩

/-- A function that commits nothing. -/
theorem opened_of_sameSMU {p p' : State} {f : FunctionType} (hSMU : p'.SMU = p.SMU)
    (hop : p'.operationType = p.operationType) (hmenu : p'.ui.MAINMENU = p.ui.MAINMENU)
    (hfits : ∀ q, Fits q f) : Opened p p' f := by
  refine ⟨hop, hmenu, hfits p', fun _ => ?_, fun hnot => absurd (hfits p) hnot⟩
  rw [hSMU]
  exact ⟨rfl, rfl, rfl⟩

theorem openFunction_opened (f : FunctionType) (millis : ℕ) :
    Opened p (openFunction p f millis) f := by
  cases f with
  | SOURCE_PULSE => exact openPulse_opened p
  | DIGITIZE => exact openDigitizer_opened p
  | SOURCE_DC_VOLTAGE => exact openDCVoltage_opened p
  | SOURCE_DC_CURRENT => exact openDCCurrent_opened p
  | SOURCE_SWEEP => exact opened_of_sameSMU rfl rfl rfl fun _ => trivial
  | DATALOGGER => exact opened_of_sameSMU rfl rfl rfl fun _ => trivial
  | SHOWSETTINGS => exact opened_of_sameSMU rfl rfl rfl fun _ => trivial
  | GRAPH => exact opened_of_sameSMU rfl rfl rfl fun _ => trivial
  | MEASURE_RESISTANCE => exact opened_of_sameSMU rfl rfl rfl fun _ => trivial

/-- The callback selects the function, which then fits, and leaves what is sourced as it was exactly
when the function was in use and did fit. -/
theorem closeMainMenuCallback_view (f : FunctionType) (millis : ℕ)
    (hmenu : p.ui.MAINMENU.functionType = f) :
    ReplayFits (closeMainMenuCallback p f millis) ∧
      (sourceView (closeMainMenuCallback p f millis) = sourceView p ↔ ReplayFits p) := by
  have hclosed := closeFunction_quiet p
  have hopened := openFunction_opened (closeFunction p) f millis
  have hresult : closeMainMenuCallback p f millis =
      { openFunction (closeFunction p) f millis with functionType := f } := rfl
  rw [hresult]
  generalize openFunction (closeFunction p) f millis = q at hopened
  generalize closeFunction p = c at hclosed hopened
  have hremembered : q.ui.MAINMENU.functionType = f := by
    rw [hopened.menu, hclosed.ui.menu, hmenu]
  refine ⟨⟨hremembered, ?_⟩, ?_, ?_⟩
  · -- what fits does not depend on the function in use
    exact (fits_congr rfl rfl f).2 hopened.fits
  · intro hview
    -- the same view has the same function, and a function that did not fit changed the type
    have hf : f = p.functionType := congrArg SourceView.functionType hview
    have htype : q.SMU.operationType = p.SMU.operationType :=
      congrArg SourceView.operationType hview
    refine ⟨hmenu.trans hf, ?_⟩
    by_contra hnot
    rw [← hf, ← hclosed.fits_iff] at hnot
    exact hopened.changed hnot (htype.trans hclosed.smuType.symm)
  · rintro ⟨hfunction, hfits⟩
    rw [← hfunction, hmenu, ← hclosed.fits_iff] at hfits
    obtain ⟨htype, hvalue, hlimit⟩ := hopened.kept hfits
    rw [← hclosed.sourceView_eq]
    simp only [sourceView, SourceView.mk.injEq]
    exact ⟨by rw [hclosed.functionType, ← hfunction, hmenu], htype, hvalue, by rw [hlimit]⟩

end Open

/-! ## The open menu -/

/-- What an iteration does for the menu. -/
def menuIteration (p : State) (input : LoopInput) : State :=
  handleMenuScrolldown (menuHandleButtonAction p input) input

/-- An entry of the menu is touched while the menu stands still. -/
def ChoosesEntry (p : State) (input : LoopInput) : Prop :=
  (MainMenuClass.buttonFunction input.inputTag).isSome ∧ p.ui.MAINMENU.scrollMainMenuDir = 0

/-- CLOSE is touched while the menu is active and stands still. -/
def PressesClose (p : State) (input : LoopInput) : Prop :=
  p.ui.MAINMENU.active = true ∧ input.inputTag = .MAIN_MENU_CLOSE ∧
    (MenuClosing.slide p.ui.MAINMENU).scrollMainMenuDir = 0

instance (p : State) (input : LoopInput) : Decidable (ChoosesEntry p input) :=
  inferInstanceAs (Decidable (_ ∧ _))

instance (p : State) (input : LoopInput) : Decidable (PressesClose p input) :=
  inferInstanceAs (Decidable (_ ∧ _ ∧ _))

/-- The menu has just been opened. -/
def menuOpened (p : State) : State := { p with ui := p.ui.openMainMenu }

theorem menuOpened_quiet (p : State) : Quiet p (menuOpened p) :=
  quiet_ui p (openMainMenu_quiet p.ui)

section Iteration

variable {p : State} {input : LoopInput}

theorem menuHandleButtonAction_of_not_chosen (hnot : ¬ ChoosesEntry p input) :
    menuHandleButtonAction p input = p := by
  unfold menuHandleButtonAction
  rcases MenuClosing.handleButtonAction_cases p.ui.MAINMENU input.inputTag with
    ⟨f, hbutton, hstill, -⟩ | ⟨-, heq⟩
  · exact absurd ⟨hbutton, hstill⟩ hnot
  · rw [heq]
    rfl

theorem slide_same (m : MainMenuClass) :
    (MenuClosing.slide m).active = m.active ∧
      (MenuClosing.slide m).functionType = m.functionType := by
  unfold MenuClosing.slide
  dsimp only
  split_ifs <;> exact ⟨rfl, rfl⟩

/-- Other touches leave everything but the menu's place as it is. -/
theorem handleMenuScrolldown_of_not_closed (hnot : ¬ PressesClose p input) :
    Quiet p (handleMenuScrolldown p input) := by
  unfold handleMenuScrolldown
  split_ifs with hgesture hactive
  · exact menuOpened_quiet p
  · refine menuCallback_quiet p _ ?_ (render_functionType _ _ _)
    rcases MenuClosing.render_cases p.ui.MAINMENU input.inputTag input.millis with
      ⟨htag, hstill, -⟩ | ⟨-, heq⟩
    · exact absurd ⟨hactive, htag, hstill⟩ hnot
    · rw [heq]
  · exact Quiet.refl p

/-- CLOSE calls the callback with the function the menu remembers. -/
theorem handleMenuScrolldown_of_closed (hclose : PressesClose p input) :
    ∃ q, Quiet p q ∧ handleMenuScrolldown p input =
      closeMainMenuCallback q q.ui.MAINMENU.functionType input.millis := by
  obtain ⟨hactive, htag, hstill⟩ := hclose
  obtain ⟨hslid, hfunction⟩ := slide_same p.ui.MAINMENU
  have hkept := render_functionType p.ui.MAINMENU input.inputTag input.millis
  have hcalled : (p.ui.MAINMENU.render input.inputTag input.millis).2 =
      some p.ui.MAINMENU.functionType := by
    rcases MenuClosing.render_cases p.ui.MAINMENU input.inputTag input.millis with
      ⟨-, -, heq⟩ | ⟨hnot, -⟩
    · rw [heq, MenuClosing.close_called, hslid, hactive, hfunction]
      rfl
    · exact absurd ⟨htag, hstill⟩ hnot
  have hshown : ¬ (input.gestureDown = true ∧ p.ui.MAINMENU.active = false) := by
    rw [hactive]
    exact fun h => absurd h.2.symm Bool.false_ne_true
  refine ⟨{ p with ui := { p.ui with
    MAINMENU := (p.ui.MAINMENU.render input.inputTag input.millis).1 } }, ?_, ?_⟩
  · exact quiet_ui p ⟨hkept, SameDial.refl _, SameDial.refl _⟩
  · unfold handleMenuScrolldown menuCallback
    rw [if_neg hshown, if_pos hactive, hcalled]
    dsimp only
    rw [hkept]

end Iteration

/-! ## Runs -/

/-- The menu is opened after any run from power-up, no entry is chosen, and CLOSE is pressed: what
is sourced and limited is as it was before exactly when the menu remembered the function in use and
the output stage sourced what that function asks for. -/
theorem close_keeps_source_iff (V_CALIBRATION C_CALIBRATION : DacComp) (adc : ℕ → ℕ)
    (es : List Event) (inputs : List LoopInput)
    (hentry : Guarded menuIteration (fun p input => ¬ ChoosesEntry p input)
      (menuOpened (exec step (boot V_CALIBRATION C_CALIBRATION adc) es)) inputs)
    (hclose : Sometime menuIteration PressesClose
      (menuOpened (exec step (boot V_CALIBRATION C_CALIBRATION adc) es)) inputs) :
    sourceView (exec menuIteration
        (menuOpened (exec step (boot V_CALIBRATION C_CALIBRATION adc) es)) inputs) =
      sourceView (exec step (boot V_CALIBRATION C_CALIBRATION adc) es) ↔
    ReplayFits (exec step (boot V_CALIBRATION C_CALIBRATION adc) es) := by
  generalize exec step (boot V_CALIBRATION C_CALIBRATION adc) es = p at hentry hclose ⊢
  have hopened := menuOpened_quiet p
  rw [← hopened.sourceView_eq, ← hopened.replayFits_iff]
  -- CLOSE decides, all other touches leave view and condition as they are
  refine exec_observed_iff ?_ ?_ hentry hclose
  · intro q input hnot hother
    rw [menuIteration, menuHandleButtonAction_of_not_chosen hnot]
    have hquiet := handleMenuScrolldown_of_not_closed hother
    exact ⟨hquiet.sourceView_eq, hquiet.replayFits_iff⟩
  · intro q input hnot hpressed
    rw [menuIteration, menuHandleButtonAction_of_not_chosen hnot]
    obtain ⟨r, hquiet, heq⟩ := handleMenuScrolldown_of_closed hpressed
    obtain ⟨hfits, hiff⟩ :=
      closeMainMenuCallback_view r r.ui.MAINMENU.functionType input.millis rfl
    rw [heq, ← hquiet.sourceView_eq, ← hquiet.replayFits_iff]
    exact ⟨hfits, hiff⟩

/-- Wait until the menu has slid in, then touch CLOSE. -/
def pressClose : List LoopInput :=
  List.replicate 12 ({} : LoopInput) ++ [{ inputTag := .MAIN_MENU_CLOSE }]

/-- After power-up the menu remembers the voltage source, and that is in use. -/
theorem close_keeps_source_boot :
    sourceView (exec menuIteration (menuOpened board) pressClose) = sourceView board :=
  (close_keeps_source_iff DacComp.default DacComp.default (fun _ => 0x0C94) [] pressClose
    (by decide +kernel) (by decide +kernel)).2 ⟨rfl, by decide +kernel⟩

/-- A current is sourced by a command, and the menu opened and closed: a voltage is sourced. -/
theorem close_changes_source : ¬ ∀ (es : List Event) (inputs : List LoopInput),
    Guarded menuIteration (fun p input => ¬ ChoosesEntry p input)
        (menuOpened (exec step board es)) inputs →
      Sometime menuIteration PressesClose (menuOpened (exec step board es)) inputs →
      sourceView (exec menuIteration (menuOpened (exec step board es)) inputs) =
        sourceView (exec step board es) := by
  intro hall
  have hkept := hall [.scpi (.sourceCurrentSCPI (some 5))] pressClose
    (by decide +kernel) (by decide +kernel)
  exact absurd hkept (by decide +kernel)

end Program
end PoorMansSmu
