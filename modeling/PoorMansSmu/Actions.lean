import PoorMansSmu.Program

/-!
# Actions — what one iteration of the main loop can do to the output

An iteration sees one touched tag, and every tag belongs to one kind of action: the range button, the
limit button, a selection in the menu, the key that confirms a dial.  So after `operate`, which does
what depends on no touch, at most one action follows.  `loop_rule` turns that into a rule: to show
something after an iteration, show it after each action.
-/

namespace PoorMansSmu
namespace Program

open SmuHal FrontPanel

/-- `loop` runs `loopMain` for this function. -/
def runsLoopMain : FunctionType → Bool
  | .DIGITIZE => false
  | .GRAPH => false
  | .DATALOGGER => false
  | _ => true

/-! ## Quiet steps -/

/-- A dial keeps its value and what it was opened for; it may be closed, but not opened. -/
structure SameDial (d d' : DialClass) : Prop where
  dialog : d'.dialog = true → d.dialog = true
  okDrawn : d'.okDrawn = d.okDrawn
  vol_cur_type : d'.vol_cur_type = d.vol_cur_type
  mv : d'.mv = d.mv

theorem SameDial.refl (d : DialClass) : SameDial d d := ⟨id, rfl, rfl, rfl⟩

theorem SameDial.trans {d d' d'' : DialClass} (h : SameDial d d') (h' : SameDial d' d'') :
    SameDial d d'' :=
  ⟨fun hd => h.dialog (h'.dialog hd), h'.okDrawn.trans h.okDrawn,
    h'.vol_cur_type.trans h.vol_cur_type, h'.mv.trans h.mv⟩

/-- The user interface keeps the dials and the function selected in the menu. -/
structure QuietUi (u u' : Ui) : Prop where
  menu : u'.MAINMENU.functionType = u.MAINMENU.functionType
  sourceDial : SameDial u.SOURCE_DIAL u'.SOURCE_DIAL
  limitDial : SameDial u.LIMIT_DIAL u'.LIMIT_DIAL

theorem QuietUi.refl (u : Ui) : QuietUi u u := ⟨rfl, SameDial.refl _, SameDial.refl _⟩

theorem QuietUi.trans {u u' u'' : Ui} (h : QuietUi u u') (h' : QuietUi u' u'') : QuietUi u u'' :=
  ⟨h'.menu.trans h.menu, h.sourceDial.trans h'.sourceDial, h.limitDial.trans h'.limitDial⟩

theorem QuietUi.touches {u u' : Ui} (h : QuietUi u u') (inputTag : Tag) :
    u'.MAINMENU.touches inputTag = u.MAINMENU.touches inputTag := by
  unfold MainMenuClass.touches
  rw [h.menu]

/-- Nothing happens to what is sourced and limited, nor to what decides about it. -/
structure Quiet (p p' : State) : Prop where
  functionType : p'.functionType = p.functionType
  operationType : p'.operationType = p.operationType
  sweepType : p'.FUNCTION_SWEEP.operationType = p.FUNCTION_SWEEP.operationType
  rangeCalls : p'.rangeCalls = p.rangeCalls
  ui : QuietUi p.ui p'.ui
  smuType : p'.SMU.operationType = p.SMU.operationType
  setValue : p'.SMU.setValue_micro = p.SMU.setValue_micro
  setLimit : p'.SMU.setLimit_micro = p.SMU.setLimit_micro
  limitCommits : p'.SMU.limitCommits = p.SMU.limitCommits
  valueCommits : p'.SMU.valueCommits = p.SMU.valueCommits

theorem Quiet.refl (p : State) : Quiet p p :=
  ⟨rfl, rfl, rfl, rfl, QuietUi.refl _, rfl, rfl, rfl, rfl, rfl⟩

/-- A property of states that quiet steps keep. -/
def KeptByQuiet (P : State → Prop) : Prop := ∀ p p', Quiet p p' → P p → P p'

/-- A step of the user interface alone. -/
theorem quiet_ui (p : State) {ui : Ui} (h : QuietUi p.ui ui) : Quiet p { p with ui := ui } :=
  ⟨rfl, rfl, rfl, rfl, h, rfl, rfl, rfl, rfl, rfl⟩

theorem openMainMenu_quiet (u : Ui) : QuietUi u u.openMainMenu := by
  have hclosed : ∀ d : DialClass, SameDial d d.close := fun _ =>
    ⟨fun h => absurd h Bool.false_ne_true, rfl, rfl, rfl⟩
  unfold Ui.openMainMenu
  split_ifs
  · exact ⟨rfl, hclosed _, hclosed _⟩
  · exact ⟨rfl, SameDial.refl _, SameDial.refl _⟩

theorem pushButtonInterrupt_quiet (u : Ui) (key : ℕ) : QuietUi u (u.pushButtonInterrupt key) := by
  unfold Ui.pushButtonInterrupt
  split_ifs
  · exact openMainMenu_quiet u
  · exact ⟨rfl, SameDial.refl _, SameDial.refl _⟩
  · exact QuietUi.refl u

theorem render_functionType (m : MainMenuClass) (inputTag : Tag) (millis : ℕ) :
    (m.render inputTag millis).1.functionType = m.functionType := by
  simp only [MainMenuClass.render, MainMenuClass.close]
  split_ifs <;> rfl

section QuietSteps

variable (p : State) (input : LoopInput)

theorem readSigns_quiet (x : DialDisplay) : Quiet p (readSigns p x) :=
  quiet_ui p ⟨rfl, ⟨id, rfl, rfl, rfl⟩, ⟨id, rfl, rfl, rfl⟩⟩

theorem buttonsHandle_quiet : Quiet p (buttonsHandle p input) := by
  have hpushed : ∃ q, Quiet p q ∧
      buttonsHandle p input = buttonsHandle q { input with pushButton := none } := by
    unfold buttonsHandle
    cases input.pushButton with
    | none => exact ⟨p, Quiet.refl p, rfl⟩
    | some key => exact ⟨_, quiet_ui p (pushButtonInterrupt_quiet p.ui key), rfl⟩
  obtain ⟨q, hq, heq⟩ := hpushed
  rw [heq]
  unfold buttonsHandle
  simp only
  split_ifs
  · -- the encoder's button changes the digit to adjust, or the pulse parameter
    split
    · exact { hq with ui := { hq.ui with } }
    · exact { hq with }
    · exact hq
    · exact hq
    · exact hq
  · exact hq

theorem handleFunctionSpecifcButtonAction_quiet (tag tag2 : Tag) (millis : ℕ) :
    Quiet p (handleFunctionSpecifcButtonAction p tag tag2 millis) := by
  unfold handleFunctionSpecifcButtonAction
  split
  · exact ⟨rfl, rfl, rfl, rfl, QuietUi.refl _, rfl, rfl, rfl, rfl, rfl⟩
  · refine ⟨rfl, rfl, ?_, rfl, QuietUi.refl _, rfl, rfl, rfl, rfl, rfl⟩
    exact FunctionSweepClass.handleButtonAction_operationType _ tag2 millis
  · exact Quiet.refl p

theorem renderSetingsPage_quiet : Quiet p (renderSetingsPage p input) := by
  unfold renderSetingsPage
  split
  · exact quiet_ui p ⟨rfl, SameDial.refl _, SameDial.refl _⟩
  · exact ⟨rfl, rfl, rfl, rfl, QuietUi.refl _, rfl, rfl, rfl, rfl, rfl⟩
  · exact quiet_ui p ⟨rfl, SameDial.refl _, SameDial.refl _⟩
  · exact Quiet.refl p

/-- Without a callback the menu only moves. -/
theorem menuCallback_quiet {result : MainMenuClass × Option FunctionType} (millis : ℕ)
    (hcalled : result.2 = none) (hmenu : result.1.functionType = p.ui.MAINMENU.functionType) :
    Quiet p (menuCallback p result millis) := by
  unfold menuCallback
  rw [hcalled]
  exact quiet_ui p ⟨hmenu, SameDial.refl _, SameDial.refl _⟩

theorem menuHandleButtonAction_quiet
    (htag : MainMenuClass.buttonFunction input.inputTag = none) :
    Quiet p (menuHandleButtonAction p input) := by
  unfold menuHandleButtonAction
  have hnone : p.ui.MAINMENU.handleButtonAction input.inputTag = (p.ui.MAINMENU, none) := by
    unfold MainMenuClass.handleButtonAction
    rw [htag]
    split_ifs <;> rfl
  rw [hnone]
  exact menuCallback_quiet p _ rfl rfl

theorem handleMenuScrolldown_quiet (htag : input.inputTag ≠ .MAIN_MENU_CLOSE) :
    Quiet p (handleMenuScrolldown p input) := by
  unfold handleMenuScrolldown
  split_ifs
  · exact quiet_ui p (openMainMenu_quiet p.ui)
  · refine menuCallback_quiet p _ ?_ (render_functionType _ _ _)
    cases hcalled : (p.ui.MAINMENU.render input.inputTag input.millis).2 with
    | none => rfl
    | some f => exact absurd (MainMenuClass.render_called hcalled).1 htag
  · exact Quiet.refl p

/-- The three buttons of the main screen. -/
def mainButtons : List Tag := [.BUTTON_SOURCE_SET, .BUTTON_LIM_SET, .BUTTON_CUR_AUTO]

theorem checkButtons_quiet (htag : input.inputTag ∉ mainButtons) :
    Quiet p (checkButtons p input).1 := by
  unfold checkButtons
  split_ifs
  · exact Quiet.refl p
  · simp only
    split
    · next h => exact absurd (by rw [h]; decide) htag
    · next h => exact absurd (by rw [h]; decide) htag
    · next h => exact absurd (by rw [h]; decide) htag
    · exact Quiet.refl p

end QuietSteps

/-- What the state before the action of an iteration has of the state `p` before the iteration:
the output stage's operation type, and the user interface; the global operation type is `op`. -/
structure Reached (p : State) (op : OperationType) (q : State) : Prop where
  operationType : q.operationType = op
  own : q.SMU.operationType = p.SMU.operationType
  ui : QuietUi p.ui q.ui

theorem Quiet.reached {p q q' : State} {op : OperationType} (h : Quiet q q')
    (hq : Reached p op q) : Reached p op q' :=
  ⟨h.operationType.trans hq.operationType, h.smuType.trans hq.own, hq.ui.trans h.ui⟩

/-- The two types agree there if the derived one was the output stage's own before. -/
theorem Reached.agree {p q : State} {op : OperationType} (h : Reached p op q)
    (hop : op = p.SMU.operationType) : q.operationType = q.SMU.operationType :=
  calc q.operationType = op := h.operationType
    _ = p.SMU.operationType := hop
    _ = q.SMU.operationType := h.own.symm

/-! ## The knob, and what depends on no touch -/

/-- Commit a source value in the one or the other operation type. -/
def commitSource (SMU : ADCClass) (operationType : OperationType) (v : ℤ) : ADCClass :=
  match operationType with
  | .SOURCE_VOLTAGE => SMU.fltSetCommitVoltageSource v true
  | .SOURCE_CURRENT => SMU.fltSetCommitCurrentSource v

@[simp] theorem commitSource_operationType (SMU : ADCClass) (op : OperationType) (v : ℤ) :
    (commitSource SMU op v).operationType = op := by
  cases op <;> simp [commitSource]

@[simp] theorem commitSource_setValue (SMU : ADCClass) (op : OperationType) (v : ℤ) :
    (commitSource SMU op v).setValue_micro = v := by
  cases op <;> simp [commitSource]

@[simp] theorem commitSource_setLimit (SMU : ADCClass) (op : OperationType) (v : ℤ) :
    (commitSource SMU op v).setLimit_micro = SMU.setLimit_micro := by
  cases op <;> simp [commitSource]

@[simp] theorem commitSource_valueCommits (SMU : ADCClass) (op : OperationType) (v : ℤ) :
    (commitSource SMU op v).valueCommits = SMU.valueCommits ++ [⟨op, v⟩] := by
  cases op <;> simp [commitSource]

@[simp] theorem commitSource_limitCommits (SMU : ADCClass) (op : OperationType) (v : ℤ) :
    (commitSource SMU op v).limitCommits = SMU.limitCommits := by
  cases op <;> simp [commitSource]

/-- The callback of a dial leaves the user interface alone. -/
theorem dialCallback_ui (p : State) (set_or_limit : SetOrLimit) (called : Option Bool) :
    (dialCallback p set_or_limit called).ui = p.ui := by
  rcases called with _ | _ | _
  · rfl
  · unfold dialCallback closeSourceDCCallback
    cases set_or_limit with
    | SET =>
        simp only [Bool.false_eq_true, if_false]
        cases p.operationType <;> rfl
    | LIMIT =>
        simp only [Bool.false_eq_true, if_false]
        cases p.operationType <;> rfl
  · rfl

/-- A source dial commits by the global operation type. -/
theorem closeSourceDCCallback_set (p : State) :
    (closeSourceDCCallback p .SET false).SMU =
      commitSource p.SMU p.operationType (truncate (p.ui.SOURCE_DIAL.getMv * 1000)) := by
  unfold closeSourceDCCallback commitSource
  simp only [Bool.false_eq_true, if_false]
  cases p.operationType <;> rfl

/-- The knob is turned while it adjusts the source value. -/
def TurnTaken (p : State) (input : LoopInput) : Prop :=
  input.rotary.isSome = true ∧ p.rotaryFn = .rotaryChangedVoltCurrentFn ∧ turnCommits p.ui = true

instance (p : State) (input : LoopInput) : Decidable (TurnTaken p input) :=
  inferInstanceAs (Decidable (_ ∧ _ ∧ _))

/-- `p'` follows from `p` by committing a source value in an operation type. -/
structure Sourced (p p' : State) (op : OperationType) (v : ℤ) : Prop where
  functionType : p'.functionType = p.functionType
  operationType : p'.operationType = p.operationType
  sweepType : p'.FUNCTION_SWEEP.operationType = p.FUNCTION_SWEEP.operationType
  rangeCalls : p'.rangeCalls = p.rangeCalls
  ui : QuietUi p.ui p'.ui
  SMU : p'.SMU = commitSource p.SMU op v

theorem rotaryChangedVoltCurrentFn_sourced {p : State} (hcommits : turnCommits p.ui = true)
    (changeVal : ℚ) (millis : ℕ) :
    Sourced p (rotaryChangedVoltCurrentFn p changeVal millis) p.operationType
      (turnedValue p changeVal) := by
  have hui : QuietUi p.ui { p.ui with changeDigitTimeout := millis } :=
    ⟨rfl, SameDial.refl _, SameDial.refl _⟩
  have hvalue : turnedValue { p with ui := { p.ui with changeDigitTimeout := millis } } changeVal =
      turnedValue p changeVal := rfl
  unfold rotaryChangedVoltCurrentFn
  simp only [hcommits, if_true, hvalue]
  split
  · next hop => exact ⟨rfl, rfl, rfl, rfl, hui, by rw [hop]; rfl⟩
  · next hop => exact ⟨rfl, rfl, rfl, rfl, hui, by rw [hop]; rfl⟩

theorem rotaryHandle_cases (p : State) (input : LoopInput) :
    ¬ TurnTaken p input ∧ Quiet p (rotaryHandle p input) ∨
      TurnTaken p input ∧ Sourced p (rotaryHandle p input) p.operationType
        (turnedValue p (input.rotary.getD 0)) := by
  unfold rotaryHandle TurnTaken
  cases hrotary : input.rotary with
  | none => exact Or.inl ⟨fun h => absurd h.1 (by simp), Quiet.refl p⟩
  | some value =>
      simp only [Option.isSome_some, true_and, Option.getD_some]
      split
      · next hfn =>
          by_cases hcommits : turnCommits p.ui = true
          · exact Or.inr ⟨⟨hfn, hcommits⟩, rotaryChangedVoltCurrentFn_sourced hcommits value _⟩
          · refine Or.inl ⟨fun h => hcommits h.2, ?_⟩
            unfold rotaryChangedVoltCurrentFn
            simp only [hcommits]
            exact quiet_ui p ⟨rfl, SameDial.refl _, SameDial.refl _⟩
      · next hfn =>
          refine Or.inl ⟨fun h => by simp [hfn] at h, ?_⟩
          exact ⟨rfl, rfl, rfl, rfl, QuietUi.refl _, rfl, rfl, rfl, rfl, rfl⟩
      · next hfn => exact Or.inl ⟨fun h => by simp [hfn] at h, Quiet.refl p⟩
      · next hfn => exact Or.inl ⟨fun h => by simp [hfn] at h, Quiet.refl p⟩
      · next hfn => exact Or.inl ⟨fun h => by simp [hfn] at h, Quiet.refl p⟩

/-- The knob selects no function and leaves the sweep alone. -/
theorem rotaryHandle_functionType (p : State) (input : LoopInput) :
    (rotaryHandle p input).functionType = p.functionType := by
  rcases rotaryHandle_cases p input with ⟨-, hquiet⟩ | ⟨-, hsourced⟩
  · exact hquiet.functionType
  · exact hsourced.functionType

theorem rotaryHandle_sweep (p : State) (input : LoopInput) :
    (rotaryHandle p input).FUNCTION_SWEEP = p.FUNCTION_SWEEP := by
  unfold rotaryHandle
  cases input.rotary with
  | none => rfl
  | some value =>
      cases p.rotaryFn with
      | rotaryChangedVoltCurrentFn =>
          simp only [rotaryChangedVoltCurrentFn]
          by_cases hcommits : turnCommits p.ui = true
          · rw [if_pos hcommits]
            cases p.operationType <;> rfl
          · rw [if_neg hcommits]
      | FUNCTION_PULSE_rotaryEncChanged => rfl
      | rotaryChangedDontCareFn => rfl
      | DIGITIZER_rotaryEncChanged => rfl
      | LOGGER_rotaryChangedFn => rfl

/-- The output stage after the automatic change of the range in `operate`. -/
def autoRanged (p : State) (input : LoopInput) : ADCClass :=
  p.SMU.handleAutoCurrentRange (p.ui.settingsCurrentAutoRange ≥ 10000) input.calibrating
    input.milliAmpere

/-- `loopMain` runs for a sweep whose next value is due. -/
def SweepDue (p : State) (input : LoopInput) : Prop :=
  p.functionType = .SOURCE_SWEEP ∧ p.FUNCTION_SWEEP.due input.millis = true

instance (p : State) (input : LoopInput) : Decidable (SweepDue p input) :=
  inferInstanceAs (Decidable (_ ∧ _))

theorem sweepDue_rotaryHandle (p : State) (input : LoopInput) :
    SweepDue (rotaryHandle p input) input ↔ SweepDue p input := by
  unfold SweepDue
  rw [rotaryHandle_functionType, rotaryHandle_sweep]

/-- The value a sweep commits when it is due. -/
def sweptValue (p : State) (input : LoopInput) : ℤ :=
  truncate ((p.FUNCTION_SWEEP.nextValue input.millis).currentSweepValue * 1000)

/-- `p'` follows from `p` by `operate`. -/
structure Operated (p p' : State) (input : LoopInput) : Prop where
  functionType : p'.functionType = p.functionType
  operationType : p'.operationType = getOperationType p.functionType
  sweepType : p'.FUNCTION_SWEEP.operationType = p.FUNCTION_SWEEP.operationType
  rangeCalls : p'.rangeCalls = p.rangeCalls
  ui : QuietUi p.ui p'.ui
  SMU : ¬ SweepDue p input ∧ p'.SMU = autoRanged p input ∨
    SweepDue p input ∧ p'.SMU =
      commitSource (autoRanged p input) p.FUNCTION_SWEEP.operationType (sweptValue p input)

theorem operate_operated (p : State) (input : LoopInput) : Operated p (operate p input) input := by
  have hkeeping : QuietUi p.ui (p.ui.houseKeeping input.millis) ∧
      (p.ui.houseKeeping input.millis).settingsCurrentAutoRange =
        p.ui.settingsCurrentAutoRange := by
    unfold Ui.houseKeeping
    split_ifs
    · exact ⟨⟨rfl, SameDial.refl _, SameDial.refl _⟩, rfl⟩
    · exact ⟨QuietUi.refl _, rfl⟩
  obtain ⟨hui, hsetting⟩ := hkeeping
  unfold operate
  simp only [hsetting]
  by_cases hsweep : p.functionType = .SOURCE_SWEEP
  · rw [if_pos hsweep]
    refine ⟨rfl, rfl, ?_, rfl, hui, ?_⟩
    · exact FunctionSweepClass.handle_operationType _ _ _
    · have hcommit := FunctionSweepClass.handle_commits p.FUNCTION_SWEEP (autoRanged p input)
        input.millis
      rcases hcommit with ⟨hdue, heq⟩ | ⟨hdue, heq⟩
      · exact Or.inl ⟨fun h => hdue h.2, heq⟩
      · refine Or.inr ⟨⟨hsweep, hdue⟩, heq.trans ?_⟩
        unfold commitSource sweptValue
        cases p.FUNCTION_SWEEP.operationType <;> rfl
  · rw [if_neg hsweep]
    exact ⟨rfl, rfl, rfl, rfl, hui, Or.inl ⟨fun h => hsweep h.1, rfl⟩⟩

/-! ## The rule -/

/-- A property of states that does not depend on the user interface. -/
def IgnoresUi (P : State → Prop) : Prop := ∀ (p : State) (ui : Ui), P p → P { p with ui := ui }

/-- A property of states that depends at most on the dials of the user interface. -/
def KeptByMenu (P : State → Prop) : Prop :=
  ∀ (p : State) (ui : Ui), SameDial p.ui.SOURCE_DIAL ui.SOURCE_DIAL →
    SameDial p.ui.LIMIT_DIAL ui.LIMIT_DIAL → P p → P { p with ui := ui }

theorem IgnoresUi.keptByMenu {P : State → Prop} (h : IgnoresUi P) : KeptByMenu P :=
  fun p ui _ _ => h p ui

/-- What has to be shown of the menu to get from `Pre` to `Post` in an iteration with this input. -/
structure MenuRule (input : LoopInput) (Pre Post : State → Prop) : Prop where
  pre_kept : KeptByQuiet Pre
  post_kept : KeptByQuiet Post
  post_menu : KeptByMenu Post
  stay : ∀ p, Pre p → Post p
  menu : ∀ (p : State) (m : MainMenuClass) (f : FunctionType),
    p.ui.MAINMENU.touches input.inputTag = some f → Pre p →
      Post (closeMainMenuCallback { p with ui := { p.ui with MAINMENU := m } } f input.millis)

/-- What has to be shown where `loopMain` runs: of the range button and the dials as well. -/
structure ActionRule (input : LoopInput) (Pre Post : State → Prop) : Prop
    extends MenuRule input Pre Post where
  post_ui : IgnoresUi Post
  range : input.inputTag = .BUTTON_CUR_AUTO → input.pressed = true → ∀ p, Pre p →
    Post (rangeButton p input.millis)
  sourceDial : input.inputTag = .KEYBOARD_OK → ∀ p, Pre p → p.ui.SOURCE_DIAL.dialog = true →
    p.ui.SOURCE_DIAL.okDrawn = true → Post (closeSourceDCCallback p .SET false)
  limitDial : input.inputTag = .KEYBOARD_OK → ∀ p, Pre p → p.ui.LIMIT_DIAL.dialog = true →
    p.ui.LIMIT_DIAL.okDrawn = true → Post (closeSourceDCCallback p .LIMIT false)

namespace MenuRule

variable {input : LoopInput} {Pre Post : State → Prop}

/-- The buttons of the menu. -/
theorem menuHandleButtonAction (h : MenuRule input Pre Post) {p : State} (hp : Pre p) :
    Post (Program.menuHandleButtonAction p input) := by
  unfold Program.menuHandleButtonAction menuCallback
  cases hcalled : (p.ui.MAINMENU.handleButtonAction input.inputTag).2 with
  | none => exact h.post_menu p _ (SameDial.refl _) (SameDial.refl _) (h.stay p hp)
  | some f =>
      refine h.menu p _ f ?_ hp
      have hbutton := MainMenuClass.handleButtonAction_called hcalled
      have hclose : input.inputTag ≠ .MAIN_MENU_CLOSE := by
        intro htag
        rw [htag] at hbutton
        cases hbutton
      rw [MainMenuClass.touches, if_neg hclose, hbutton]

/-- The key that closes the menu. -/
theorem handleMenuScrolldown (h : MenuRule input Pre Post) {p : State} (hp : Pre p) :
    Post (Program.handleMenuScrolldown p input) := by
  unfold Program.handleMenuScrolldown menuCallback
  split_ifs
  · have hopened := openMainMenu_quiet p.ui
    exact h.post_menu p _ hopened.sourceDial hopened.limitDial (h.stay p hp)
  · cases hcalled : (p.ui.MAINMENU.render input.inputTag input.millis).2 with
    | none => exact h.post_menu p _ (SameDial.refl _) (SameDial.refl _) (h.stay p hp)
    | some f =>
        obtain ⟨htag, hf⟩ := MainMenuClass.render_called hcalled
        refine h.menu p _ f ?_ hp
        rw [MainMenuClass.touches, if_pos htag, hf]
  · exact h.stay p hp

/-- The trend graph and the logger: the menu alone. -/
theorem loopGraph (h : MenuRule input Pre Post) {p : State} (hp : Pre p) :
    Post (Program.loopGraph p input) := by
  unfold Program.loopGraph
  refine h.post_kept _ _ (buttonsHandle_quiet _ input) ?_
  by_cases hclose : input.inputTag = .MAIN_MENU_CLOSE
  · have hbutton : MainMenuClass.buttonFunction input.inputTag = none := by rw [hclose]; rfl
    exact h.post_kept _ _ (menuHandleButtonAction_quiet _ input hbutton)
      (h.handleMenuScrolldown hp)
  · exact h.menuHandleButtonAction
      (h.pre_kept _ _ (handleMenuScrolldown_quiet p input hclose) hp)

end MenuRule

namespace ActionRule

variable {input : LoopInput} {Pre Post : State → Prop}

/-- The buttons of the main screen. -/
theorem checkButtons (h : ActionRule input Pre Post) {p : State} (hp : Pre p) :
    Post (Program.checkButtons p input).1 := by
  unfold Program.checkButtons
  split_ifs with hidle
  · exact h.stay p hp
  · have hpressed : input.pressed = true := by
      rcases not_or.1 hidle with ⟨-, hpressed⟩
      exact Bool.eq_true_of_not_eq_false hpressed
    simp only
    split
    · exact h.post_ui p _ (h.stay p hp)
    · exact h.post_ui p _ (h.stay p hp)
    · next htag => exact h.range htag hpressed p hp
    · exact h.stay p hp

/-- A key of a dial, when it calls the callback for anything but a cancelled dial. -/
theorem checkKeypress_confirmed {d : DialClass} {tag : Tag}
    (h : (d.checkKeypress tag).2 = some false) :
    tag = .KEYBOARD_OK ∧ d.dialog = true ∧ d.okDrawn = true := by
  unfold DialClass.checkKeypress at h
  split_ifs at h with hcancel hok
  · cases h
  · exact ⟨hok.1.1, hok.2.1, hok.1.2⟩

/-- A dial that is cancelled, or not closed, leaves everything but the user interface alone. -/
theorem dialCallback_of_not_confirmed {p : State} {set_or_limit : SetOrLimit} {called : Option Bool}
    (h : called ≠ some false) : dialCallback p set_or_limit called = p := by
  rcases called with _ | _ | _
  · rfl
  · exact absurd rfl h
  · rfl

/-- The key that confirms a dial. -/
theorem dialsHandle (h : ActionRule input Pre Post) {p : State} (hp : Pre p) :
    Post (Program.dialsHandle p input) := by
  have hq := h.pre_kept _ _ (readSigns_quiet p input.display) hp
  unfold Program.dialsHandle
  generalize readSigns p input.display = q at hq
  have hcallback : ∀ (set_or_limit : SetOrLimit) (called : Option Bool),
      (called = some false → Post (closeSourceDCCallback q set_or_limit false)) →
      Post (dialCallback q set_or_limit called) := by
    intro set_or_limit called hconfirmed
    by_cases hcalled : called = some false
    · rw [hcalled]
      exact hconfirmed hcalled
    · rw [dialCallback_of_not_confirmed hcalled]
      exact h.stay q hq
  simp only
  split_ifs
  · refine h.post_ui _ _ (hcallback .SET _ fun hconfirmed => ?_)
    obtain ⟨htag, hdialog, hok⟩ := checkKeypress_confirmed hconfirmed
    exact h.sourceDial htag q hq hdialog hok
  · refine h.post_ui _ _ (hcallback .LIMIT _ fun hconfirmed => ?_)
    obtain ⟨htag, hdialog, hok⟩ := checkKeypress_confirmed hconfirmed
    exact h.limitDial htag q hq hdialog hok
  · exact h.stay q hq

/-- Without the key that confirms, a dial changes only itself. -/
theorem dialsHandle_after (h : ActionRule input Pre Post) {p : State}
    (htag : input.inputTag ≠ .KEYBOARD_OK) (hp : Post p) : Post (Program.dialsHandle p input) := by
  have hq := h.post_kept _ _ (readSigns_quiet p input.display) hp
  unfold Program.dialsHandle
  generalize readSigns p input.display = q at hq
  have hcallback : ∀ (set_or_limit : SetOrLimit) (d : DialClass),
      dialCallback q set_or_limit (d.checkKeypress input.inputTag).2 = q := fun _ _ =>
    dialCallback_of_not_confirmed fun hconfirmed => htag (checkKeypress_confirmed hconfirmed).1
  simp only [hcallback]
  split_ifs
  · exact h.post_ui _ _ hq
  · exact h.post_ui _ _ hq
  · exact hq

/-- The touch screen of `loopMain`, without the dials: for the key that confirms a dial nothing
happens yet, for other tags at most one action. -/
theorem touchMain (h : ActionRule input Pre Post) {p : State} (hp : Pre p) :
    (input.inputTag = .KEYBOARD_OK → Pre (Program.touchMain p input)) ∧
      Post (Program.touchMain p input) := by
  unfold Program.touchMain
  split_ifs
  · have hspecific : ∀ q, Quiet q (handleFunctionSpecifcButtonAction q
        (Program.checkButtons p input).2 input.inputTag input.millis) := fun q =>
      handleFunctionSpecifcButtonAction_quiet q _ input.inputTag input.millis
    have hquiet : input.inputTag ∉ mainButtons →
        Pre (Program.checkButtons p input).1 := fun htag =>
      h.pre_kept _ _ (checkButtons_quiet p input htag) hp
    by_cases hbutton : MainMenuClass.buttonFunction input.inputTag = none
    · have hmenu : ∀ q, Quiet q (Program.menuHandleButtonAction q input) := fun q =>
        menuHandleButtonAction_quiet q input hbutton
      by_cases hclose : input.inputTag = .MAIN_MENU_CLOSE
      · have hpre := hquiet (by rw [hclose]; decide)
        refine ⟨fun hok => absurd (hclose.symm.trans hok) (by decide), ?_⟩
        exact h.handleMenuScrolldown (h.pre_kept _ _ (hspecific _) (h.pre_kept _ _ (hmenu _) hpre))
      · have hscroll : ∀ q, Quiet q (Program.handleMenuScrolldown q input) := fun q =>
          handleMenuScrolldown_quiet q input hclose
        constructor
        · intro hok
          have hpre := hquiet (by rw [hok]; decide)
          exact h.pre_kept _ _ (hscroll _)
            (h.pre_kept _ _ (hspecific _) (h.pre_kept _ _ (hmenu _) hpre))
        · have hpost := h.checkButtons hp
          exact h.post_kept _ _ (hscroll _)
            (h.post_kept _ _ (hspecific _) (h.post_kept _ _ (hmenu _) hpost))
    · -- a button of the menu: none of the main screen, and not the one that closes the menu
      have hmain : input.inputTag ∉ mainButtons := by
        intro hmem
        refine hbutton ?_
        simp only [mainButtons, List.mem_cons, List.not_mem_nil, or_false] at hmem
        rcases hmem with htag | htag | htag <;> rw [htag] <;> rfl
      have hclose : input.inputTag ≠ .MAIN_MENU_CLOSE := fun htag => hbutton (by rw [htag]; rfl)
      have hpost := h.menuHandleButtonAction (hquiet hmain)
      refine ⟨fun hok => absurd (by rw [hok]; rfl) hbutton, ?_⟩
      exact h.post_kept _ _ (handleMenuScrolldown_quiet _ input hclose)
        (h.post_kept _ _ (hspecific _) hpost)
  · refine ⟨fun hok => ?_, h.handleMenuScrolldown hp⟩
    exact h.pre_kept _ _ (handleMenuScrolldown_quiet p input (by rw [hok]; decide)) hp
  · have hpre := h.pre_kept _ _ (renderSetingsPage_quiet p input) hp
    exact ⟨fun _ => hpre, h.stay _ hpre⟩

/-- What follows `operate` in `loopMain`. -/
theorem afterOperate (h : ActionRule input Pre Post) {p : State} (hp : Pre p) :
    Post (Program.dialsHandle (buttonsHandle (Program.touchMain p input) input) input) := by
  obtain ⟨hok, hpost⟩ := h.touchMain hp
  have hbuttons := buttonsHandle_quiet (Program.touchMain p input) input
  by_cases htag : input.inputTag = .KEYBOARD_OK
  · exact h.dialsHandle (h.pre_kept _ _ hbuttons (hok htag))
  · exact h.dialsHandle_after htag (h.post_kept _ _ hbuttons hpost)

end ActionRule

/-! ## The digitizer -/

theorem updateSettings_quiet (SMU : ADCClass) :
    SMU.updateSettings.operationType = SMU.operationType ∧
      SMU.updateSettings.setValue_micro = SMU.setValue_micro ∧
      SMU.updateSettings.setLimit_micro = SMU.setLimit_micro ∧
      SMU.updateSettings.limitCommits = SMU.limitCommits ∧
      SMU.updateSettings.valueCommits = SMU.valueCommits := by
  unfold ADCClass.updateSettings
  generalize SMU.updateSettingsWrites = ws
  induction ws generalizing SMU with
  | nil => exact ⟨rfl, rfl, rfl, rfl, rfl⟩
  | cons w ws ih => exact ih (SMU.write w)

theorem updateSmu_quiet (d : DigitizerClass) (SMU : ADCClass) :
    (d.updateSmuWhenVoltageCurrentFocusChange SMU).operationType = SMU.operationType ∧
      (d.updateSmuWhenVoltageCurrentFocusChange SMU).setValue_micro = SMU.setValue_micro ∧
      (d.updateSmuWhenVoltageCurrentFocusChange SMU).setLimit_micro = SMU.setLimit_micro ∧
      (d.updateSmuWhenVoltageCurrentFocusChange SMU).limitCommits = SMU.limitCommits ∧
      (d.updateSmuWhenVoltageCurrentFocusChange SMU).valueCommits = SMU.valueCommits := by
  unfold DigitizerClass.updateSmuWhenVoltageCurrentFocusChange
  simp only
  split_ifs
  · exact updateSettings_quiet _
  · exact updateSettings_quiet _

theorem closeFunction_quiet (p : State) : Quiet p (closeFunction p) := by
  unfold closeFunction
  simp only
  split
  · exact ⟨rfl, rfl, rfl, rfl, ⟨rfl, SameDial.refl _, SameDial.refl _⟩, rfl, rfl, rfl, rfl,
      rfl⟩
  · obtain ⟨htype, hvalue, hlimit, hcommits, hvalues⟩ := updateSettings_quiet
      ((p.SMU.enableVoltageMeasurement true).enableCurrentMeasurement true)
    exact ⟨rfl, rfl, rfl, rfl, ⟨rfl, SameDial.refl _, SameDial.refl _⟩, htype, hvalue, hlimit,
      hcommits, hvalues⟩
  · exact ⟨rfl, rfl, rfl, rfl, ⟨rfl, SameDial.refl _, SameDial.refl _⟩, rfl, rfl, rfl, rfl,
      rfl⟩
  · exact ⟨rfl, rfl, rfl, rfl, ⟨rfl, SameDial.refl _, SameDial.refl _⟩, rfl, rfl, rfl, rfl,
      rfl⟩
  · exact ⟨rfl, rfl, rfl, rfl, ⟨rfl, SameDial.refl _, SameDial.refl _⟩, rfl, rfl, rfl, rfl,
      rfl⟩

theorem loopDigitize_quiet (p : State) (menuActive : Bool) :
    Quiet p { p with
      DIGITIZER := (p.DIGITIZER.loopDigitize p.SMU menuActive).1
      SMU := (p.DIGITIZER.loopDigitize p.SMU menuActive).2 } := by
  have hsmu : ∃ d SMU, p.DIGITIZER.loopDigitize p.SMU menuActive = (d, SMU) ∧
      (SMU = p.SMU ∨ SMU = p.DIGITIZER.updateSmuWhenVoltageCurrentFocusChange p.SMU) := by
    unfold DigitizerClass.loopDigitize
    by_cases hstart : p.DIGITIZER.digitize = false ∧ menuActive = false
    · rw [if_pos hstart]
      simp only
      split
      · exact ⟨_, _, rfl, Or.inr rfl⟩
      · exact ⟨_, _, rfl, Or.inr rfl⟩
    · rw [if_neg hstart]
      simp only
      split
      · exact ⟨_, _, rfl, Or.inl rfl⟩
      · exact ⟨_, _, rfl, Or.inl rfl⟩
  obtain ⟨d, SMU, heq, rfl | rfl⟩ := hsmu
  · rw [heq]
    exact ⟨rfl, rfl, rfl, rfl, QuietUi.refl _, rfl, rfl, rfl, rfl, rfl⟩
  · rw [heq]
    obtain ⟨htype, hvalue, hlimit, hcommits, hvalues⟩ := updateSmu_quiet p.DIGITIZER p.SMU
    exact ⟨rfl, rfl, rfl, rfl, QuietUi.refl _, htype, hvalue, hlimit, hcommits, hvalues⟩

theorem MenuRule.loopDigitizer {input : LoopInput} {Pre Post : State → Prop}
    (h : MenuRule input Pre Post) {p : State} (hp : Pre p) :
    Post (Program.loopDigitizer p input) := by
  have hstart := h.pre_kept _ _ (loopDigitize_quiet p p.ui.MAINMENU.active) hp
  unfold Program.loopDigitizer
  generalize p.DIGITIZER.loopDigitize p.SMU p.ui.MAINMENU.active = started at hstart
  simp only
  have htimer : ∀ (q : State) (t : ℤ), Quiet q { q with samplesUpdateTimer := t } := fun _ _ =>
    ⟨rfl, rfl, rfl, rfl, QuietUi.refl _, rfl, rfl, rfl, rfl, rfl⟩
  have hgraph : ∀ (q : State) (d : DigitizerClass), Quiet q { q with DIGITIZER := d } := fun _ _ =>
    ⟨rfl, rfl, rfl, rfl, QuietUi.refl _, rfl, rfl, rfl, rfl, rfl⟩
  have hpre := h.pre_kept _ _ (htimer _ (wrap32 input.millis)) hstart
  -- the menu's own key acts after its buttons, so one of the two is quiet
  have hscroll : ∀ q, (input.inputTag = .MAIN_MENU_CLOSE → Pre q) → Post q →
      Post (Program.handleMenuScrolldown (buttonsHandle q input) input) := by
    intro q hq hpost
    by_cases hclose : input.inputTag = .MAIN_MENU_CLOSE
    · exact h.handleMenuScrolldown (h.pre_kept _ _ (buttonsHandle_quiet q input) (hq hclose))
    · exact h.post_kept _ _ (handleMenuScrolldown_quiet _ input hclose)
        (h.post_kept _ _ (buttonsHandle_quiet q input) hpost)
  split_ifs
  · refine h.post_kept _ _ (hgraph _ _) (hscroll _ (fun hclose => ?_) ?_)
    · exact h.pre_kept _ _ (menuHandleButtonAction_quiet _ input (by rw [hclose]; rfl)) hpre
    · exact h.menuHandleButtonAction hpre
  · exact h.post_kept _ _ (hgraph _ _) (hscroll _ (fun _ => hpre) (h.stay _ hpre))
  · exact h.stay _ hstart

/-- Where `loopMain` does not run, the menu alone acts. -/
theorem loop_other {input : LoopInput} {Pre Post : State → Prop} {p : State}
    (hother : runsLoopMain p.functionType = false) (h : MenuRule input Pre Post)
    (hpre : Pre (rotaryHandle p input)) : Post (loop p input) := by
  rw [← rotaryHandle_functionType p input] at hother
  unfold loop
  simp only
  generalize rotaryHandle p input = q at hother hpre
  split
  · exact h.loopDigitizer hpre
  · exact h.loopGraph hpre
  · exact h.loopGraph hpre
  · next hdigitize hgraph hlogger =>
      cases hf : q.functionType <;> simp_all [runsLoopMain]

theorem loop_main {p : State} (hmain : runsLoopMain p.functionType = true) (input : LoopInput) :
    loop p input = loopMain (rotaryHandle p input) input := by
  rw [← rotaryHandle_functionType p input] at hmain
  unfold loop
  simp only
  generalize rotaryHandle p input = q at hmain
  split
  · next hf =>
      rw [hf] at hmain
      cases hmain
  · next hf =>
      rw [hf] at hmain
      cases hmain
  · next hf =>
      rw [hf] at hmain
      cases hmain
  · rfl

/-- The rule for an iteration: what precedes the actions is reached after the knob, and in `loopMain`
after `operate`. -/
theorem loop_rule {input : LoopInput} {Pre PreMain Post : State → Prop} (p : State)
    (hmenu : runsLoopMain p.functionType = false → MenuRule input Pre Post)
    (hother : runsLoopMain p.functionType = false → Pre (rotaryHandle p input))
    (haction : runsLoopMain p.functionType = true → ActionRule input PreMain Post)
    (hmain : runsLoopMain p.functionType = true → PreMain (operate (rotaryHandle p input) input)) :
    Post (loop p input) := by
  cases hruns : runsLoopMain p.functionType with
  | false => exact loop_other hruns (hmenu hruns) (hother hruns)
  | true =>
      rw [loop_main hruns]
      exact (haction hruns).afterOperate (hmain hruns)

end Program
end PoorMansSmu
