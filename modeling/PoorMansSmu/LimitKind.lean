import PoorMansSmu.OperationSync

/-!
# LimitKind — one stored limit for two units

`setLimit_micro` holds a current while a voltage is sourced and a voltage while a current is sourced.
Switches of the range commit it again, by the operation type they are given.  So it keeps its unit as
long as the operation type does not change without a new limit, and every switch and every dial goes
by the output stage's own operation type.
-/

namespace PoorMansSmu
namespace Program

open SmuHal FrontPanel Calibration Run

/-! ## The output stage -/

/-- Every limit committed had the unit of the commit, and the last one is the stored one, committed
as what limits the operation type. -/
structure LimitMatches (s : ADCClass) : Prop where
  units : ∀ c ∈ s.limitCommits, c.value.quantity = c.kind
  last : s.limitCommits.getLast? = some ⟨s.operationType.limitQuantity, s.setLimit_micro⟩

theorem limitMatches_iff (s : ADCClass) :
    LimitMatches s ↔ (∀ c ∈ s.limitCommits, c.value.quantity = c.kind) ∧
      s.limitCommits.getLast? = some ⟨s.operationType.limitQuantity, s.setLimit_micro⟩ :=
  ⟨fun h => ⟨h.units, h.last⟩, fun h => ⟨h.1, h.2⟩⟩

instance (s : ADCClass) : Decidable (LimitMatches s) := decidable_of_iff' _ (limitMatches_iff s)

namespace LimitMatches

variable {s s' : ADCClass}

/-- The stored limit has the unit of what limits the operation type. -/
theorem quantity (h : LimitMatches s) :
    s.setLimit_micro.quantity = s.operationType.limitQuantity :=
  h.units _ (List.mem_of_getLast? h.last)

theorem of_eq (h : LimitMatches s) (htype : s'.operationType = s.operationType)
    (hlimit : s'.setLimit_micro = s.setLimit_micro)
    (hcommits : s'.limitCommits = s.limitCommits) : LimitMatches s' where
  units := by
    rw [hcommits]
    exact h.units
  last := by
    rw [hcommits, htype, hlimit]
    exact h.last

/-- One more limit is committed, of the unit it is committed as; it is the one that limits the
operation type. -/
theorem commit (hunits : ∀ c ∈ s.limitCommits, c.value.quantity = c.kind) {m : Micro}
    (hcommits : s'.limitCommits = s.limitCommits ++ [⟨m.quantity, m⟩])
    (hlimit : s'.setLimit_micro = m)
    (htype : s'.operationType.limitQuantity = m.quantity) : LimitMatches s' where
  units := by
    rw [hcommits]
    intro c hc
    rcases List.mem_append.1 hc with hc | hc
    · exact hunits c hc
    · rw [List.mem_singleton.1 hc]
  last := by
    rw [hcommits, List.getLast?_concat, htype, hlimit]

theorem currentLimit (h : LimitMatches s) (hop : s.operationType = .SOURCE_VOLTAGE) {limit : Micro}
    (hlimit : limit.quantity = .microAmpere) : LimitMatches (s.fltSetCommitCurrentLimit limit) := by
  refine commit h.units (m := limit) ?_ (s.currentLimit_setLimit limit) ?_
  · rw [s.currentLimit_limitCommits, hlimit]
  · rw [s.currentLimit_operationType, hop, hlimit]
    rfl

theorem voltageLimit (h : ∀ c ∈ s.limitCommits, c.value.quantity = c.kind)
    (hop : s.operationType = .SOURCE_CURRENT) {limit : Micro}
    (hlimit : limit.quantity = .microVolt) : LimitMatches (s.fltSetCommitVoltageLimit limit) := by
  refine commit h (m := limit) ?_ (s.voltageLimit_setLimit limit) ?_
  · rw [s.voltageLimit_limitCommits, hlimit]
  · rw [s.voltageLimit_operationType, hop, hlimit]
    rfl

/-- A source value of the same operation type. -/
theorem commitSource (h : LimitMatches s) (v : ℤ) {o : OperationType}
    (hop : o = s.operationType) : LimitMatches (commitSource s o v) :=
  h.of_eq (by rw [commitSource_operationType, hop]) (commitSource_setLimit s o v)
    (commitSource_limitCommits s o v)

/-- A switch of the range by the own operation type: the stored limit is committed again only as
what it is. -/
theorem setCurrentRange (h : LimitMatches s) (range : CurrentRange) {op : OperationType}
    (hop : op = s.operationType) : LimitMatches (s.setCurrentRange range op) := by
  have hquantity := h.quantity
  subst hop
  have htype := s.setCurrentRange_own_operationType range
  have hlimit := s.setCurrentRange_setLimit range s.operationType
  have hcommits := s.setCurrentRange_limitCommits range s.operationType
  by_cases hop : s.operationType = .SOURCE_VOLTAGE
  · rw [hop] at hquantity
    rw [if_pos hop] at hcommits
    refine commit h.units (m := s.setLimit_micro) ?_ hlimit ?_
    · rw [hcommits, hquantity]
      rfl
    · rw [htype, hop, hquantity]
  · rw [if_neg hop] at hcommits
    exact h.of_eq htype hlimit hcommits

theorem autoSwitch (h : LimitMatches s) (range : CurrentRange) :
    LimitMatches (s.autoSwitch range) := by
  have hswitched := h.setCurrentRange range rfl
  unfold ADCClass.autoSwitch
  simp only
  split_ifs with hop
  · refine hswitched.currentLimit hop ?_
    rw [hswitched.quantity, hop]
    rfl
  · exact hswitched

theorem handleAutoCurrentRange (h : LimitMatches s) (enabled calibrating : Bool)
    (milliAmpere : ℚ) : LimitMatches (s.handleAutoCurrentRange enabled calibrating milliAmpere) :=
  s.handleAutoCurrentRange_keeps (P := LimitMatches) (fun _ range hs => hs.autoSwitch range)
    enabled calibrating milliAmpere h

end LimitMatches

/-! ## Events -/

/-- The menu does not open a function by an operation type that is not the output stage's own, when
opening it switches the range. -/
def MenuKeepsLimit (p : State) (op : OperationType) (input : LoopInput) : Prop :=
  ∀ f, p.ui.MAINMENU.touches input.inputTag = some f →
    (f = .SOURCE_PULSE → op = p.SMU.operationType) ∧
      (f = .SOURCE_DC_CURRENT → p.SMU.operationType = .SOURCE_CURRENT → op = .SOURCE_CURRENT)

instance (p : State) (op : OperationType) (input : LoopInput) :
    Decidable (MenuKeepsLimit p op input) :=
  inferInstanceAs (Decidable (∀ f, _ = some f → _))

/-- What `loopMain` commits by the operation type `op` it derives is of the output stage's own, and a
limit dial was opened for it. -/
def MainKeepsLimit (p : State) (op : OperationType) (input : LoopInput) : Prop :=
  MenuKeepsLimit p op input ∧
    (SweepDue p input → p.FUNCTION_SWEEP.operationType = p.SMU.operationType) ∧
    (input.inputTag = .BUTTON_CUR_AUTO → input.pressed = true → op = p.SMU.operationType) ∧
    (input.inputTag = .KEYBOARD_OK → p.ui.SOURCE_DIAL.dialog = true →
      p.ui.SOURCE_DIAL.okDrawn = true → op = p.SMU.operationType) ∧
    (input.inputTag = .KEYBOARD_OK → p.ui.LIMIT_DIAL.dialog = true →
      p.ui.LIMIT_DIAL.okDrawn = true →
        op = p.SMU.operationType ∧ p.ui.LIMIT_DIAL.vol_cur_type = p.SMU.operationType)

instance (p : State) (op : OperationType) (input : LoopInput) :
    Decidable (MainKeepsLimit p op input) :=
  inferInstanceAs (Decidable (_ ∧ _ ∧ _ ∧ _ ∧ _))

/-- No value is sourced, and no range switched, by an operation type that is not the output stage's
own, and a limit is set only by the command for what limits it. -/
def KeepsLimit (p : State) : Event → Prop
  | .scpi (.sourceVoltageSCPI (some _)) => p.SMU.operationType = .SOURCE_VOLTAGE
  | .scpi (.sourceCurrentSCPI (some _)) =>
      p.SMU.operationType = .SOURCE_CURRENT ∧ p.operationType = .SOURCE_CURRENT
  | .scpi (.sourceVoltageILimitSCPI (some _)) => p.SMU.operationType = .SOURCE_VOLTAGE
  | .scpi (.sourceCurrentVLimitSCPI (some _)) => p.SMU.operationType = .SOURCE_CURRENT
  | .scpi _ => True
  | .loop input =>
      (TurnTaken p input → p.operationType = p.SMU.operationType) ∧
        (runsLoopMain p.functionType = false → MenuKeepsLimit p p.operationType input) ∧
        (runsLoopMain p.functionType = true →
          MainKeepsLimit p (getOperationType p.functionType) input)
  | .pulseTimer =>
      p.FUNCTION_PULSE.myPulseTimer = true →
        p.FUNCTION_PULSE.operationType = p.SMU.operationType
  | .bufferFull => True

instance decidableKeepsLimit (p : State) : ∀ e, Decidable (KeepsLimit p e)
  | .scpi (.sourceVoltageSCPI none) => isTrue trivial
  | .scpi (.sourceVoltageSCPI (some _)) => inferInstanceAs (Decidable (_ = _))
  | .scpi (.sourceCurrentSCPI none) => isTrue trivial
  | .scpi (.sourceCurrentSCPI (some _)) => inferInstanceAs (Decidable (_ ∧ _))
  | .scpi (.sourceVoltageILimitSCPI none) => isTrue trivial
  | .scpi (.sourceVoltageILimitSCPI (some _)) => inferInstanceAs (Decidable (_ = _))
  | .scpi (.sourceCurrentVLimitSCPI none) => isTrue trivial
  | .scpi (.sourceCurrentVLimitSCPI (some _)) => inferInstanceAs (Decidable (_ = _))
  | .loop _ => inferInstanceAs (Decidable (_ ∧ (_ → _) ∧ (_ → _)))
  | .pulseTimer => inferInstanceAs (Decidable (_ → _))
  | .bufferFull => isTrue trivial

/-! ## Selecting a function -/

/-- The stored limit is in order. -/
def LimitInv (p : State) : Prop := LimitMatches p.SMU

theorem Quiet.limitInv {p p' : State} (h : Quiet p p') (hp : LimitInv p) : LimitInv p' :=
  LimitMatches.of_eq hp h.smuType h.setLimit h.limitCommits

theorem useFeedback_limitMatches {s : ADCClass} (h : LimitMatches s) (on : Bool) :
    LimitMatches (s.setGpio 0 on) :=
  h.of_eq (s.setGpio_operationType 0 on) (s.setGpio_setLimit 0 on) (s.setGpio_limitCommits 0 on)

/-- Selecting the voltage source commits a current limit. -/
theorem openDCVoltage_limitInv {p : State} (hp : LimitInv p) : LimitInv (openDCVoltage p) := by
  have hfeedback := useFeedback_limitMatches hp false
  -- the limit committed last decides, whatever was committed before
  have hsourced : ∀ (s : ADCClass) (v : ℤ) (limit : Micro), LimitMatches s →
      limit.quantity = .microAmpere →
      LimitMatches ((s.fltSetCommitVoltageSource v true).fltSetCommitCurrentLimit limit) := by
    intro s v limit hs hlimit
    refine LimitMatches.commit (s := s.fltSetCommitVoltageSource v true) (m := limit) ?_ ?_ ?_ ?_
    · rw [s.voltageSource_limitCommits]
      exact hs.units
    · rw [ADCClass.currentLimit_limitCommits, hlimit]
    · exact ADCClass.currentLimit_setLimit _ limit
    · rw [ADCClass.currentLimit_operationType, s.voltageSource_operationType, hlimit]
      rfl
  unfold LimitInv
  rw [openDCVoltage_SMU]
  split_ifs with hop
  · refine hsourced _ _ _ hfeedback ?_
    rw [LimitMatches.quantity hp, hop]
    rfl
  · exact hsourced _ _ _ hfeedback rfl

/-- A current committed with the range it needs: the limit committed on the way has its unit, unless
the range is switched for a voltage source while a current is sourced. -/
theorem fltCommitCurrentSourceAutoRange_units {p : State} (hp : LimitInv p)
    (hop : p.SMU.operationType = .SOURCE_CURRENT → p.operationType = .SOURCE_CURRENT) (uV : ℤ) :
    ∀ c ∈ (fltCommitCurrentSourceAutoRange p uV true).SMU.limitCommits,
      c.value.quantity = c.kind := by
  have hswitched : ∀ range, ∀ c ∈ (p.SMU.setCurrentRange range p.operationType).limitCommits,
      c.value.quantity = c.kind := by
    intro range
    rw [ADCClass.setCurrentRange_limitCommits]
    split_ifs with hvoltage
    · -- the limit is committed again as a current: a voltage is sourced, so it is one
      have hown : p.SMU.operationType = .SOURCE_VOLTAGE := by
        cases hsmu : p.SMU.operationType with
        | SOURCE_VOLTAGE => rfl
        | SOURCE_CURRENT => exact absurd ((hop hsmu).symm.trans hvoltage) (by decide)
      intro c hc
      rcases List.mem_append.1 hc with hc | hc
      · exact hp.units c hc
      · rw [List.mem_singleton.1 hc, hp.quantity, hown]
        rfl
    · exact hp.units
  unfold fltCommitCurrentSourceAutoRange
  simp only [if_true, ADCClass.currentSource_limitCommits]
  split_ifs
  · exact hswitched .MILLIAMP10
  · exact hswitched .AMP1

/-- Selecting the current source commits a voltage limit. -/
theorem openDCCurrent_limitInv {p : State} (hp : LimitInv p)
    (hop : p.SMU.operationType = .SOURCE_CURRENT → p.operationType = .SOURCE_CURRENT) :
    LimitInv (openDCCurrent p) := by
  -- the range may be switched on the way, which commits the old limit once more
  have hsourced : ∀ (q : State) (v : ℤ) (limit : Micro), LimitInv q →
      (q.SMU.operationType = .SOURCE_CURRENT → q.operationType = .SOURCE_CURRENT) →
      limit.quantity = .microVolt →
      LimitMatches
        ((fltCommitCurrentSourceAutoRange q v true).SMU.fltSetCommitVoltageLimit limit) := by
    intro q v limit hq hopq hlimit
    exact LimitMatches.voltageLimit (fltCommitCurrentSourceAutoRange_units hq hopq v)
      (fltCommitCurrentSourceAutoRange_operationType q v true) hlimit
  have hfeedback : LimitInv (useCurrentFeedback p) := useFeedback_limitMatches hp true
  have hown : (useCurrentFeedback p).SMU.operationType = p.SMU.operationType :=
    p.SMU.setGpio_operationType 0 true
  rw [← hown] at hop
  unfold LimitInv
  rw [openDCCurrent_SMU]
  split_ifs with hcurrent
  · refine hsourced _ _ _ hfeedback hop ?_
    rw [LimitMatches.quantity hp, hcurrent]
    rfl
  · exact hsourced _ _ _ hfeedback hop rfl

theorem closeMainMenuCallback_limitInv {p : State} (hp : LimitInv p) (f : FunctionType)
    (millis : ℕ) (hpulse : f = .SOURCE_PULSE → p.operationType = p.SMU.operationType)
    (hcurrent : f = .SOURCE_DC_CURRENT → p.SMU.operationType = .SOURCE_CURRENT →
      p.operationType = .SOURCE_CURRENT) : LimitInv (closeMainMenuCallback p f millis) := by
  have hclose := closeFunction_quiet p
  have hq := hclose.limitInv hp
  unfold closeMainMenuCallback
  generalize closeFunction p = q at hclose hq
  rw [← hclose.operationType, ← hclose.smuType] at hpulse hcurrent
  cases f with
  | SOURCE_PULSE => exact LimitMatches.setCurrentRange hq .AMP1 (hpulse rfl)
  | SOURCE_DC_VOLTAGE => exact openDCVoltage_limitInv hq
  | SOURCE_DC_CURRENT => exact openDCCurrent_limitInv hq (hcurrent rfl)
  | DIGITIZE =>
      have hopened : (openDigitizer q).SMU =
          q.DIGITIZER.updateSmuWhenVoltageCurrentFocusChange q.SMU := rfl
      obtain ⟨htype, -, hlimit, hcommits, -⟩ := updateSmu_quiet q.DIGITIZER q.SMU
      rw [← hopened] at htype hlimit hcommits
      have hmatches : LimitMatches (openDigitizer q).SMU :=
        LimitMatches.of_eq hq htype hlimit hcommits
      exact hmatches
  | SOURCE_SWEEP => exact hq
  | MEASURE_RESISTANCE => exact hq
  | SHOWSETTINGS => exact hq
  | GRAPH => exact hq
  | DATALOGGER => exact hq

/-! ## Iterations -/

/-- Before the action of an iteration. -/
def BeforeLimit (p : State) (op : OperationType) (q : State) : Prop := LimitInv q ∧ Reached p op q

theorem menuRule_limitInv {p : State} {op : OperationType} {input : LoopInput}
    (hok : MenuKeepsLimit p op input) : MenuRule input (BeforeLimit p op) LimitInv where
  pre_kept := fun _ _ h hq => ⟨h.limitInv hq.1, h.reached hq.2⟩
  post_kept := fun _ _ h hq => h.limitInv hq
  post_menu := IgnoresUi.keptByMenu fun _ _ hq => hq
  stay := fun _ hq => hq.1
  menu := by
    intro q m f htouch hq
    obtain ⟨hinv, hreached⟩ := hq
    rw [hreached.ui.touches] at htouch
    obtain ⟨hpulse, hcurrent⟩ := hok f htouch
    refine closeMainMenuCallback_limitInv (p := { q with ui := { q.ui with MAINMENU := m } })
      hinv f input.millis (fun hf => ?_) fun hf hown => ?_
    · exact hreached.agree (hpulse hf)
    · exact hreached.operationType.trans (hcurrent hf (hreached.own.symm.trans hown))

theorem rangeButton_limitInv {p : State} (hp : LimitInv p)
    (hop : p.operationType = p.SMU.operationType) (millis : ℕ) : LimitInv (rangeButton p millis) := by
  unfold rangeButton
  by_cases hdue : elapsed p.ui.timeSinceLastChange 500 millis = true
  · rw [if_pos hdue]
    exact LimitMatches.setCurrentRange hp _ hop
  · rw [if_neg hdue]
    exact hp

/-- A limit dial commits what limits the operation type it was opened for. -/
theorem closeSourceDCCallback_limit_limitInv {p : State} (hp : LimitInv p)
    (hop : p.operationType = p.SMU.operationType)
    (hdial : p.ui.LIMIT_DIAL.vol_cur_type = p.SMU.operationType) :
    LimitInv (closeSourceDCCallback p .LIMIT false) := by
  have hquantity : p.ui.LIMIT_DIAL.limitQuantity = p.SMU.operationType.limitQuantity :=
    congrArg OperationType.limitQuantity hdial
  unfold closeSourceDCCallback LimitInv
  simp only [Bool.false_eq_true, if_false]
  split
  · next hvoltage =>
      have hown := hop.symm.trans hvoltage
      rw [hown] at hquantity
      exact hp.currentLimit hown hquantity
  · next hcurrent =>
      have hown := hop.symm.trans hcurrent
      rw [hown] at hquantity
      exact LimitMatches.voltageLimit hp.units hown hquantity

theorem actionRule_limitInv {p : State} {op : OperationType} {input : LoopInput}
    (hok : MainKeepsLimit p op input) : ActionRule input (BeforeLimit p op) LimitInv where
  toMenuRule := menuRule_limitInv hok.1
  post_ui := fun _ _ hq => hq
  range := by
    intro htag hpressed q hq
    obtain ⟨-, -, hrange, -, -⟩ := hok
    have hop := hrange htag hpressed
    exact rangeButton_limitInv hq.1 (hq.2.agree hop) _
  sourceDial := by
    intro htag q hq hdialog hdrawn
    obtain ⟨-, -, -, hsource, -⟩ := hok
    have hdial := hq.2.ui.sourceDial
    have hop := hsource htag (hdial.dialog hdialog) (hdial.okDrawn.symm.trans hdrawn)
    change LimitMatches _
    rw [closeSourceDCCallback_set]
    exact LimitMatches.commitSource hq.1 _ (hq.2.agree hop)
  limitDial := by
    intro htag q hq hdialog hdrawn
    obtain ⟨-, -, -, -, hlimit⟩ := hok
    have hdial := hq.2.ui.limitDial
    obtain ⟨hop, htype⟩ :=
      hlimit htag (hdial.dialog hdialog) (hdial.okDrawn.symm.trans hdrawn)
    refine closeSourceDCCallback_limit_limitInv hq.1 ?_ ?_
    · exact hq.2.agree hop
    · exact hdial.vol_cur_type.trans (htype.trans hq.2.own.symm)

/-- `operate` may switch the range by the output stage's own operation type, and commit a value of
the sweep. -/
theorem Operated.beforeLimit {p q q' : State} {op : OperationType} {input : LoopInput}
    (h : Operated q q' input) (hq : LimitInv q) (hreached : Reached p op q)
    (hsweep : SweepDue q input → q.FUNCTION_SWEEP.operationType = q.SMU.operationType) :
    BeforeLimit p (getOperationType q.functionType) q' := by
  have hranged : LimitMatches (autoRanged q input) :=
    LimitMatches.handleAutoCurrentRange hq _ input.calibrating input.milliAmpere
  have hown : (autoRanged q input).operationType = q.SMU.operationType :=
    q.SMU.handleAutoCurrentRange_operationType _ _ _
  -- without a sweep value the range is all that changes
  have hsmu : LimitMatches q'.SMU ∧ q'.SMU.operationType = q.SMU.operationType := by
    rcases h.SMU with ⟨-, heq⟩ | ⟨hdue, heq⟩
    · rw [heq]
      exact ⟨hranged, hown⟩
    · have hop := (hsweep hdue).trans hown.symm
      rw [heq, commitSource_operationType]
      exact ⟨hranged.commitSource _ hop, hop.trans hown⟩
  exact ⟨hsmu.1, h.operationType, hsmu.2.trans hreached.own, hreached.ui.trans h.ui⟩

theorem loop_limitInv {p : State} (hp : LimitInv p) {input : LoopInput}
    (hok : KeepsLimit p (.loop input)) : LimitInv (loop p input) := by
  obtain ⟨hturn, hmenu, hmain⟩ := hok
  have hturned : BeforeLimit p p.operationType (rotaryHandle p input) := by
    rcases rotaryHandle_cases p input with ⟨-, hquiet⟩ | ⟨hturn', hsourced⟩
    · exact ⟨hquiet.limitInv hp, hquiet.operationType, hquiet.smuType, hquiet.ui⟩
    · have hop := hturn hturn'
      refine ⟨?_, hsourced.operationType, ?_, hsourced.ui⟩
      · change LimitMatches _
        rw [hsourced.SMU]
        exact LimitMatches.commitSource hp _ hop
      · rw [hsourced.SMU, commitSource_operationType, hop]
  obtain ⟨hinv, hreached⟩ := hturned
  have hfunction := rotaryHandle_functionType p input
  have hsweep := rotaryHandle_sweep p input
  have hdue := sweepDue_rotaryHandle p input
  refine loop_rule p (fun hother => menuRule_limitInv (hmenu hother)) (fun _ => ⟨hinv, hreached⟩)
    (fun hruns => actionRule_limitInv (hmain hruns)) fun hruns => ?_
  have hoperated := operate_operated (rotaryHandle p input) input
  rw [← hfunction]
  refine hoperated.beforeLimit hinv hreached fun hdue' => ?_
  obtain ⟨-, hswept, -⟩ := hmain hruns
  rw [hsweep, hreached.own]
  exact hswept (hdue.1 hdue')

/-! ## Runs -/

theorem scpi_limitInv {p : State} (hp : LimitInv p) (command : ScpiCommand)
    (hok : KeepsLimit p (.scpi command)) : LimitInv (scpi p command) := by
  cases command with
  | sourceVoltageSCPI parameter =>
      cases parameter with
      | none => exact hp
      | some mv =>
          have hfeedback : LimitMatches (p.SMU.setGpio 0 false) := useFeedback_limitMatches hp false
          refine hfeedback.commitSource (wrap32 (mv * 1000)) (o := .SOURCE_VOLTAGE) ?_
          rw [p.SMU.setGpio_operationType]
          exact hok.symm
  | sourceCurrentSCPI parameter =>
      cases parameter with
      | none => exact hp
      | some uA =>
          have hfeedback : LimitMatches (p.SMU.setGpio 0 true) := useFeedback_limitMatches hp true
          obtain ⟨hown, hop⟩ := hok
          have hagree : p.operationType = (p.SMU.setGpio 0 true).operationType := by
            rw [p.SMU.setGpio_operationType, hop, hown]
          have hswitched : ∀ range, LimitMatches
              (commitSource ((p.SMU.setGpio 0 true).setCurrentRange range p.operationType)
                .SOURCE_CURRENT (uA * 1000)) := by
            intro range
            refine (hfeedback.setCurrentRange range hagree).commitSource _ ?_
            rw [hagree, ADCClass.setCurrentRange_own_operationType, ← hagree, hop]
          change LimitMatches (fltCommitCurrentSourceAutoRange _ _ true).SMU
          unfold fltCommitCurrentSourceAutoRange
          simp only [if_true]
          split_ifs
          · exact hswitched .MILLIAMP10
          · exact hswitched .AMP1
  | sourceVoltageILimitSCPI parameter =>
      cases parameter with
      | none => exact hp
      | some uA => exact LimitMatches.currentLimit hp hok rfl
  | sourceCurrentVLimitSCPI parameter =>
      cases parameter with
      | none => exact hp
      | some mV => exact LimitMatches.voltageLimit hp.units hok rfl

theorem step_limitInv (p : State) (e : Event) (hp : LimitInv p) (hok : KeepsLimit p e) :
    LimitInv (step p e) := by
  cases e with
  | scpi command => exact scpi_limitInv hp command hok
  | loop input => exact loop_limitInv hp hok
  | pulseTimer =>
      simp only [step]
      split_ifs with hrunning
      · have hop := hok hrunning
        obtain ⟨htype, -, hlimit, hcommits⟩ :=
          FunctionPulseClass.sourcePulse_commits p.FUNCTION_PULSE p.SMU
        exact LimitMatches.of_eq hp (htype.trans hop) hlimit hcommits
      · exact hp
  | bufferFull => exact hp

section Boot

variable (V_CALIBRATION C_CALIBRATION : DacComp) (adc : ℕ → ℕ)

theorem boot_limitInv : LimitInv (boot V_CALIBRATION C_CALIBRATION adc) := by
  have hinit : (ADCClass.init V_CALIBRATION C_CALIBRATION adc).limitCommits = [] := rfl
  have hlimit : (ADCClass.init V_CALIBRATION C_CALIBRATION adc).setLimit_micro =
      ⟨0, .microAmpere⟩ := rfl
  change LimitMatches (ADCClass.setup V_CALIBRATION C_CALIBRATION adc)
  unfold ADCClass.setup
  generalize ADCClass.init V_CALIBRATION C_CALIBRATION adc = s at hinit hlimit
  refine LimitMatches.commit (m := ⟨33000, .microAmpere⟩) ?_
    (ADCClass.currentLimit_limitCommits _ _) (ADCClass.currentLimit_setLimit _ _) ?_
  · simp [ADCClass.setCurrentRange_limitCommits, hinit, hlimit]
  · simp only [ADCClass.currentLimit_operationType, ADCClass.setCurrentRange_operationType, if_true,
      ADCClass.voltageSource_operationType]
    rfl

/-- In every run from power-up whose steps keep the limit's unit, the stored limit is always one of
what limits the operation type, and no limit was ever committed as one of the other unit.  The runs
are those of the main program: no null calibration and no automatic calibration is under way. -/
theorem limit_unit_of_guarded (es : List Event)
    (h : Guarded step KeepsLimit (boot V_CALIBRATION C_CALIBRATION adc) es) :
    Always step LimitInv (boot V_CALIBRATION C_CALIBRATION adc) es :=
  always_of_guarded step_limitInv (boot_limitInv V_CALIBRATION C_CALIBRATION adc) h

end Boot

instance (p : State) : Decidable (LimitInv p) := inferInstanceAs (Decidable (LimitMatches p.SMU))

/-- A current is sourced, its range switched, and its limit set by a command. -/
theorem limit_unit_current_source :
    Always step LimitInv board
      (select .MENU_BUTTON_SOURCE_DC_CURRENT ++
        [pressRange, .scpi (.sourceCurrentVLimitSCPI (some 2000))]) :=
  limit_unit_of_guarded DacComp.default DacComp.default (fun _ => 0x0C94)
    (select .MENU_BUTTON_SOURCE_DC_CURRENT ++
      [pressRange, .scpi (.sourceCurrentVLimitSCPI (some 2000))]) (by decide +kernel)

/-- After the current source was selected, a command sources a voltage: the voltage limit of the
current source stays behind as what should be a current limit. -/
theorem voltage_limit_stays_for_voltage_source :
    ¬ Always step LimitInv board
      (select .MENU_BUTTON_SOURCE_DC_CURRENT ++ [.scpi (.sourceVoltageSCPI (some 1000))]) := by
  decide +kernel

end Program
end PoorMansSmu
