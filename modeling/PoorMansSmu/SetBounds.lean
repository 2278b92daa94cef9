import PoorMansSmu.DialEntries
import PoorMansSmu.Instrument

/-!
# SetBounds — the source value stays within what the dial would accept

The dial validates what is entered on it.  The other ways of entering a value (knob, commands, sweep,
pulses) commit without a check, and a value may be taken over by the other operation type, whose bound
is another one: by a switch of the range, by a calibration, by the calibration page.

The property is about every value that was ever sent to the source converter, those inside a switch of
the range included, and not only about what is left when an event is over.
-/

namespace PoorMansSmu
namespace Program

open SmuHal FrontPanel Calibration Run

/-! ## The output stage -/

/-- 30 V, or `max_current_1A_range`, in micro-units. -/
def setBound : OperationType → ℤ
  | .SOURCE_VOLTAGE => 30000000
  | .SOURCE_CURRENT => 3300000

/-- The bounds are those of the dial. -/
theorem setBound_eq_entryBound (op : OperationType) :
    (setBound op : ℚ) = DialClass.entryBound (DialClass.entryQuantity .SET op) * 1000 := by
  cases op with
  | SOURCE_VOLTAGE => norm_num [setBound, DialClass.entryQuantity, DialClass.entryBound]
  | SOURCE_CURRENT =>
      norm_num [setBound, DialClass.entryQuantity, DialClass.entryBound, max_current_1A_range]

theorem setBound_le_voltage (op : OperationType) : setBound op ≤ setBound .SOURCE_VOLTAGE := by
  cases op <;> decide

theorem current_le_setBound (op : OperationType) : setBound .SOURCE_CURRENT ≤ setBound op := by
  cases op <;> decide

/-- The value in force and every value committed so far are within the bound of the operation type
they were committed as. -/
def Bounded (s : ADCClass) : Prop :=
  |s.setValue_micro| ≤ setBound s.operationType ∧
    ∀ c ∈ s.valueCommits, |c.value| ≤ setBound c.operationType

instance (s : ADCClass) : Decidable (Bounded s) :=
  inferInstanceAs (Decidable (_ ≤ _ ∧ ∀ _ ∈ _, _ ≤ _))

/-- The value in force may be committed as `op`: as a voltage always, as a current if it is one already
or is small enough. -/
def MayTake (s : ADCClass) (op : OperationType) : Prop :=
  op = .SOURCE_CURRENT →
    s.operationType = .SOURCE_CURRENT ∨ |s.setValue_micro| ≤ setBound .SOURCE_CURRENT

instance (s : ADCClass) (op : OperationType) : Decidable (MayTake s op) :=
  inferInstanceAs (Decidable (_ → _ ∨ _))

theorem MayTake.of_eq {s s' : ADCClass} {op : OperationType} (h : MayTake s op)
    (htype : s'.operationType = s.operationType) (hvalue : s'.setValue_micro = s.setValue_micro) :
    MayTake s' op := by
  unfold MayTake
  rw [htype, hvalue]
  exact h

/-- A value of the type itself may be taken. -/
theorem mayTake_own {s : ADCClass} {op : OperationType} (h : s.operationType = op) :
    MayTake s op := fun hop => Or.inl (h.trans hop)

namespace Bounded

variable {s s' : ADCClass}

theorem of_eq (h : Bounded s) (htype : s'.operationType = s.operationType)
    (hvalue : s'.setValue_micro = s.setValue_micro)
    (hcommits : s'.valueCommits = s.valueCommits) : Bounded s' := by
  unfold Bounded
  rw [htype, hvalue, hcommits]
  exact h

/-- A commit of a value within its bound. -/
theorem commit (h : Bounded s) {o : OperationType} {v : ℤ} (hv : |v| ≤ setBound o)
    (htype : s'.operationType = o) (hvalue : s'.setValue_micro = v)
    (hcommits : s'.valueCommits = s.valueCommits ++ [⟨o, v⟩]) : Bounded s' := by
  unfold Bounded
  rw [htype, hvalue, hcommits, List.forall_mem_append, List.forall_mem_singleton]
  exact ⟨hv, h.2, hv⟩

theorem commitSource (h : Bounded s) {o : OperationType} {v : ℤ} (hv : |v| ≤ setBound o) :
    Bounded (commitSource s o v) :=
  h.commit hv (commitSource_operationType s o v) (commitSource_setValue s o v)
    (commitSource_valueCommits s o v)

/-- What may be taken over by a type is within its bound. -/
theorem abs_setValue_le (h : Bounded s) {op : OperationType} (htake : MayTake s op) :
    |s.setValue_micro| ≤ setBound op := by
  cases op with
  | SOURCE_VOLTAGE => exact h.1.trans (setBound_le_voltage _)
  | SOURCE_CURRENT =>
      rcases htake rfl with hown | hbound
      · rw [← hown]
        exact h.1
      · exact hbound

/-- A switch of the range for a current source commits a current, whatever the value was. -/
theorem setCurrentRange (h : Bounded s) (range : CurrentRange) {o : OperationType}
    (htake : MayTake s o) : Bounded (s.setCurrentRange range o) := by
  have hvalue := s.setCurrentRange_setValue range o
  have htype := s.setCurrentRange_operationType range o
  have hcommits := s.setCurrentRange_valueCommits range o
  have hbound := h.abs_setValue_le htake
  cases o with
  | SOURCE_VOLTAGE => exact h.of_eq htype hvalue hcommits
  | SOURCE_CURRENT => exact h.commit hbound htype hvalue hcommits

theorem autoSwitch (h : Bounded s) (range : CurrentRange) : Bounded (s.autoSwitch range) := by
  have hvalue := s.autoSwitch_setValue range
  have htype := s.autoSwitch_operationType range
  have hcommits := s.autoSwitch_valueCommits range
  cases hop : s.operationType with
  | SOURCE_VOLTAGE =>
      rw [if_pos hop] at hcommits
      exact h.of_eq htype hvalue hcommits
  | SOURCE_CURRENT =>
      rw [hop, if_neg (by decide)] at hcommits
      have hbound := h.1
      rw [hop] at hbound htype
      exact h.commit hbound htype hvalue hcommits

theorem handleAutoCurrentRange (h : Bounded s) (enabled calibrating : Bool) (milliAmpere : ℚ) :
    Bounded (s.handleAutoCurrentRange enabled calibrating milliAmpere) :=
  s.handleAutoCurrentRange_keeps (P := Bounded) (fun _ range hs => hs.autoSwitch range) enabled
    calibrating milliAmpere h

theorem setGpio (h : Bounded s) (nr : ℕ) (on : Bool) : Bounded (s.setGpio nr on) :=
  h.of_eq (s.setGpio_operationType nr on) (s.setGpio_setValue nr on) (s.setGpio_valueCommits nr on)

theorem currentLimit (h : Bounded s) (limit : Micro) : Bounded (s.fltSetCommitCurrentLimit limit) :=
  h.of_eq (s.currentLimit_operationType limit) (s.currentLimit_setValue limit)
    (s.currentLimit_valueCommits limit)

theorem voltageLimit (h : Bounded s) (limit : Micro) : Bounded (s.fltSetCommitVoltageLimit limit) :=
  h.of_eq (s.voltageLimit_operationType limit) (s.voltageLimit_setValue limit)
    (s.voltageLimit_valueCommits limit)

end Bounded

/-! ## Selecting a function -/

theorem Quiet.bounded {p p' : State} (h : Quiet p p') (hp : Bounded p.SMU) : Bounded p'.SMU :=
  hp.of_eq h.smuType h.setValue h.valueCommits

theorem Quiet.mayTake {p p' : State} (h : Quiet p p') {op : OperationType}
    (hp : MayTake p.SMU op) : MayTake p'.SMU op :=
  hp.of_eq h.smuType h.setValue

theorem openDCVoltage_bounded {p : State} (hp : Bounded p.SMU) : Bounded (openDCVoltage p).SMU := by
  have hlimited : ∀ (v : ℤ) (limit : Micro), |v| ≤ setBound .SOURCE_VOLTAGE →
      Bounded (((p.SMU.setGpio 0 false).fltSetCommitVoltageSource v
        true).fltSetCommitCurrentLimit limit) := by
    intro v limit hv
    exact ((hp.setGpio 0 false).commitSource (o := .SOURCE_VOLTAGE) hv).currentLimit limit
  rw [openDCVoltage_SMU]
  split_ifs with hop
  · refine hlimited _ _ ?_
    rw [← hop]
    exact hp.1
  · exact hlimited _ _ (by decide)

/-- The range is switched before the new value is committed, and takes over the old one. -/
theorem fltCommitCurrentSourceAutoRange_bounded {p : State} (hp : Bounded p.SMU) {uV : ℤ}
    (hv : |uV| ≤ setBound .SOURCE_CURRENT) (autoRange : Bool)
    (htake : autoRange = true → MayTake p.SMU p.operationType) :
    Bounded (fltCommitCurrentSourceAutoRange p uV autoRange).SMU := by
  have hranged : Bounded
      (if autoRange then
        if |uV| < 8000 then p.SMU.setCurrentRange .MILLIAMP10 p.operationType
        else p.SMU.setCurrentRange .AMP1 p.operationType
      else p.SMU) := by
    split_ifs with hauto
    · exact hp.setCurrentRange _ (htake hauto)
    · exact hp.setCurrentRange _ (htake hauto)
    · exact hp
  exact hranged.commitSource (o := .SOURCE_CURRENT) hv

theorem openDCCurrent_bounded {p : State} (hp : Bounded p.SMU)
    (htake : MayTake p.SMU p.operationType) : Bounded (openDCCurrent p).SMU := by
  have hfeedback : Bounded (useCurrentFeedback p).SMU := hp.setGpio 0 true
  have htake' : MayTake (useCurrentFeedback p).SMU p.operationType :=
    htake.of_eq (p.SMU.setGpio_operationType 0 true) (p.SMU.setGpio_setValue 0 true)
  have hlimited : ∀ (v : ℤ) (limit : Micro), |v| ≤ setBound .SOURCE_CURRENT →
      Bounded ((fltCommitCurrentSourceAutoRange (useCurrentFeedback p) v
        true).SMU.fltSetCommitVoltageLimit limit) := by
    intro v limit hv
    have hsourced := fltCommitCurrentSourceAutoRange_bounded hfeedback hv true fun _ => htake'
    exact hsourced.voltageLimit limit
  rw [openDCCurrent_SMU]
  split_ifs with hop
  · refine hlimited _ _ ?_
    rw [← hop]
    exact hp.1
  · exact hlimited _ _ (by decide)

/-- Opening the function switches the range. -/
def opensRange : FunctionType → Bool
  | .SOURCE_PULSE => true
  | .SOURCE_DC_CURRENT => true
  | _ => false

theorem closeMainMenuCallback_bounded {p : State} (hp : Bounded p.SMU) (f : FunctionType)
    (millis : ℕ) (htake : opensRange f = true → MayTake p.SMU p.operationType) :
    Bounded (closeMainMenuCallback p f millis).SMU := by
  have hclose := closeFunction_quiet p
  have hq := hclose.bounded hp
  have htake' : opensRange f = true →
      MayTake (closeFunction p).SMU (closeFunction p).operationType := by
    intro hf
    rw [hclose.operationType]
    exact hclose.mayTake (htake hf)
  unfold closeMainMenuCallback
  generalize closeFunction p = q at hq htake'
  cases f with
  | SOURCE_PULSE => exact hq.setCurrentRange .AMP1 (htake' rfl)
  | SOURCE_DC_VOLTAGE => exact openDCVoltage_bounded hq
  | SOURCE_DC_CURRENT => exact openDCCurrent_bounded hq (htake' rfl)
  | DIGITIZE =>
      obtain ⟨htype, hvalue, -, -, hcommits⟩ := updateSmu_quiet q.DIGITIZER q.SMU
      exact hq.of_eq htype hvalue hcommits
  | SOURCE_SWEEP => exact hq
  | MEASURE_RESISTANCE => exact hq
  | SHOWSETTINGS => exact hq
  | GRAPH => exact hq
  | DATALOGGER => exact hq

/-! ## Knob, sweep and pulses -/

/-- A change fits in what is left, from the value `v`, to either bound. -/
def Room {α : Type*} [AddGroup α] [LE α] (bound v change : α) : Prop :=
  -(bound + v) ≤ change ∧ change ≤ bound - v

instance {α : Type*} [AddGroup α] [LE α] [DecidableLE α] (bound v change : α) :
    Decidable (Room bound v change) :=
  inferInstanceAs (Decidable (_ ∧ _))

theorem Room.abs_add_le {α : Type*} [CommRing α] [LinearOrder α] [IsStrictOrderedRing α]
    {bound v change : α} (h : Room bound v change) : |v + change| ≤ bound := by
  obtain ⟨hlow, hhigh⟩ := h
  rw [abs_le]
  constructor <;> linarith

/-- What a turn of the knob adds to the set value. -/
def turnChange (p : State) (changeVal : ℚ) : ℤ :=
  truncate
    ((if p.operationType = .SOURCE_CURRENT ∧ p.SMU.current_range = .MILLIAMP10 then changeVal / 100
      else changeVal) * p.ui.changeDigit)

theorem turnedValue_eq (p : State) (changeVal : ℚ) :
    turnedValue p changeVal = p.SMU.setValue_micro + turnChange p changeVal := rfl

/-- A number of thousandths within a bound in millionths. -/
theorem abs_micro_le {x : ℚ} {bound : ℤ} (h : |x| * 1000 < bound + 1) :
    |truncate (x * 1000)| ≤ bound := by
  have habs : |(truncate (x * 1000) : ℚ)| < bound + 1 :=
    calc |(truncate (x * 1000) : ℚ)|
        ≤ |x * 1000| := abs_truncate_le _
      _ = |x| * 1000 := by rw [abs_mul]; norm_num
      _ < bound + 1 := h
  exact Int.lt_add_one_iff.1 (by exact_mod_cast habs)

/-- The next step of the sweep, in its direction, fits in what is left to the bound. -/
def StepRoom (c : FunctionSweepClass) : Prop :=
  Room (setBound c.operationType / 1000 : ℚ) c.currentSweepValue
    (if SweepBounds.GoesUp c then c.step else -c.step)

instance (c : FunctionSweepClass) : Decidable (StepRoom c) :=
  inferInstanceAs (Decidable (Room _ _ _))

/-- The sweep has the settings of power-up, and has not gone further than a step beyond them. -/
structure Untouched (c : FunctionSweepClass) : Prop where
  step : c.step = 100
  high : c.high = 1000
  low : c.low = -1000
  value : |c.currentSweepValue| ≤ 1100

section Sweep

variable {c : FunctionSweepClass} (hdir : c.currentSweepDir = 1 ∨ c.currentSweepDir = -1)
  (millis : ℕ)
include hdir

theorem nextValue_currentSweepValue :
    (c.nextValue millis).currentSweepValue =
      c.currentSweepValue + if SweepBounds.GoesUp c then c.step else -c.step := by
  rw [SweepBounds.nextValue_eq hdir]
  split_ifs <;> ring

theorem StepRoom.nextValue (h : StepRoom c) :
    |truncate ((c.nextValue millis).currentSweepValue * 1000)| ≤ setBound c.operationType := by
  have hvalue := h.abs_add_le
  rw [← nextValue_currentSweepValue hdir millis] at hvalue
  refine abs_micro_le ?_
  linarith

/-- Between its limits a sweep of power-up goes a step up or down, at a limit back. -/
theorem Untouched.nextValue (h : Untouched c) : Untouched (c.nextValue millis) := by
  obtain ⟨hlow, hhigh⟩ := abs_le.1 h.value
  have hvalue : |(c.nextValue millis).currentSweepValue| ≤ 1100 := by
    rw [nextValue_currentSweepValue hdir, h.step, abs_le]
    split_ifs with hgoes
    · have hbelow : c.currentSweepValue < 1000 := by
        rcases hgoes with ⟨-, hlt⟩ | ⟨-, hle⟩
        · exact hlt.trans_eq h.high
        · exact (hle.trans_eq h.low).trans_lt (by norm_num)
      constructor <;> linarith
    · have habove : -1000 < c.currentSweepValue := by
        rcases hdir with hup | hdown
        · have hge : ¬ c.currentSweepValue < c.high := fun hlt => hgoes (Or.inl ⟨hup, hlt⟩)
          rw [h.high, not_lt] at hge
          linarith
        · have hgt : ¬ c.currentSweepValue ≤ c.low := fun hle => hgoes (Or.inr ⟨hdown, hle⟩)
          rw [h.low, not_le] at hgt
          exact hgt
      constructor <;> linarith
  have hsettings := SweepBounds.nextValue_eq hdir millis
  rw [hsettings] at hvalue ⊢
  exact ⟨h.step, h.high, h.low, hvalue⟩

/-- So what it commits is within both bounds. -/
theorem Untouched.abs_le (h : Untouched c) (op : OperationType) :
    |truncate ((c.nextValue millis).currentSweepValue * 1000)| ≤ setBound op := by
  have hvalue := (h.nextValue hdir millis).value
  refine le_trans ?_ (current_le_setBound op)
  apply abs_micro_le
  norm_num [setBound]
  linarith

end Sweep

/-- The level of the pulses that is due next. -/
def dueLevel (c : FunctionPulseClass) : ℚ := if c.pulseHigh then c.max else c.min

/-- It is within the bound, up to the fraction of a micro-unit that is dropped. -/
def LevelFits (c : FunctionPulseClass) : Prop :=
  |dueLevel c| * 1000 < setBound c.operationType + 1

instance (c : FunctionPulseClass) : Decidable (LevelFits c) := inferInstanceAs (Decidable (_ < _))

theorem sourcePulse_bounded {s : ADCClass} (hs : Bounded s) {c : FunctionPulseClass}
    (hc : LevelFits c) : Bounded (c.sourcePulse s).2 := by
  obtain ⟨htype, hvalue, -, -⟩ := c.sourcePulse_commits s
  exact hs.commit (abs_micro_le hc) htype hvalue (c.sourcePulse_valueCommits s)

/-! ## What the conditions ask for -/

/-- The function that is opened in the menu does not switch the range, or may take over the value in
force. -/
def MenuKeepsBound (p : State) (op : OperationType) (input : LoopInput) : Prop :=
  ∀ f, p.ui.MAINMENU.touches input.inputTag = some f → opensRange f = true → MayTake p.SMU op

instance (p : State) (op : OperationType) (input : LoopInput) :
    Decidable (MenuKeepsBound p op input) :=
  inferInstanceAs (Decidable (∀ f, _ = some f → _ → _))

/-- The operation type that `loopMain` derives may take over the value in force, where the menu or the
button switches the range; a source dial that was opened for a voltage enters a voltage, or a number
small enough for a current. -/
def MainKeepsBound (p : State) (input : LoopInput) : Prop :=
  MenuKeepsBound p (getOperationType p.functionType) input ∧
    (input.inputTag = .BUTTON_CUR_AUTO → input.pressed = true →
      MayTake p.SMU (getOperationType p.functionType)) ∧
    (input.inputTag = .KEYBOARD_OK → p.ui.SOURCE_DIAL.dialog = true →
      p.ui.SOURCE_DIAL.okDrawn = true → p.ui.SOURCE_DIAL.vol_cur_type = .SOURCE_VOLTAGE →
        getOperationType p.functionType = .SOURCE_VOLTAGE ∨
          p.ui.SOURCE_DIAL.mv ≤ max_current_1A_range)

instance (p : State) (input : LoopInput) : Decidable (MainKeepsBound p input) :=
  inferInstanceAs (Decidable (_ ∧ _ ∧ _))

/-! ## The dial between iterations -/

/-- The source dial after the dials were handled: if it is open, its entry has been validated. -/
theorem dialsHandle_validated (p : State) (input : LoopInput) :
    DialClass.Validated .SET (dialsHandle p input).ui.SOURCE_DIAL := by
  unfold dialsHandle
  generalize readSigns p input.display = q
  simp only
  by_cases hopen : q.ui.SOURCE_DIAL.dialog = true
  · rw [if_pos hopen]
    exact DialClass.handleKeypadDialog_keeps _ .SET input.display
  · rw [if_neg hopen]
    -- the source dial is closed: nothing can be confirmed
    have hclosed : ∀ q' : State, q'.ui.SOURCE_DIAL.dialog = q.ui.SOURCE_DIAL.dialog →
        DialClass.Validated .SET q'.ui.SOURCE_DIAL := fun q' heq hdialog =>
      absurd (heq.symm.trans hdialog) hopen
    split_ifs
    · have hui := dialCallback_ui q .LIMIT (q.ui.LIMIT_DIAL.checkKeypress input.inputTag).2
      have hdialog := congrArg (fun u : Ui => u.SOURCE_DIAL.dialog) hui
      exact hclosed _ hdialog
    · exact hclosed q rfl

/-- Opening and closing functions leaves the dials alone. -/
theorem closeMainMenuCallback_dial (p : State) (f : FunctionType) (millis : ℕ) :
    (closeMainMenuCallback p f millis).ui.SOURCE_DIAL = p.ui.SOURCE_DIAL := by
  have hclose : (closeFunction p).ui.SOURCE_DIAL = p.ui.SOURCE_DIAL := by
    unfold closeFunction
    simp only
    split <;> rfl
  unfold closeMainMenuCallback
  rw [← hclose]
  generalize closeFunction p = q
  cases f with
  | SOURCE_DC_VOLTAGE =>
      change (openDCVoltage q).ui.SOURCE_DIAL = _
      rw [openDCVoltage_eq]
  | SOURCE_DC_CURRENT =>
      change (openDCCurrent q).ui.SOURCE_DIAL = _
      rw [openDCCurrent_eq]
  | SOURCE_PULSE => rfl
  | SOURCE_SWEEP => rfl
  | DIGITIZE => rfl
  | GRAPH => rfl
  | DATALOGGER => rfl
  | MEASURE_RESISTANCE => rfl
  | SHOWSETTINGS => rfl

/-- Where `loopMain` does not run, the dials are at most closed. -/
theorem menuRule_dial (p : State) (input : LoopInput) :
    MenuRule input (fun q => SameDial p.ui.SOURCE_DIAL q.ui.SOURCE_DIAL)
      (fun q => SameDial p.ui.SOURCE_DIAL q.ui.SOURCE_DIAL) where
  pre_kept := fun _ _ h hq => hq.trans h.ui.sourceDial
  post_kept := fun _ _ h hq => hq.trans h.ui.sourceDial
  post_menu := fun _ _ hsource _ hq => hq.trans hsource
  stay := fun _ hq => hq
  menu := by
    intro q m f _ hq
    rw [closeMainMenuCallback_dial]
    exact hq

theorem rotaryHandle_quietUi (p : State) (input : LoopInput) :
    QuietUi p.ui (rotaryHandle p input).ui := by
  rcases rotaryHandle_cases p input with ⟨-, hquiet⟩ | ⟨-, hsourced⟩
  · exact hquiet.ui
  · exact hsourced.ui

/-! ## The parts of an iteration -/

/-- Before the action of an iteration. -/
structure BeforeEntry (p : State) (op : OperationType) (q : State) : Prop where
  bounded : Bounded q.SMU
  operationType : q.operationType = op
  ui : QuietUi p.ui q.ui
  mayTake : MayTake p.SMU op → MayTake q.SMU op

theorem BeforeEntry.of_quiet {p q q' : State} {op : OperationType} (hq : BeforeEntry p op q)
    (h : Quiet q q') : BeforeEntry p op q' where
  bounded := h.bounded hq.bounded
  operationType := h.operationType.trans hq.operationType
  ui := hq.ui.trans h.ui
  mayTake := fun htake => h.mayTake (hq.mayTake htake)

theorem menuRule_bounded {p : State} {op : OperationType} {input : LoopInput}
    (hok : MenuKeepsBound p op input) :
    MenuRule input (BeforeEntry p op) (fun q => Bounded q.SMU) where
  pre_kept := fun _ _ h hq => hq.of_quiet h
  post_kept := fun _ _ h hq => h.bounded hq
  post_menu := IgnoresUi.keptByMenu fun _ _ hq => hq
  stay := fun _ hq => hq.bounded
  menu := by
    intro q m f htouch hq
    rw [hq.ui.touches] at htouch
    refine closeMainMenuCallback_bounded (p := { q with ui := { q.ui with MAINMENU := m } })
      hq.bounded f input.millis fun hf => ?_
    rw [hq.operationType]
    exact hq.mayTake (hok f htouch hf)

theorem rangeButton_bounded {p : State} (hp : Bounded p.SMU) (htake : MayTake p.SMU p.operationType)
    (millis : ℕ) : Bounded (rangeButton p millis).SMU := by
  unfold rangeButton
  by_cases hdue : elapsed p.ui.timeSinceLastChange 500 millis = true
  · rw [if_pos hdue]
    exact hp.setCurrentRange _ htake
  · rw [if_neg hdue]
    exact hp

/-- A limit dial commits no source value. -/
theorem closeSourceDCCallback_limit_bounded {p : State} (hp : Bounded p.SMU) :
    Bounded (closeSourceDCCallback p .LIMIT false).SMU := by
  unfold closeSourceDCCallback
  simp only [Bool.false_eq_true, if_false]
  split
  · exact hp.currentLimit _
  · exact hp.voltageLimit _

/-- A source dial commits an entry that was validated, for the operation type it was opened for. -/
theorem closeSourceDCCallback_set_bounded {p : State} (hp : Bounded p.SMU)
    (hdial : 0 ≤ p.ui.SOURCE_DIAL.mv ∧ p.ui.SOURCE_DIAL.mv ≤
      DialClass.entryBound (DialClass.entryQuantity .SET p.ui.SOURCE_DIAL.vol_cur_type))
    (hop : p.ui.SOURCE_DIAL.vol_cur_type = .SOURCE_VOLTAGE →
      p.operationType = .SOURCE_VOLTAGE ∨ p.ui.SOURCE_DIAL.mv ≤ max_current_1A_range) :
    Bounded (closeSourceDCCallback p .SET false).SMU := by
  have hle : p.ui.SOURCE_DIAL.mv ≤
      DialClass.entryBound (DialClass.entryQuantity .SET p.operationType) := by
    -- the bound of a current is the smaller of the two
    have hcurrent : max_current_1A_range ≤
        DialClass.entryBound (DialClass.entryQuantity .SET p.operationType) := by
      cases p.operationType with
      | SOURCE_VOLTAGE =>
          norm_num [DialClass.entryQuantity, DialClass.entryBound, max_current_1A_range]
      | SOURCE_CURRENT => exact le_rfl
    cases htype : p.ui.SOURCE_DIAL.vol_cur_type with
    | SOURCE_VOLTAGE =>
        -- opened for a voltage, and confirmed as one or small enough
        rcases hop htype with hvoltage | hsmall
        · have hbound := hdial.2
          rw [htype] at hbound
          rw [hvoltage]
          exact hbound
        · exact hsmall.trans hcurrent
    | SOURCE_CURRENT =>
        have hbound := hdial.2
        rw [htype] at hbound
        exact hbound.trans hcurrent
  rw [closeSourceDCCallback_set]
  refine hp.commitSource ?_
  have habs := DialClass.abs_getMv_le hdial.1 hle
  rw [← setBound_eq_entryBound] at habs
  exact_mod_cast habs

theorem actionRule_bounded {p : State} (hp : DialClass.Validated .SET p.ui.SOURCE_DIAL)
    {input : LoopInput} (hok : MainKeepsBound p input) :
    ActionRule input (BeforeEntry p (getOperationType p.functionType))
      (fun q => Bounded q.SMU) where
  toMenuRule := menuRule_bounded hok.1
  post_ui := fun _ _ hq => hq
  range := by
    intro htag hpressed q hq
    obtain ⟨-, hrange, -⟩ := hok
    refine rangeButton_bounded hq.bounded ?_ _
    rw [hq.operationType]
    exact hq.mayTake (hrange htag hpressed)
  sourceDial := by
    intro htag q hq hdialog hdrawn
    obtain ⟨-, -, hsource⟩ := hok
    have hdial := hq.ui.sourceDial
    have hdialog' := hdial.dialog hdialog
    have hdrawn' := hdial.okDrawn.symm.trans hdrawn
    refine closeSourceDCCallback_set_bounded hq.bounded ((hp.of_same hdial) hdialog hdrawn)
      fun htype => ?_
    rw [hq.operationType, hdial.mv]
    exact hsource htag hdialog' hdrawn' (hdial.vol_cur_type.symm.trans htype)
  limitDial := fun _ _ hq _ _ => closeSourceDCCallback_limit_bounded hq.bounded

/-- While a current is sourced, `operate` keeps the value: no sweep is selected. -/
theorem operate_beforeEntry {p : State} (hp : Bounded p.SMU) (input : LoopInput)
    (hsweep : SweepDue p input → |sweptValue p input| ≤ setBound p.FUNCTION_SWEEP.operationType) :
    BeforeEntry p (getOperationType p.functionType) (operate p input) := by
  have hoperated := operate_operated p input
  have hranged : Bounded (autoRanged p input) := hp.handleAutoCurrentRange _ _ _
  refine ⟨?_, hoperated.operationType, hoperated.ui, ?_⟩
  · rcases hoperated.SMU with ⟨-, heq⟩ | ⟨hdue, heq⟩
    · rw [heq]
      exact hranged
    · rw [heq]
      exact hranged.commitSource (hsweep hdue)
  · intro htake hop
    -- the function of a sweep counts as a voltage source, so none is due
    rcases hoperated.SMU with ⟨-, heq⟩ | ⟨hdue, -⟩
    · have hkept : MayTake (operate p input).SMU (getOperationType p.functionType) := by
        rw [heq]
        exact htake.of_eq (p.SMU.handleAutoCurrentRange_operationType _ _ _)
          (p.SMU.handleAutoCurrentRange_setValue _ _ _)
      exact hkept hop
    · rw [hdue.1] at hop
      cases hop

theorem loopMain_bounded {p : State} (hp : Bounded p.SMU)
    (hdial : DialClass.Validated .SET p.ui.SOURCE_DIAL) {input : LoopInput}
    (hok : MainKeepsBound p input)
    (hsweep : SweepDue p input → |sweptValue p input| ≤ setBound p.FUNCTION_SWEEP.operationType) :
    Bounded (loopMain p input).SMU :=
  (actionRule_bounded hdial hok).afterOperate (operate_beforeEntry hp input hsweep)

theorem beforeEntry_start {p : State} (hp : Bounded p.SMU) : BeforeEntry p p.operationType p :=
  ⟨hp, rfl, QuietUi.refl _, id⟩

theorem scpi_bounded {p : State} (hp : Bounded p.SMU) (command : ScpiCommand)
    (hvoltage : ∀ mv, command = .sourceVoltageSCPI (some mv) →
      |wrap32 (mv * 1000)| ≤ setBound .SOURCE_VOLTAGE)
    (hcurrent : ∀ uA, command = .sourceCurrentSCPI (some uA) →
      |uA * 1000| ≤ setBound .SOURCE_CURRENT ∧ MayTake p.SMU p.operationType) :
    Bounded (scpi p command).SMU := by
  rcases command with ⟨_ | mv⟩ | ⟨_ | uA⟩ | ⟨_ | uA⟩ | ⟨_ | mV⟩
  · exact hp
  · exact (hp.setGpio 0 false).commitSource (o := .SOURCE_VOLTAGE) (hvoltage mv rfl)
  · exact hp
  · obtain ⟨hbound, htake⟩ := hcurrent uA rfl
    have hfeedback : Bounded (useCurrentFeedback p).SMU := hp.setGpio 0 true
    refine fltCommitCurrentSourceAutoRange_bounded hfeedback hbound true fun _ => ?_
    exact htake.of_eq (p.SMU.setGpio_operationType 0 true) (p.SMU.setGpio_setValue 0 true)
  · exact hp
  · exact hp.currentLimit _
  · exact hp
  · exact hp.voltageLimit _

/-- A command does not touch the dials. -/
theorem scpi_ui (p : State) (command : ScpiCommand) : (scpi p command).ui = p.ui := by
  rcases command with ⟨_ | _⟩ | ⟨_ | _⟩ | ⟨_ | _⟩ | ⟨_ | _⟩ <;> rfl

theorem setup_bounded (V_CALIBRATION C_CALIBRATION : DacComp) (adc : ℕ → ℕ) :
    Bounded (ADCClass.setup V_CALIBRATION C_CALIBRATION adc) := by
  have hinit : Bounded (ADCClass.init V_CALIBRATION C_CALIBRATION adc) :=
    ⟨(by decide : |(0 : ℤ)| ≤ 30000000), fun _ hc => absurd hc List.not_mem_nil⟩
  have hsourced := (hinit.setGpio 1 false).commitSource (o := .SOURCE_VOLTAGE) (v := 1234500)
    (by decide)
  exact (hsourced.setCurrentRange .AMP1 (o := .SOURCE_VOLTAGE) nofun).currentLimit _

/-- 25 V on the display of a dial. -/
def twentyFiveVolts : DialDisplay where
  dialEntries := fun i => if i = 0 then 2 else 5
  digits := 2
  voltDecade := .V

end Program

namespace Instrument

open SmuHal FrontPanel Calibration Program Run

/-! ## Calibrations -/

section Null

variable (c : NullCal.State) (millis : ℕ)

/-- A call of `handleAutoNull` switches the range: in its first phase, or in its third. -/
def Switches : Prop :=
  c.autoNullStarted = true ∧ (c.nullCalibrationDone0 = false ∨
    c.nullCalibrationDone2 = false ∧ NullCal.due c.zeroCalstartTime 11000 millis = true)

instance : Decidable (Switches c millis) := inferInstanceAs (Decidable (_ ∧ (_ ∨ _ ∧ _)))

theorem sourceZero_SMU (range : CurrentRange) (current_uA : ℤ) (hzero : current_uA = 0) :
    (NullCal.sourceZero c range current_uA millis).SMU =
      commitSource (c.SMU.setCurrentRange range c.operationType) c.operationType 0 := by
  rw [hzero]
  unfold NullCal.sourceZero commitSource
  cases c.operationType <;> rfl

/-- The first phase, by what the others go by. -/
theorem phase0_cases :
    NullCal.phase0 c millis = c ∨
      (c.autoNullStarted = true ∧ c.nullCalibrationDone0 = false ∧
        (NullCal.phase0 c millis).SMU = (NullCal.sourceZero c .MILLIAMP10 0 millis).SMU ∧
        (NullCal.phase0 c millis).operationType = c.operationType) := by
  unfold NullCal.phase0
  by_cases hdue : c.autoNullStarted ∧ !c.nullCalibrationDone0
  · rw [if_pos hdue]
    exact Or.inr ⟨hdue.1, by simpa using hdue.2, rfl, rfl⟩
  · rw [if_neg hdue]
    exact Or.inl rfl

/-- The third phase. -/
theorem phase2_cases :
    NullCal.phase2 c millis = c ∨
      (c.autoNullStarted = true ∧ c.nullCalibrationDone2 = false ∧
        NullCal.due c.zeroCalstartTime 11000 millis = true ∧
        (NullCal.phase2 c millis).SMU =
          (NullCal.sourceZero c .AMP1 NullCal.AMP1_uA millis).SMU) := by
  unfold NullCal.phase2
  by_cases hdue : c.autoNullStarted ∧ !c.nullCalibrationDone2 ∧
      NullCal.due c.zeroCalstartTime 11000 millis
  · rw [if_pos hdue]
    exact Or.inr ⟨hdue.1, by simpa using hdue.2.1, hdue.2.2, rfl⟩
  · rw [if_neg hdue]
    exact Or.inl rfl

/-- Storing a null value leaves the output stage alone. -/
theorem phase1_same :
    (NullCal.phase1 c millis).SMU = c.SMU ∧
      (NullCal.phase1 c millis).operationType = c.operationType ∧
      (NullCal.phase1 c millis).autoNullStarted = c.autoNullStarted ∧
      (NullCal.phase1 c millis).nullCalibrationDone2 = c.nullCalibrationDone2 ∧
      (NullCal.phase1 c millis).zeroCalstartTime = c.zeroCalstartTime := by
  unfold NullCal.phase1
  split_ifs <;> exact ⟨rfl, rfl, rfl, rfl, rfl⟩

theorem restoreSettings_SMU : (NullCal.restoreSettings c).SMU = c.SMU := by
  have hsize : ∀ (d : NullCal.State) (o : OperationType) (size : ℤ),
      (NullCal.setFilterSize d o size).SMU = d.SMU := fun _ _ _ => rfl
  have huse : ∀ (d : NullCal.State) (o : OperationType) (use : Bool),
      (NullCal.setUseCalibratedValues d o use).SMU = d.SMU := fun _ _ _ => rfl
  unfold NullCal.restoreSettings
  simp only [hsize, huse]

theorem phase3_SMU : (NullCal.phase3 c millis).SMU = c.SMU := by
  unfold NullCal.phase3
  by_cases hdue : c.autoNullStarted ∧ !c.nullCalibrationDone3 ∧
      NullCal.due c.zeroCalstartTime 21000 millis
  · rw [if_pos hdue]
    exact restoreSettings_SMU _
  · rw [if_neg hdue]

variable {c}

theorem handleAutoNull_bounded (hc : Bounded c.SMU)
    (htake : Switches c millis → MayTake c.SMU c.operationType) :
    Bounded (NullCal.handleAutoNull c millis).SMU := by
  -- zero is committed once the range has been switched for the quantity that is calibrated
  have hzero : ∀ d : NullCal.State, Bounded d.SMU → MayTake d.SMU d.operationType →
      ∀ range current_uA, current_uA = 0 →
        Bounded (NullCal.sourceZero d range current_uA millis).SMU := by
    intro d hd htake range current_uA hcurrent
    rw [sourceZero_SMU d millis range current_uA hcurrent]
    refine (hd.setCurrentRange range htake).commitSource ?_
    cases d.operationType <;> decide
  have hlater : ∀ d : NullCal.State, Bounded d.SMU →
      (d.autoNullStarted = true → d.nullCalibrationDone2 = false →
        NullCal.due d.zeroCalstartTime 11000 millis = true → MayTake d.SMU d.operationType) →
      Bounded (NullCal.phase3 (NullCal.phase2 (NullCal.phase1 d millis) millis) millis).SMU := by
    intro d hd hswitch
    rw [phase3_SMU]
    obtain ⟨hSMU, htype, hstarted, hdone, hstart⟩ := phase1_same d millis
    rw [← hSMU] at hd
    rw [← hSMU, ← htype, ← hstarted, ← hdone, ← hstart] at hswitch
    generalize NullCal.phase1 d millis = d at hd hswitch
    -- only the third phase switches the range again
    rcases phase2_cases d millis with heq | ⟨hstarted', hdone', hdue, heq⟩
    · rw [heq]
      exact hd
    · rw [heq]
      exact hzero d hd (hswitch hstarted' hdone' hdue) _ _ rfl
  unfold NullCal.handleAutoNull
  rcases phase0_cases c millis with heq | ⟨hstarted, hdone, hSMU, htype⟩
  · rw [heq]
    exact hlater c hc fun hstarted hdone hdue => htake ⟨hstarted, Or.inr ⟨hdone, hdue⟩⟩
  · have htake₀ := htake ⟨hstarted, Or.inl hdone⟩
    refine hlater _ (by rw [hSMU]; exact hzero c hc htake₀ _ _ rfl) fun _ _ _ => ?_
    -- after the first phase the output stage has the type of the calibration
    rw [hSMU, htype, sourceZero_SMU c millis _ 0 rfl]
    exact mayTake_own (commitSource_operationType _ _ _)

end Null

/-- What an automatic calibration commits lies in its sweep. -/
theorem committed_le {a : AutoCal.State} (ha : AutoCal.CountInv a) {o : OperationType}
    (ho : AutoCal.InProgress a o) : |truncate (a.autoCalV * 1000)| ≤ setBound o := by
  rcases ha.phase with ⟨-, hpoint⟩ | ⟨-, hpoint⟩
  · -- from -10 V up in steps of 1 V, and for the voltage only
    obtain ⟨rfl, hvalue, hle⟩ := hpoint o ho
    have hle' : (a.autoCalArrayPointer : ℚ) ≤ 20 := by exact_mod_cast hle
    have hpos : (0 : ℚ) ≤ a.autoCalArrayPointer := Nat.cast_nonneg _
    refine abs_micro_le ?_
    rw [hvalue, AutoCal.Sweep.point]
    have habs : |(-10000 : ℚ) + 1000 * a.autoCalArrayPointer| ≤ 10000 := by
      rw [abs_le]
      constructor <;> linarith
    norm_num [setBound, AutoCal.sweep]
    linarith
  · -- the sweep of the current, which a run of the voltage may have got into
    obtain ⟨hvalue, hle, -⟩ := hpoint o ho
    have hle' : (a.autoCalArrayPointer : ℚ) ≤ 33 := by exact_mod_cast hle
    have hpos : (0 : ℚ) ≤ a.autoCalArrayPointer := Nat.cast_nonneg _
    refine le_trans ?_ (current_le_setBound o)
    apply abs_micro_le
    rw [hvalue, AutoCal.Sweep.point]
    have habs : |(-400 : ℚ) + 25 * a.autoCalArrayPointer| ≤ 425 := by
      rw [abs_le]
      constructor <;> linarith
    norm_num [setBound, AutoCal.sweep]
    linarith

/-- A null calibration switches the use of the tables off and on, and leaves the sweeps alone. -/
theorem handleAutoNull_countInv {c : NullCal.State} (hc : AutoCal.CountInv c.CALIBRATION)
    (millis : ℕ) : AutoCal.CountInv (NullCal.handleAutoNull c millis).CALIBRATION := by
  have huse : ∀ (d : NullCal.State) (o : OperationType) (use : Bool),
      AutoCal.CountInv d.CALIBRATION →
        AutoCal.CountInv (NullCal.setUseCalibratedValues d o use).CALIBRATION :=
    fun _ o use hd => CalTables.setUseCalibratedValues_countInv hd o use
  have hsize : ∀ (d : NullCal.State) (o : OperationType) (size : ℤ),
      (NullCal.setFilterSize d o size).CALIBRATION = d.CALIBRATION := fun _ _ _ => rfl
  have hphase0 : AutoCal.CountInv (NullCal.phase0 c millis).CALIBRATION := by
    unfold NullCal.phase0
    split_ifs
    · exact huse _ .SOURCE_VOLTAGE false (huse c .SOURCE_CURRENT false hc)
    · exact hc
  have hphase1 : ∀ d : NullCal.State, (NullCal.phase1 d millis).CALIBRATION = d.CALIBRATION := by
    intro d
    unfold NullCal.phase1
    split_ifs <;> rfl
  have hphase2 : ∀ d : NullCal.State, (NullCal.phase2 d millis).CALIBRATION = d.CALIBRATION := by
    intro d
    unfold NullCal.phase2
    split_ifs <;> rfl
  have hphase3 : ∀ d : NullCal.State, AutoCal.CountInv d.CALIBRATION →
      AutoCal.CountInv (NullCal.phase3 d millis).CALIBRATION := by
    intro d hd
    unfold NullCal.phase3
    split_ifs
    · change AutoCal.CountInv (NullCal.restoreSettings _).CALIBRATION
      unfold NullCal.restoreSettings
      simp only [hsize]
      exact huse _ .SOURCE_CURRENT true (huse _ .SOURCE_VOLTAGE true hd)
    · exact hd
  rw [← hphase1, ← hphase2] at hphase0
  exact hphase3 _ hphase0

theorem calStep_countInv {c : NullCal.State} (hc : AutoCal.CountInv c.CALIBRATION)
    (e : RelCalibration.CalEvent) : AutoCal.CountInv (RelCalibration.calStep c e).CALIBRATION := by
  cases e with
  | startNullCalibration operationType time => exact hc
  | handleAutoNull time => exact handleAutoNull_countInv hc time
  | startAutoCal o time =>
      have hstarted := AutoCal.step_countInv c.CALIBRATION (.startAutoCal o time) hc
      simp only [RelCalibration.calStep, RelCalibration.startAutoCal]
      split_ifs
      · exact hstarted
      · exact hstarted
  | autoCalADCfromDAC o time =>
      have hstepped := AutoCal.step_countInv c.CALIBRATION
        (.autoCalADCfromDAC o time (c.FILTERS o).mean) hc
      simp only [RelCalibration.calStep, RelCalibration.autoCalADCfromDAC]
      split_ifs <;> exact hstepped
  | setFilterSize o size => exact hc
  | setUseCalibratedValues o use => exact CalTables.setUseCalibratedValues_countInv hc o use
  | program f => exact hc

theorem autoCalADCfromDAC_bounded {c : NullCal.State} (hc : Bounded c.SMU)
    (hcounts : AutoCal.CountInv c.CALIBRATION) (o : OperationType) (time : ℕ) :
    Bounded (RelCalibration.autoCalADCfromDAC c o time).SMU := by
  have hcommitted : Bounded
      (if AutoCal.InProgress c.CALIBRATION o ∧ AutoCal.CommitDue c.CALIBRATION time then
        RelCalibration.commitSource c.SMU o c.CALIBRATION.autoCalV
      else c.SMU) := by
    split_ifs with hdue
    · have hsame : RelCalibration.commitSource c.SMU o c.CALIBRATION.autoCalV =
          commitSource c.SMU o (truncate (c.CALIBRATION.autoCalV * 1000)) := by
        cases o <;> rfl
      rw [hsame]
      exact hc.commitSource (committed_le hcounts hdue.1)
    · exact hc
  unfold RelCalibration.autoCalADCfromDAC
  simp only
  split_ifs at hcommitted ⊢ <;> exact hcommitted

/-! ## Conditions -/

/-- What each part has to meet.  A command's parameter is within the bound, a turn of the knob and a
step of an adjusted sweep fit in what is left to it, an adjusted pulse level is within it; and where a
part takes the value in force over as a current, it is one or is small enough for one. -/
def KeepsBound (s : State) : Part → Prop
  | .scpi (.sourceVoltageSCPI (some mv)) => |wrap32 (mv * 1000)| ≤ setBound .SOURCE_VOLTAGE
  | .scpi (.sourceCurrentSCPI (some uA)) =>
      |uA * 1000| ≤ setBound .SOURCE_CURRENT ∧ MayTake s.program.SMU s.program.operationType
  | .rotaryHandle input =>
      TurnTaken s.program input →
        Room (setBound s.program.operationType) s.program.SMU.setValue_micro
          (turnChange s.program (input.rotary.getD 0))
  | .handleAutoNull millis =>
      Switches s.calibration millis → MayTake s.program.SMU s.calibration.operationType
  | .loopMain input =>
      MainKeepsBound s.program input ∧
        (SweepDue s.program input → s.sweepAdjusted = true → StepRoom s.program.FUNCTION_SWEEP)
  | .loopDigitizer input => MenuKeepsBound s.program s.program.operationType input
  | .loopGraph input => MenuKeepsBound s.program s.program.operationType input
  | .handleCalibrationButtons (.source _ _) _ => MayTake s.program.SMU s.program.operationType
  | .pulseTimer =>
      s.program.FUNCTION_PULSE.myPulseTimer = true → s.pulseAdjusted = true →
        LevelFits s.program.FUNCTION_PULSE
  | _ => True

instance decidableKeepsBound (s : State) : ∀ e, Decidable (KeepsBound s e)
  | .scpi (.sourceVoltageSCPI none) => isTrue trivial
  | .scpi (.sourceVoltageSCPI (some _)) => inferInstanceAs (Decidable (_ ≤ _))
  | .scpi (.sourceCurrentSCPI none) => isTrue trivial
  | .scpi (.sourceCurrentSCPI (some _)) => inferInstanceAs (Decidable (_ ≤ _ ∧ _))
  | .scpi (.sourceVoltageILimitSCPI _) => isTrue trivial
  | .scpi (.sourceCurrentVLimitSCPI _) => isTrue trivial
  | .autoCalADCfromDAC _ _ => isTrue trivial
  | .rotaryHandle _ => inferInstanceAs (Decidable (_ → _))
  | .handleAutoNull _ => inferInstanceAs (Decidable (_ → _))
  | .loopMain _ => inferInstanceAs (Decidable (_ ∧ (_ → _ → _)))
  | .loopDigitizer _ => inferInstanceAs (Decidable (MenuKeepsBound _ _ _))
  | .loopGraph _ => inferInstanceAs (Decidable (MenuKeepsBound _ _ _))
  | .handleCalibrationButtons (.source _ _) _ => inferInstanceAs (Decidable (MayTake _ _))
  | .handleCalibrationButtons (.limit _) _ => isTrue trivial
  | .handleCalibrationButtons .BUTTON_DAC_NONLINEAR_CALIBRATE _ => isTrue trivial
  | .handleCalibrationButtons .BUTTON_DAC_ZERO_CALIBRATE _ => isTrue trivial
  | .pulseTimer => inferInstanceAs (Decidable (_ → _ → _))
  | .bufferFull => isTrue trivial
  | .handleSampling _ _ => isTrue trivial

/-! ## What has not been adjusted -/

/-- A sweep that was not adjusted has the settings of power-up. -/
structure SweepInv (s : State) : Prop where
  dir : s.program.FUNCTION_SWEEP.currentSweepDir = 1 ∨
    s.program.FUNCTION_SWEEP.currentSweepDir = -1
  untouched : s.sweepAdjusted = false → Untouched s.program.FUNCTION_SWEEP

/-- Pulse levels that were not adjusted are those of power-up, or of a pulse generator opened for a
current. -/
def PulseInv (s : State) : Prop :=
  s.pulseAdjusted = false →
    pulseLevels s.program.FUNCTION_PULSE = (2000, -2000) ∨
      pulseLevels s.program.FUNCTION_PULSE = openedLevels

/-- Parts that do not go on with the program change neither sweep nor pulses. -/
theorem step_adjusted (s : State) (e : Part) :
    (∃ program, step s e = s.proceed program) ∨
      (step s e).program.FUNCTION_SWEEP = s.program.FUNCTION_SWEEP ∧
        (step s e).program.FUNCTION_PULSE = s.program.FUNCTION_PULSE ∧
        (step s e).sweepAdjusted = s.sweepAdjusted ∧
        (step s e).pulseAdjusted = s.pulseAdjusted := by
  cases e with
  | autoCalADCfromDAC o millis => exact Or.inr ⟨rfl, rfl, rfl, rfl⟩
  | handleAutoNull millis => exact Or.inr ⟨rfl, rfl, rfl, rfl⟩
  | handleSampling o v => exact Or.inr ⟨rfl, rfl, rfl, rfl⟩
  | handleCalibrationButtons button millis =>
      refine Or.inr ?_
      cases button with
      | limit V_CALIBRATION =>
          simp only [step, State.handleCalibrationButtons]
          split <;> exact ⟨rfl, rfl, rfl, rfl⟩
      | _ => exact ⟨rfl, rfl, rfl, rfl⟩
  | _ => exact Or.inl ⟨_, rfl⟩

/-- As long as nothing is noted, the settings stay. -/
theorem sweepSettings_of_not_adjusted {s : State} {e : Part}
    (h : (step s e).sweepAdjusted = false) :
    s.sweepAdjusted = false ∧
      sweepSettings (step s e).program.FUNCTION_SWEEP =
        sweepSettings s.program.FUNCTION_SWEEP := by
  rcases step_adjusted s e with ⟨program, heq⟩ | ⟨hsweep, -, hadjusted, -⟩
  · rw [heq] at h ⊢
    simpa [State.proceed] using h
  · rw [hadjusted] at h
    rw [hsweep]
    exact ⟨h, rfl⟩

theorem pulseLevels_of_not_adjusted {s : State} {e : Part}
    (h : (step s e).pulseAdjusted = false) :
    s.pulseAdjusted = false ∧
      (pulseLevels (step s e).program.FUNCTION_PULSE = pulseLevels s.program.FUNCTION_PULSE ∨
        pulseLevels (step s e).program.FUNCTION_PULSE = openedLevels) := by
  rcases step_adjusted s e with ⟨program, heq⟩ | ⟨-, hpulse, -, hadjusted⟩
  · rw [heq] at h ⊢
    simp only [State.proceed, Bool.or_eq_false_iff, Bool.and_eq_false_iff, bne_eq_false_iff_eq] at h ⊢
    exact h
  · rw [hadjusted] at h
    rw [hpulse]
    exact ⟨h, Or.inl rfl⟩

theorem SweepKept.untouched {c c' : FunctionSweepClass} (h : SweepKept c c')
    (hsettings : sweepSettings c' = sweepSettings c) (hc : Untouched c) : Untouched c' := by
  simp only [sweepSettings, Prod.mk.injEq] at hsettings
  obtain ⟨hstep, hhigh, hlow⟩ := hsettings
  refine ⟨hstep.trans hc.step, hhigh.trans hc.high, hlow.trans hc.low, ?_⟩
  rcases h with ⟨hvalue, -⟩ | ⟨hvalue, -⟩
  · rw [hvalue]
    exact hc.value
  · rw [hvalue]
    norm_num

theorem step_sweepInv {s : State} (hs : SweepInv s) (e : Part) : SweepInv (step s e) := by
  have hdir : ∀ {c c' : FunctionSweepClass}, SweepKept c c' →
      c.currentSweepDir = 1 ∨ c.currentSweepDir = -1 →
      c'.currentSweepDir = 1 ∨ c'.currentSweepDir = -1 := by
    rintro c c' (⟨-, hkept⟩ | ⟨-, hup⟩) hc
    · rw [hkept]
      exact hc
    · exact Or.inl hup
  rcases step_sweep s e with hkept | ⟨input, -, -, hkept⟩
  · refine ⟨hdir hkept hs.dir, fun h => ?_⟩
    obtain ⟨hbefore, hsettings⟩ := sweepSettings_of_not_adjusted h
    exact hkept.untouched hsettings (hs.untouched hbefore)
  · -- the sweep has gone on to its next value
    have hnext := SweepBounds.nextValue_eq hs.dir input.millis
    refine ⟨hdir hkept ?_, fun h => ?_⟩
    · rw [hnext]
      split_ifs
      · exact Or.inl rfl
      · exact Or.inr rfl
    · obtain ⟨hbefore, hsettings⟩ := sweepSettings_of_not_adjusted h
      have hsame : sweepSettings (s.program.FUNCTION_SWEEP.nextValue input.millis) =
          sweepSettings s.program.FUNCTION_SWEEP := by
        rw [hnext]
        rfl
      exact hkept.untouched (hsettings.trans hsame.symm)
        ((hs.untouched hbefore).nextValue hs.dir input.millis)

theorem step_pulseInv {s : State} (hs : PulseInv s) (e : Part) : PulseInv (step s e) := by
  intro h
  obtain ⟨hbefore, hlevels | hopened⟩ := pulseLevels_of_not_adjusted h
  · rw [hlevels]
    exact hs hbefore
  · exact Or.inr hopened

/-- Levels that were not adjusted are within both bounds. -/
theorem PulseInv.levelFits {s : State} (hs : PulseInv s) (h : s.pulseAdjusted = false) :
    LevelFits s.program.FUNCTION_PULSE := by
  have hlevel : |dueLevel s.program.FUNCTION_PULSE| ≤ 2000 := by
    unfold dueLevel
    rcases hs h with hlevels | hlevels <;>
    · simp only [pulseLevels, openedLevels, Prod.mk.injEq] at hlevels
      rw [hlevels.1, hlevels.2]
      split_ifs <;> norm_num
  have hbound : (3300000 : ℚ) ≤ setBound s.program.FUNCTION_PULSE.operationType := by
    exact_mod_cast current_le_setBound s.program.FUNCTION_PULSE.operationType
  unfold LevelFits
  linarith

/-! ## Runs -/

/-- Every value committed is within its bound, an open source dial has been validated, and sweeps,
pulses and automatic calibrations are where they should be. -/
structure BoundInv (s : State) : Prop where
  bounded : Bounded s.program.SMU
  dial : DialClass.Validated .SET s.program.ui.SOURCE_DIAL
  counts : AutoCal.CountInv s.calibration.CALIBRATION
  sweep : SweepInv s
  pulse : PulseInv s

theorem handleCalibrationButtons_bounded {s : State} (hs : Bounded s.program.SMU)
    (button : CalibrationButton) (millis : ℕ)
    (hok : KeepsBound s (.handleCalibrationButtons button millis)) :
    Bounded (s.handleCalibrationButtons millis button).program.SMU := by
  cases button with
  | source V_CALIBRATION C_CALIBRATION =>
      -- the set value comes back as it was
      have hvalue : truncate ((s.program.SMU.setValue_micro : ℚ) / 1000 * 1000) =
          s.program.SMU.setValue_micro := by
        have hwhole : (truncate (s.program.SMU.setValue_micro : ℚ) : ℚ) =
            s.program.SMU.setValue_micro := SweepBounds.truncate_of_whole ⟨_, rfl⟩
        rw [div_mul_cancel₀ _ (by norm_num)]
        exact_mod_cast hwhole
      have hadjusted : Bounded { s.program.SMU with
          V_CALIBRATION := V_CALIBRATION, C_CALIBRATION := C_CALIBRATION } := hs.of_eq rfl rfl rfl
      refine hadjusted.commitSource ?_
      rw [hvalue]
      exact hs.abs_setValue_le hok
  | limit V_CALIBRATION =>
      unfold State.handleCalibrationButtons
      simp only
      split
      · have hadjusted : Bounded { s.program.SMU with V_CALIBRATION := V_CALIBRATION } :=
          hs.of_eq rfl rfl rfl
        exact hadjusted.currentLimit _
      · exact hs
  | BUTTON_DAC_NONLINEAR_CALIBRATE =>
      simp only [State.handleCalibrationButtons, State.calibrate, RelCalibration.calStep,
        RelCalibration.startAutoCal]
      split_ifs <;> exact hs
  | BUTTON_DAC_ZERO_CALIBRATE => exact hs

theorem rotaryHandle_bounded {p : Program.State} (hp : Bounded p.SMU) (input : LoopInput)
    (hok : TurnTaken p input →
      Room (setBound p.operationType) p.SMU.setValue_micro
        (turnChange p (input.rotary.getD 0))) :
    Bounded (rotaryHandle p input).SMU := by
  rcases rotaryHandle_cases p input with ⟨-, hquiet⟩ | ⟨hturn, hsourced⟩
  · exact hquiet.bounded hp
  · rw [hsourced.SMU]
    refine hp.commitSource ?_
    rw [turnedValue_eq]
    exact (hok hturn).abs_add_le

theorem step_bounded {s : State} (hs : BoundInv s) (e : Part) (hok : KeepsBound s e) :
    Bounded (step s e).program.SMU := by
  have hb := hs.bounded
  cases e with
  | scpi command =>
      refine scpi_bounded hb command ?_ ?_
      · rintro mv rfl
        exact hok
      · rintro uA rfl
        exact hok
  | autoCalADCfromDAC o millis =>
      exact autoCalADCfromDAC_bounded (c := s.onOutput) hb hs.counts o millis
  | rotaryHandle input => exact rotaryHandle_bounded hb input hok
  | handleAutoNull millis => exact handleAutoNull_bounded (c := s.onOutput) millis hb hok
  | loopMain input =>
      obtain ⟨hmain, hroom⟩ := hok
      refine loopMain_bounded hb hs.dial hmain fun hdue => ?_
      cases hadjusted : s.sweepAdjusted with
      | false => exact (hs.sweep.untouched hadjusted).abs_le hs.sweep.dir _ _
      | true => exact (hroom hdue hadjusted).nextValue hs.sweep.dir _
  | loopDigitizer input => exact (menuRule_bounded hok).loopDigitizer (beforeEntry_start hb)
  | loopGraph input => exact (menuRule_bounded hok).loopGraph (beforeEntry_start hb)
  | handleCalibrationButtons button millis =>
      exact handleCalibrationButtons_bounded hb button millis hok
  | pulseTimer =>
      simp only [step, State.proceed, Program.step]
      split_ifs with hrunning
      · refine sourcePulse_bounded hb ?_
        cases hadjusted : s.pulseAdjusted with
        | false => exact hs.pulse.levelFits hadjusted
        | true => exact hok hrunning hadjusted
      · exact hb
  | bufferFull => exact hb
  | handleSampling o v => exact hb

/-- Only `loopMain` opens a dial, and it validates what is entered. -/
theorem step_validated {s : State} (hs : DialClass.Validated .SET s.program.ui.SOURCE_DIAL)
    (e : Part) : DialClass.Validated .SET (step s e).program.ui.SOURCE_DIAL := by
  cases e with
  | scpi command =>
      change DialClass.Validated .SET (scpi s.program command).ui.SOURCE_DIAL
      rw [scpi_ui]
      exact hs
  | rotaryHandle input => exact hs.of_same (rotaryHandle_quietUi s.program input).sourceDial
  | loopMain input => exact dialsHandle_validated _ _
  | loopDigitizer input =>
      exact hs.of_same ((menuRule_dial s.program input).loopDigitizer (SameDial.refl _))
  | loopGraph input =>
      exact hs.of_same ((menuRule_dial s.program input).loopGraph (SameDial.refl _))
  | handleCalibrationButtons button millis =>
      cases button with
      | limit V_CALIBRATION =>
          simp only [step, State.handleCalibrationButtons]
          split <;> exact hs
      | _ => exact hs
  | pulseTimer =>
      simp only [step, State.proceed, Program.step]
      split_ifs <;> exact hs
  | _ => exact hs

theorem step_counts {s : State} (hs : AutoCal.CountInv s.calibration.CALIBRATION) (e : Part) :
    AutoCal.CountInv (step s e).calibration.CALIBRATION := by
  have hcalibrate : ∀ e, AutoCal.CountInv (s.calibrate e).calibration.CALIBRATION := fun e =>
    calStep_countInv (c := s.onOutput) hs e
  cases e with
  | autoCalADCfromDAC o millis => exact hcalibrate _
  | handleAutoNull millis => exact hcalibrate _
  | handleCalibrationButtons button millis =>
      cases button with
      | BUTTON_DAC_NONLINEAR_CALIBRATE => exact hcalibrate _
      | BUTTON_DAC_ZERO_CALIBRATE => exact hcalibrate _
      | source V_CALIBRATION C_CALIBRATION => exact hs
      | limit V_CALIBRATION =>
          simp only [step, State.handleCalibrationButtons]
          split <;> exact hs
  | _ => exact hs

theorem step_boundInv (s : State) (e : Part) (hs : BoundInv s) (hok : KeepsBound s e) :
    BoundInv (step s e) where
  bounded := step_bounded hs e hok
  dial := step_validated hs.dial e
  counts := step_counts hs.counts e
  sweep := step_sweepInv hs.sweep e
  pulse := step_pulseInv hs.pulse e

section Boot

variable (V_CALIBRATION C_CALIBRATION : DacComp) (adc : ℕ → ℕ) (millis : ℕ)
  (set_adc meas_adc : OperationType → ℕ → ℚ) (adc_cal_points : OperationType → ℕ)

theorem boot_boundInv :
    BoundInv (boot V_CALIBRATION C_CALIBRATION adc
      (AutoCal.boot millis set_adc meas_adc adc_cal_points)) where
  bounded := setup_bounded V_CALIBRATION C_CALIBRATION adc
  dial := nofun
  counts := AutoCal.boot_countInv millis set_adc meas_adc adc_cal_points
  sweep := ⟨Or.inl rfl, fun _ => ⟨rfl, rfl, rfl, by norm_num [boot, Program.boot]⟩⟩
  pulse := fun _ => Or.inl rfl

/-- In every run from power-up, of the parts in any order, whose parts meet the conditions, every
source value ever committed is within the bound that the dial enforces for its operation type. -/
theorem set_value_bounded_of_guarded (es : List Part)
    (h : Guarded step KeepsBound (boot V_CALIBRATION C_CALIBRATION adc
      (AutoCal.boot millis set_adc meas_adc adc_cal_points)) es) :
    Always step (fun s => Bounded s.program.SMU) (boot V_CALIBRATION C_CALIBRATION adc
      (AutoCal.boot millis set_adc meas_adc adc_cal_points)) es := by
  have hinv := always_of_guarded step_boundInv (boot_boundInv V_CALIBRATION C_CALIBRATION adc millis
    set_adc meas_adc adc_cal_points) h
  exact hinv.mono fun _ hs => hs.bounded

end Boot

/-- 25 V are entered on the source dial. -/
def enterTwentyFiveVolts : List Part :=
  [.loopMain { inputTag := .BUTTON_SOURCE_SET, pressed := true, display := twentyFiveVolts },
    .loopMain { display := twentyFiveVolts },
    .loopMain { inputTag := .KEYBOARD_OK, display := twentyFiveVolts }]

/-- The tables as first written. -/
def firstTables : AutoCal.State := AutoCal.boot 0 (fun _ _ => 0) (fun _ _ => 0) fun _ => 0

/-- The board with calibration values as first written. -/
def board : State := boot DacComp.default DacComp.default (fun _ => 0x0C94) firstTables

/-- A value from the dial, one from a command, a digit up by the knob; then a null calibration, the
first point of an automatic one, and a current from a command. -/
def everyWay : List Part :=
  enterTwentyFiveVolts ++
    [.scpi (.sourceVoltageSCPI (some 2000)), .loopMain { encoderButton := true },
      .rotaryHandle { rotary := some 3 },
      .handleCalibrationButtons .BUTTON_DAC_ZERO_CALIBRATE 1000, .handleAutoNull 1001,
      .handleAutoNull 12500, .handleAutoNull 23000,
      .handleCalibrationButtons .BUTTON_DAC_NONLINEAR_CALIBRATE 30000,
      .autoCalADCfromDAC .SOURCE_VOLTAGE 30600, .scpi (.sourceCurrentSCPI (some 10))]

theorem set_value_bounded_every_way :
    Always step (fun s => Bounded s.program.SMU) board everyWay :=
  set_value_bounded_of_guarded DacComp.default DacComp.default (fun _ => 0x0C94) 0 (fun _ _ => 0)
    (fun _ _ => 0) (fun _ => 0) everyWay (by decide +kernel)

/-- A command sets a thousand volts. -/
theorem command_sets_thousand_volts :
    ¬ Always step (fun s => Bounded s.program.SMU) board
      [.scpi (.sourceVoltageSCPI (some 1000000))] := by
  decide +kernel

example : (exec step board everyWay).program.SMU.valueCommits.map ValueCommit.value =
    [1234500, 25000000, 2000000, 5000000, 0, 0, -10000000, 10000] := by
  decide +kernel

/-- The range is switched for a current before its value is committed, while 20 V are in force. -/
example : (exec step board [.scpi (.sourceVoltageSCPI (some 20000)),
    .scpi (.sourceCurrentSCPI none), .loopMain {},
    .scpi (.sourceCurrentSCPI (some 10))]).program.SMU.valueCommits.drop 2 =
      [⟨.SOURCE_CURRENT, 20000000⟩, ⟨.SOURCE_CURRENT, 10000⟩] := by
  decide +kernel

end Instrument
end PoorMansSmu
