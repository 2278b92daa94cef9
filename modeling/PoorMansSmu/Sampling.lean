import PoorMansSmu.FrontPanel
import PoorMansSmu.Lib.Run

/-!
# Sampling — the interrupt that converts measurements, and the digitizer

`handleSampling` runs in a timer interrupt and takes the flags and the channel map of the ADC as it
finds them.  The main program changes both, one assignment or register write after the other, so here
its functions are sequences of actions, and an interrupt may come between any two of them.

Only what concerns the flags and the channel map is left of the main program: the digitizer, and the
selection of functions in the menu or by a command.  What the menu, the touches and the clock do to it
is an input.
-/

namespace PoorMansSmu
namespace Sampling

open SmuHal FrontPanel Hardware Run Calibration

/-! ## State -/

/-- The channels of the ADC, by what the status register says of a result. -/
inductive Channel
  | channel0
  | channel1
  deriving DecidableEq, Repr

/-- The inputs of the ADC, and the functions that convert what is measured there. -/
inductive Measured
  | milliVoltage
  | current
  deriving DecidableEq, Repr

/-- A result of the ADC that was converted. -/
structure Conversion where
  channel : Channel
  /-- The input the channel was mapped to. -/
  input : Option Measured
  /-- `measureMilliVoltage` or `measureCurrent`. -/
  converted : Measured
  /-- It went to the buffer of the digitizer, else to statistics, filters and logger. -/
  digitized : Bool
  deriving DecidableEq, Repr

/-- What a loop iteration finds at its inputs. -/
structure LoopInput where
  /-- The menu is active when `loopDigitize` is called. -/
  menuActive : Bool := false
  /-- The screen is due to be drawn, or the menu is active. -/
  due : Bool := true
  /-- The functions the menu's callback is called with. -/
  selected : List FunctionType := []
  /-- The menu is active when `renderGraph` is called. -/
  menuActiveAtRender : Bool := false
  inputTag : Tag := .number 0
  millis : ℕ := 0

/-- What the main program does next.  The first ones stand for a function, which is taken apart when
its turn has come. -/
inductive Action
  | updateSettings
  | updateSmuWhenVoltageCurrentFocusChange
  | open_
  | close
  | loopDigitize (menuActive : Bool)
  | render (x : LoopInput)
  | closeMainMenuCallback (f : FunctionType)
  | enableVoltageMeasurement (enable : Bool)
  | enableCurrentMeasurement (enable : Bool)
  | write (w : HwWrite)
  | setDigitize (on : Bool)
  | setBufferOverflow (on : Bool)
  | stopWhenFull
  | setRendering (on : Bool)
  | renderGraph (x : LoopInput)
  | setFunctionType (f : FunctionType)

structure State where
  SMU : ADCClass
  DIGITIZER : DigitizerClass
  rendering : Bool
  functionType : FunctionType
  /-- What is left to do of the current iteration. -/
  todo : List Action
  /-- Every result converted, in order. -/
  conversions : List Conversion

/-! ## Main program -/

/-- What a function is taken apart into, in the state in which its turn comes; nothing for a single
action. -/
def expand (s : State) : Action → List Action
  | .updateSettings => s.SMU.updateSettingsWrites.map .write
  | .updateSmuWhenVoltageCurrentFocusChange =>
      if s.DIGITIZER.digitizeVoltage then
        [.enableVoltageMeasurement true, .enableCurrentMeasurement false, .updateSettings]
      else [.enableVoltageMeasurement false, .enableCurrentMeasurement true, .updateSettings]
  | .open_ => [.updateSmuWhenVoltageCurrentFocusChange]
  | .close =>
      [.enableVoltageMeasurement true, .enableCurrentMeasurement true, .updateSettings,
        .setDigitize false, .setBufferOverflow false]
  | .loopDigitize menuActive =>
      if s.DIGITIZER.digitize = false ∧ menuActive = false then
        [.updateSmuWhenVoltageCurrentFocusChange, .setDigitize true, .setBufferOverflow false,
          .stopWhenFull]
      else [.stopWhenFull]
  | .render x =>
      if (!s.DIGITIZER.digitize || !s.DIGITIZER.allowTrigger || !s.DIGITIZER.continuous) && x.due then
        .setRendering true :: x.selected.map .closeMainMenuCallback ++
          [.renderGraph x, .setRendering false]
      else []
  | .closeMainMenuCallback f =>
      (if s.functionType = .DIGITIZE then [.close] else []) ++
        (if f = .DIGITIZE then [.open_] else []) ++ [.setFunctionType f]
  | _ => []

/-- The effect of a single action. -/
def perform (s : State) : Action → State
  | .enableVoltageMeasurement enable => { s with SMU := s.SMU.enableVoltageMeasurement enable }
  | .enableCurrentMeasurement enable => { s with SMU := s.SMU.enableCurrentMeasurement enable }
  | .write w => { s with SMU := s.SMU.write w }
  | .setDigitize on => { s with DIGITIZER := { s.DIGITIZER with digitize := on } }
  | .setBufferOverflow on => { s with DIGITIZER := { s.DIGITIZER with bufferOverflow := on } }
  | .stopWhenFull =>
      if s.DIGITIZER.bufferOverflow = true then
        { s with DIGITIZER := { s.DIGITIZER with digitize := false } }
      else s
  | .setRendering on => { s with rendering := on }
  | .renderGraph x =>
      { s with DIGITIZER := s.DIGITIZER.renderGraph x.inputTag x.menuActiveAtRender x.millis }
  | .setFunctionType f => { s with functionType := f }
  | _ => s

/-- The next action of the main program. -/
def next (s : State) : State :=
  match s.todo with
  | [] => s
  | a :: todo => perform { s with todo := expand s a ++ todo } a

/-- An iteration of `loop`.  With another function than the digitizer only the menu matters. -/
def loop (s : State) (x : LoopInput) : State :=
  if s.functionType = .DIGITIZE then { s with todo := [.loopDigitize x.menuActive, .render x] }
  else { s with todo := x.selected.map .closeMainMenuCallback }

/-! ## Interrupt -/

/-- The register of a channel. -/
def Channel.register : Channel → ℕ
  | .channel0 => 0x10
  | .channel1 => 0x11

/-- The entry of the channel map for a channel. -/
def mapped (s : State) (c : Channel) : ℕ := s.SMU.hw.adc c.register

/-- The ADC measures on this channel. -/
def enabled (s : State) (c : Channel) : Bool := (mapped s c).testBit 15

/-- The input that an entry selects: 0 and 1 for the voltage, 2 and 3 for the current. -/
def inputOf (entry : ℕ) : Option Measured :=
  if entry % 1024 = 0x001 then some .milliVoltage
  else if entry % 1024 = 0x043 then some .current
  else none

/-- Convert a result. -/
def convert (s : State) (c : Channel) (converted : Measured) (digitized : Bool) : State :=
  { s with
    conversions := s.conversions ++ [⟨c, inputOf (mapped s c), converted, digitized⟩] }

/-- `handleSamplingForDigitizer`; `full` says whether this sample is the last one of a buffer. -/
def handleSamplingForDigitizer (s : State) (c : Channel) (full : Bool) : State :=
  if s.rendering then s
  else if s.DIGITIZER.bufferOverflow then s
  else
    let s := convert s c (if s.DIGITIZER.digitizeVoltage then .milliVoltage else .current) true
    if full then { s with DIGITIZER := { s.DIGITIZER with bufferOverflow := true } } else s

/-- `handleSampling`, when the ADC has a result of this channel. -/
def handleSampling (s : State) (c : Channel) (full : Bool) : State :=
  if s.DIGITIZER.digitize then handleSamplingForDigitizer s c full
  else
    match c with
    | .channel1 => convert s c .current false
    | .channel0 => convert s c .milliVoltage false

/-! ## Runs -/

inductive Event
  /-- The next action of the main program. -/
  | next
  /-- A new iteration, when the last one is finished. -/
  | loop (x : LoopInput)
  /-- A command selects a function, between two iterations. -/
  | scpi (f : FunctionType)
  /-- The timer fires, and the ADC has a result of this channel. -/
  | interrupt (c : Channel) (full : Bool)

def step (s : State) : Event → State
  | .next => Sampling.next s
  | .loop x => if s.todo.isEmpty then Sampling.loop s x else s
  | .scpi f => if s.todo.isEmpty then { s with functionType := f } else s
  | .interrupt c full => if enabled s c then handleSampling s c full else s

/-- The two entries of the channel map that `initADC` writes. -/
def initADC (adc : ℕ → ℕ) : ℕ → ℕ := fun a =>
  if a = 0x10 then 0x8001 else if a = 0x11 then 0x8043 else adc a

/-- The state when sampling begins, whatever else the output stage is. -/
def boot (SMU : ADCClass) : State where
  SMU := { SMU with
    voltageMeasurementEnabled := true
    currentMeasurementEnabled := true
    hw := { SMU.hw with adc := initADC SMU.hw.adc } }
  DIGITIZER := {}
  rendering := false
  functionType := .SOURCE_DC_VOLTAGE
  todo := []
  conversions := []

/-- Every result was converted by the function for the input that its channel was mapped to. -/
def ConversionsMatch (s : State) : Prop := ∀ x ∈ s.conversions, x.input = some x.converted

instance (s : State) : Decidable (ConversionsMatch s) :=
  inferInstanceAs (Decidable (∀ x ∈ s.conversions, _))

/-- Channel 0 is mapped to the current, as for digitizing a current. -/
def CurrentFocus (s : State) : Prop := mapped s .channel0 = 0x8043

instance (s : State) : Decidable (CurrentFocus s) := inferInstanceAs (Decidable (_ = _))

/-- The digitizer takes a result that comes now. -/
def Capturing (s : State) : Prop :=
  s.DIGITIZER.digitize = true ∧ s.rendering = false ∧ s.DIGITIZER.bufferOverflow = false

instance (s : State) : Decidable (Capturing s) := inferInstanceAs (Decidable (_ ∧ _ ∧ _))

/-- No result comes at a moment when flags and channel map are out of step: while channel 0 is mapped
to the current and nothing is digitized, while the other input than the one the digitizer is set to
is mapped, or from the second channel while the digitizer is set to the voltage. -/
def Settled (s : State) : Event → Prop
  | .interrupt .channel0 _ =>
      (s.DIGITIZER.digitize = false → ¬ CurrentFocus s) ∧
        (Capturing s → (CurrentFocus s ↔ s.DIGITIZER.digitizeVoltage = false))
  | .interrupt .channel1 _ =>
      enabled s .channel1 = true → Capturing s → s.DIGITIZER.digitizeVoltage = false
  | _ => True

instance (s : State) : ∀ e, Decidable (Settled s e)
  | .interrupt .channel0 _ => inferInstanceAs (Decidable ((_ → _) ∧ (_ → _)))
  | .interrupt .channel1 _ => inferInstanceAs (Decidable (_ → _ → _))
  | .next => inferInstanceAs (Decidable True)
  | .loop _ => inferInstanceAs (Decidable True)
  | .scpi _ => inferInstanceAs (Decidable True)

/-! ## Without interrupts

The actions that stand for a function of the digitizer do what the function does. -/

section Uninterrupted

variable (s : State) (todo : List Action)

/-- The state after a function that has changed digitizer and output stage. -/
def returned (result : DigitizerClass × ADCClass) : State :=
  { s with DIGITIZER := result.1, SMU := result.2, todo := todo }

theorem exec_close :
    exec step { s with todo := .close :: todo } (List.replicate 8 .next) =
      returned s todo (s.DIGITIZER.close s.SMU) := by
  obtain ⟨SMU, _, _, _, _, _⟩ := s
  rfl

theorem exec_open :
    exec step { s with todo := .open_ :: todo } (List.replicate 7 .next) =
      returned s todo (s.DIGITIZER, s.DIGITIZER.open_ s.SMU) := by
  -- which channel is switched off depends on the flag alone
  obtain ⟨SMU, ⟨digitizeVoltage, _, _, _, _, _, _⟩, _, _, _, _⟩ := s
  cases digitizeVoltage with
  | false => rfl
  | true => rfl

/-- A capture is started in ten actions; otherwise `loopDigitize` only looks whether the buffer is
full. -/
theorem exec_loopDigitize (menuActive : Bool) :
    exec step { s with todo := .loopDigitize menuActive :: todo }
        (List.replicate (if s.DIGITIZER.digitize = false ∧ menuActive = false then 10 else 2) .next) =
      returned s todo (s.DIGITIZER.loopDigitize s.SMU menuActive) := by
  obtain ⟨SMU, ⟨digitizeVoltage, _, _, bufferOverflow, digitize, _, _⟩, _, _, _, _⟩ := s
  cases digitize with
  | true => cases bufferOverflow <;> rfl
  | false =>
      cases menuActive with
      | true => cases bufferOverflow <;> rfl
      | false => cases digitizeVoltage <;> rfl

end Uninterrupted

/-! ## The channel map -/

/-- The writes that `updateSettings` makes. -/
def mapWrites : List HwWrite :=
  [.AD7176_WriteRegister 0x10 0x8001, .AD7176_WriteRegister 0x10 0x8043,
    .AD7176_WriteRegister 0x11 0x8043, .AD7176_WriteRegister 0x11 0x0043,
    .AD7176_WriteRegister 0x11 0x0001]

theorem updateSettingsWrites_subset (SMU : ADCClass) : SMU.updateSettingsWrites ⊆ mapWrites := by
  unfold ADCClass.updateSettingsWrites
  split_ifs
  · decide
  · decide
  · decide
  · exact List.nil_subset _

/-- Channel 0 is always on and mapped to one of the inputs, channel 1 to the current unless it is
off. -/
structure MapInv (s : State) : Prop where
  channel0 : mapped s .channel0 = 0x8001 ∨ mapped s .channel0 = 0x8043
  channel1 : mapped s .channel1 = 0x8043 ∨ mapped s .channel1 = 0x0043 ∨ mapped s .channel1 = 0x0001
  todo : ∀ w, Action.write w ∈ s.todo → w ∈ mapWrites

theorem MapInv.of_same {s s' : State} (h : MapInv s) (hadc : s'.SMU.hw.adc = s.SMU.hw.adc)
    (htodo : ∀ w, Action.write w ∈ s'.todo → w ∈ mapWrites) : MapInv s' := by
  have hmapped : ∀ c, mapped s' c = mapped s c := fun c => congrFun hadc c.register
  refine ⟨?_, ?_, htodo⟩
  · rw [hmapped]
    exact h.channel0
  · rw [hmapped]
    exact h.channel1

/-- One of the writes to the channel map. -/
theorem MapInv.write {s : State} (h : MapInv s) {w : HwWrite} (hw : w ∈ mapWrites) :
    MapInv { s with SMU := s.SMU.write w } := by
  have hold0 := h.channel0
  have hold1 := h.channel1
  simp only [mapWrites, List.mem_cons, List.not_mem_nil, or_false] at hw
  rcases hw with rfl | rfl | rfl | rfl | rfl
  · exact ⟨Or.inl rfl, hold1, h.todo⟩
  · exact ⟨Or.inr rfl, hold1, h.todo⟩
  · exact ⟨hold0, Or.inl rfl, h.todo⟩
  · exact ⟨hold0, Or.inr (Or.inl rfl), h.todo⟩
  · exact ⟨hold0, Or.inr (Or.inr rfl), h.todo⟩

theorem perform_conversions (s : State) (a : Action) :
    (perform s a).conversions = s.conversions := by
  unfold perform
  split
  all_goals try rfl
  split_ifs <;> rfl

/-- What is taken apart has no other writes than those of `updateSettings`. -/
theorem mem_expand {s : State} {a : Action} {w : HwWrite} (h : Action.write w ∈ expand s a) :
    w ∈ mapWrites := by
  cases a with
  | updateSettings =>
      obtain ⟨w', hw', heq⟩ := List.mem_map.1 h
      cases heq
      exact updateSettingsWrites_subset s.SMU hw'
  | updateSmuWhenVoltageCurrentFocusChange =>
      simp only [expand] at h
      split_ifs at h <;> simp at h
  | open_ => simp [expand] at h
  | close => simp [expand] at h
  | loopDigitize menuActive =>
      simp only [expand] at h
      split_ifs at h <;> simp at h
  | render x =>
      simp only [expand] at h
      split_ifs at h <;> simp at h
  | closeMainMenuCallback f =>
      simp only [expand] at h
      split_ifs at h <;> simp at h
  | enableVoltageMeasurement enable => exact absurd h List.not_mem_nil
  | enableCurrentMeasurement enable => exact absurd h List.not_mem_nil
  | write w => exact absurd h List.not_mem_nil
  | setDigitize on => exact absurd h List.not_mem_nil
  | setBufferOverflow on => exact absurd h List.not_mem_nil
  | stopWhenFull => exact absurd h List.not_mem_nil
  | setRendering on => exact absurd h List.not_mem_nil
  | renderGraph x => exact absurd h List.not_mem_nil
  | setFunctionType f => exact absurd h List.not_mem_nil

theorem perform_mapInv {s : State} (h : MapInv s) (a : Action)
    (ha : ∀ w, a = .write w → w ∈ mapWrites) : MapInv (perform s a) := by
  cases a with
  | write w => exact h.write (ha w rfl)
  | stopWhenFull =>
      simp only [perform]
      split_ifs
      · exact h.of_same rfl h.todo
      · exact h
  | _ => exact h.of_same rfl h.todo

theorem next_mapInv {s : State} (h : MapInv s) : MapInv (next s) := by
  unfold next
  split
  · exact h
  · rename_i a todo heq
    have hmem : ∀ w, Action.write w ∈ a :: todo → w ∈ mapWrites := heq ▸ h.todo
    -- an action taken apart puts its parts in front of the rest
    have htodo : ∀ w, Action.write w ∈ expand s a ++ todo → w ∈ mapWrites := by
      intro w hw
      rcases List.mem_append.1 hw with hw | hw
      · exact mem_expand hw
      · exact hmem w (List.mem_cons_of_mem a hw)
    have htaken : MapInv { s with todo := expand s a ++ todo } := h.of_same rfl htodo
    refine perform_mapInv htaken a ?_
    intro w hw
    exact hmem w (hw ▸ List.mem_cons_self)

theorem loop_mapInv {s : State} (h : MapInv s) (x : LoopInput) : MapInv (loop s x) := by
  unfold loop
  split_ifs
  · exact h.of_same rfl (by simp)
  · exact h.of_same rfl (by simp)

theorem convert_mapInv {s : State} (h : MapInv s) (c : Channel) (converted : Measured)
    (digitized : Bool) : MapInv (convert s c converted digitized) :=
  h.of_same rfl h.todo

theorem handleSampling_mapInv {s : State} (h : MapInv s) (c : Channel) (full : Bool) :
    MapInv (handleSampling s c full) := by
  unfold handleSampling
  split_ifs
  · -- the digitizer only changes its own buffers and flags
    have hconverted :=
      convert_mapInv h c (if s.DIGITIZER.digitizeVoltage then .milliVoltage else .current) true
    unfold handleSamplingForDigitizer
    generalize convert s c _ true = s' at hconverted
    split_ifs
    · exact h
    · exact h
    · exact hconverted.of_same rfl hconverted.todo
    · exact hconverted
  · cases c with
    | channel0 => exact convert_mapInv h _ _ _
    | channel1 => exact convert_mapInv h _ _ _

theorem step_mapInv (s : State) (e : Event) (h : MapInv s) : MapInv (step s e) := by
  cases e with
  | next => exact next_mapInv h
  | loop x =>
      simp only [step]
      split_ifs
      · exact loop_mapInv h x
      · exact h
  | scpi f =>
      simp only [step]
      split_ifs
      · exact h.of_same rfl h.todo
      · exact h
  | interrupt c full =>
      simp only [step]
      split_ifs
      · exact handleSampling_mapInv h c full
      · exact h

/-! ## Conversions -/

theorem convert_match_iff {s : State} (hs : ConversionsMatch s) (c : Channel) (converted : Measured)
    (digitized : Bool) :
    ConversionsMatch (convert s c converted digitized) ↔ inputOf (mapped s c) = some converted := by
  unfold ConversionsMatch convert
  refine ⟨?_, ?_⟩
  · intro h
    exact h ⟨c, inputOf (mapped s c), converted, digitized⟩
      (List.mem_append_right _ (List.mem_singleton.2 rfl))
  · intro h x hx
    rcases List.mem_append.1 hx with hx | hx
    · exact hs x hx
    · rw [List.mem_singleton.1 hx]
      exact h

/-- The digitizer converts by its own flag. -/
theorem digitizer_match_iff {s : State} (hs : ConversionsMatch s) (c : Channel) (full : Bool) :
    ConversionsMatch (handleSamplingForDigitizer s c full) ↔
      (s.rendering = false → s.DIGITIZER.bufferOverflow = false →
        inputOf (mapped s c) =
          some (if s.DIGITIZER.digitizeVoltage then .milliVoltage else .current)) := by
  unfold handleSamplingForDigitizer
  generalize (if s.DIGITIZER.digitizeVoltage = true then Measured.milliVoltage else .current) = m
  have hconvert := convert_match_iff hs c m true
  -- what happens to the buffer afterwards makes no difference to the conversion
  generalize convert s c m true = s' at hconvert
  split_ifs with hrendering hoverflow hlast
  · exact ⟨fun _ h => absurd (hrendering.symm.trans h) (by decide), fun _ => hs⟩
  · exact ⟨fun _ _ h => absurd (hoverflow.symm.trans h) (by decide), fun _ => hs⟩
  · rw [Bool.not_eq_true] at hrendering hoverflow
    exact hconvert.trans ⟨fun h _ _ => h, fun h => h hrendering hoverflow⟩
  · rw [Bool.not_eq_true] at hrendering hoverflow
    exact hconvert.trans ⟨fun h _ _ => h, fun h => h hrendering hoverflow⟩

/-- One interrupt: what it converts matches exactly if flags and channel map are in step. -/
theorem interrupt_match_iff {s : State} (h : MapInv s) (hs : ConversionsMatch s) (c : Channel)
    (full : Bool) :
    ConversionsMatch (step s (.interrupt c full)) ↔ Settled s (.interrupt c full) := by
  simp only [step]
  cases c with
  | channel0 =>
      have hentry := h.channel0
      have henabled : enabled s .channel0 = true := by
        unfold enabled
        rcases hentry with h | h <;> rw [h] <;> decide
      -- channel 0 is mapped to one of the two inputs, and nothing else tells which
      have hinput : ¬ CurrentFocus s ∧ inputOf (mapped s .channel0) = some .milliVoltage ∨
          CurrentFocus s ∧ inputOf (mapped s .channel0) = some .current := by
        rcases hentry with h | h
        · exact Or.inl ⟨by rw [CurrentFocus, h]; decide, by rw [h]; decide⟩
        · exact Or.inr ⟨h, by rw [h]; decide⟩
      rw [if_pos henabled, Settled, handleSampling]
      by_cases hdigitize : s.DIGITIZER.digitize = true
      · rw [if_pos hdigitize, digitizer_match_iff hs]
        rcases hinput with ⟨hfocus, hinput⟩ | ⟨hfocus, hinput⟩ <;> rw [hinput] <;>
          by_cases hvoltage : s.DIGITIZER.digitizeVoltage = true <;>
          simp [hfocus, hvoltage, hdigitize, Capturing]
      · rw [if_neg hdigitize]
        refine (convert_match_iff hs _ _ _).trans ?_
        rcases hinput with ⟨hfocus, hinput⟩ | ⟨hfocus, hinput⟩ <;> rw [hinput] <;>
          simp [hfocus, hdigitize, Capturing]
  | channel1 =>
      by_cases henabled : enabled s .channel1 = true
      · -- channel 1 is off, or mapped to the current
        have hentry : mapped s .channel1 = 0x8043 := by
          rcases h.channel1 with h | h | h
          · exact h
          · exact absurd henabled (by rw [enabled, h]; decide)
          · exact absurd henabled (by rw [enabled, h]; decide)
        have hinput : inputOf (mapped s .channel1) = some .current := by rw [hentry]; decide
        rw [if_pos henabled, Settled, handleSampling]
        by_cases hdigitize : s.DIGITIZER.digitize = true
        · rw [if_pos hdigitize, digitizer_match_iff hs, hinput]
          by_cases hvoltage : s.DIGITIZER.digitizeVoltage = true <;>
            simp [hvoltage, hdigitize, henabled, Capturing]
        · rw [if_neg hdigitize]
          refine (convert_match_iff hs _ _ _).trans ?_
          simp [hinput, hdigitize, Capturing]
      · rw [if_neg henabled, Settled]
        exact ⟨fun _ h => absurd h henabled, fun _ => hs⟩

/-- Between interrupts nothing is converted. -/
theorem step_conversions (s : State) {e : Event} (he : ∀ c full, e ≠ .interrupt c full) :
    (step s e).conversions = s.conversions := by
  cases e with
  | next =>
      simp only [step, next]
      split
      · rfl
      · exact perform_conversions _ _
  | loop x =>
      simp only [step, loop]
      split_ifs <;> rfl
  | scpi f =>
      simp only [step]
      split_ifs <;> rfl
  | interrupt c full => exact absurd rfl (he c full)

theorem boot_mapInv (SMU : ADCClass) : MapInv (boot SMU) := ⟨Or.inl rfl, Or.inl rfl, nofun⟩

/-- In every interleaving of interrupts with the actions of the main program, all results are converted
for the input they were measured at exactly if no result comes while flags and channel map are out of
step. -/
theorem conversionsMatch_iff (SMU : ADCClass) (es : List Event) :
    Always step ConversionsMatch (boot SMU) es ↔ Guarded step Settled (boot SMU) es := by
  have hother : ∀ s e, (∀ c full, e ≠ .interrupt c full) → ConversionsMatch s →
      ConversionsMatch (step s e) := by
    intro s e he hs
    unfold ConversionsMatch
    rw [step_conversions s he]
    exact hs
  refine always_iff_guarded (I := fun s => MapInv s ∧ ConversionsMatch s)
    (fun _ h => h.2) ?_ ?_ ⟨boot_mapInv SMU, nofun⟩ es
  · intro s e h hok
    refine ⟨step_mapInv s e h.1, ?_⟩
    cases e with
    | interrupt c full => exact (interrupt_match_iff h.1 h.2 c full).2 hok
    | next => exact hother s _ nofun h.2
    | loop x => exact hother s _ nofun h.2
    | scpi f => exact hother s _ nofun h.2
  · intro s e h hnot hmatch
    cases e with
    | interrupt c full => exact hnot ((interrupt_match_iff h.1 h.2 c full).1 hmatch)
    | next => exact hnot trivial
    | loop x => exact hnot trivial
    | scpi f => exact hnot trivial

/-- The function is selected in the menu, and a voltage is captured.  When the buffer is full the other
input is selected; the channel map is set for it, and a result comes before `digitize` is. -/
def captureVoltageThenCurrent : List Event :=
  .loop { selected := [.DIGITIZE] } :: List.replicate 9 .next ++
    .loop { due := false } :: List.replicate 11 .next ++
    [.interrupt .channel0 true] ++
    .loop { inputTag := .number 173, millis := 1000 } :: List.replicate 6 .next ++
    .loop {} :: List.replicate 6 .next ++ [.interrupt .channel0 false]

theorem current_converted_as_voltage :
    ¬ Always step ConversionsMatch
      (boot (ADCClass.setup .default .default fun _ => 0x0C94)) captureVoltageThenCurrent := by
  decide +kernel

end Sampling
end PoorMansSmu
