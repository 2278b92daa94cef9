import PoorMansSmu.RangeSwitch

/-!
# RelOffset — the REL offset and the automatic range switch

REL makes the value shown last the zero of the display.  The offset, one for each range, is subtracted
in `handleSampling`, before the sample goes to statistics and filters, and the automatic range switch
reads the statistics.  So what is meant for the display reaches the hardware, and the hardware, by
the range, decides which offset is subtracted next.

This file compares runs that share their measured currents and everything else, but not the presses of
REL.
-/

namespace PoorMansSmu
namespace RelOffset

open SmuHal RangeSwitch Run

/-! ## State -/

/-- What concerns the current: the output stage, `C_CALIBRATION.relativeValue` and
`C_STATS.rawValue`, and two things to look back at. -/
structure State where
  SMU : ADCClass
  relativeValue : CurrentRange → ℚ
  rawValue : ℚ
  /-- The offset subtracted from the last sample. -/
  subtracted : ℚ
  /-- The ranges switched to automatically, in order. -/
  switches : List CurrentRange

/-- `toggleRelativeValue`, unless the last change was less than 100 ms ago. -/
def toggleRelativeValue (relativeValue : CurrentRange → ℚ) (v : ℚ) (current_range : CurrentRange) :
    CurrentRange → ℚ :=
  if relativeValue current_range ≠ 0 then Function.update relativeValue current_range 0
  else Function.update relativeValue current_range v

inductive Event
  /-- `handleSampling` with a measured current. -/
  | sample (Cout : ℚ)
  | handleAutoCurrentRange (enabled calibrating : Bool)
  /-- REL is pressed. -/
  | rel
  /-- Anything else the program does to the output stage. -/
  | program (f : ADCClass → ADCClass)

/-- The range that a call of `handleAutoCurrentRange` switches to, if any. -/
def autoRange (s : State) (enabled calibrating : Bool) : Option CurrentRange :=
  (HalCall.switch s.SMU (.handleAutoCurrentRange enabled calibrating s.rawValue)).map Prod.fst

def step (s : State) : Event → State
  | .sample Cout =>
      let offset := s.relativeValue s.SMU.current_range
      { s with rawValue := Cout - offset, subtracted := offset }
  | .handleAutoCurrentRange enabled calibrating =>
      { s with
        SMU := s.SMU.handleAutoCurrentRange enabled calibrating s.rawValue
        switches := s.switches ++ (autoRange s enabled calibrating).toList }
  | .rel =>
      { s with
        relativeValue := toggleRelativeValue s.relativeValue s.rawValue s.SMU.current_range }
  | .program f => { s with SMU := f s.SMU }

/-- Events of two runs: of both, or a press of REL in one of them. -/
inductive PairEvent
  | both (e : Event)
  | relFirst
  | relSecond

def pairStep (p : State × State) : PairEvent → State × State
  | .both e => (step p.1 e, step p.2 e)
  | .relFirst => (step p.1 .rel, p.2)
  | .relSecond => (p.1, step p.2 .rel)

/-- Both runs have made the same switches. -/
def SameSwitches (p : State × State) : Prop := p.1.switches = p.2.switches

/-! ## The decision -/

/-- A current makes the SMU leave a range. -/
def Leaves (range : CurrentRange) (milliAmpere : ℚ) : Prop :=
  match range with
  | .AMP1 => |milliAmpere| < ADCClass.max_current_10mA_range - 0.5
  | .MILLIAMP10 => |milliAmpere| > ADCClass.max_current_10mA_range

instance (range : CurrentRange) (milliAmpere : ℚ) : Decidable (Leaves range milliAmpere) :=
  match range with
  | .AMP1 => inferInstanceAs (Decidable (_ < _))
  | .MILLIAMP10 => inferInstanceAs (Decidable (_ < _))

def otherRange : CurrentRange → CurrentRange
  | .AMP1 => .MILLIAMP10
  | .MILLIAMP10 => .AMP1

theorem autoRange_eq (s : State) (enabled calibrating : Bool) :
    autoRange s enabled calibrating =
      if enabled = true ∧ calibrating = false ∧ Leaves s.SMU.current_range s.rawValue then
        some (otherRange s.SMU.current_range)
      else none := by
  unfold autoRange HalCall.switch
  generalize s.SMU.operationType = operationType
  generalize s.SMU.current_range = range
  cases enabled with
  | false => rfl
  | true =>
      cases calibrating with
      | true => rfl
      | false =>
          cases range with
          | AMP1 =>
              by_cases hlow : |s.rawValue| < ADCClass.max_current_10mA_range - 0.5
              · simp [Leaves, hlow, otherRange]
              · simp [Leaves, hlow]
          | MILLIAMP10 =>
              by_cases hhigh : |s.rawValue| > ADCClass.max_current_10mA_range
              · simp [Leaves, hhigh, otherRange]
              · simp [Leaves, hhigh]

/-- The output stage after a call depends on the measured current only by the decision. -/
theorem handleAutoCurrentRange_eq_autoRange (s : State) (enabled calibrating : Bool) :
    s.SMU.handleAutoCurrentRange enabled calibrating s.rawValue =
      match autoRange s enabled calibrating with
      | none => s.SMU
      | some range => s.SMU.autoSwitch range := by
  rw [handleAutoCurrentRange_eq]
  unfold autoRange
  cases HalCall.switch s.SMU (.handleAutoCurrentRange enabled calibrating s.rawValue) with
  | none => rfl
  | some r => rfl

/-! ## Two runs -/

/-- The two values decide alike. -/
def SameDecision (p : State × State) : PairEvent → Prop
  | .both (.handleAutoCurrentRange enabled calibrating) =>
      enabled = true → calibrating = false →
        (Leaves p.1.SMU.current_range p.1.rawValue ↔ Leaves p.2.SMU.current_range p.2.rawValue)
  | _ => True

/-- The output stages agree, and the switches made. -/
def Lockstep (p : State × State) : Prop := p.1.SMU = p.2.SMU ∧ p.1.switches = p.2.switches

theorem autoRange_congr {s t : State} (hSMU : s.SMU = t.SMU) {enabled calibrating : Bool}
    (hsame : enabled = true → calibrating = false →
      (Leaves s.SMU.current_range s.rawValue ↔ Leaves t.SMU.current_range t.rawValue)) :
    autoRange s enabled calibrating = autoRange t enabled calibrating := by
  rw [autoRange_eq, autoRange_eq, ← hSMU] at *
  refine if_congr ?_ rfl rfl
  exact and_congr_right fun henabled => and_congr_right fun hcalibrating =>
    hsame henabled hcalibrating

theorem lockstep_step (p : State × State) (e : PairEvent) (h : Lockstep p)
    (hok : SameDecision p e) : Lockstep (pairStep p e) := by
  obtain ⟨hSMU, hswitches⟩ := h
  cases e with
  | both e =>
      cases e with
      | sample Cout => exact ⟨hSMU, hswitches⟩
      | handleAutoCurrentRange enabled calibrating =>
          -- the decision is all that a call takes from the measured value
          have hauto := autoRange_congr hSMU hok
          refine ⟨?_, ?_⟩
          · simp only [pairStep, step]
            rw [handleAutoCurrentRange_eq_autoRange, handleAutoCurrentRange_eq_autoRange, hauto,
              hSMU]
          · simp only [pairStep, step, hauto, hswitches]
      | rel => exact ⟨hSMU, hswitches⟩
      | program f => exact ⟨congrArg f hSMU, hswitches⟩
  | relFirst => exact ⟨hSMU, hswitches⟩
  | relSecond => exact ⟨hSMU, hswitches⟩

/-- When the values decide differently, one of the runs switches and the other does not. -/
theorem not_sameSwitches (p : State × State) (e : PairEvent) (h : Lockstep p)
    (hbad : ¬ SameDecision p e) : ¬ SameSwitches (pairStep p e) := by
  obtain ⟨hSMU, hswitches⟩ := h
  cases e with
  | both e =>
      cases e with
      | handleAutoCurrentRange enabled calibrating =>
          simp only [SameDecision, Classical.not_imp] at hbad
          obtain ⟨henabled, hcalibrating, hdiffer⟩ := hbad
          intro hsame
          simp only [SameSwitches, pairStep, step, hswitches, List.append_cancel_left_eq] at hsame
          refine hdiffer ?_
          -- the histories were equal, so the switches of this call would have to be
          rw [autoRange_eq, autoRange_eq] at hsame
          simp only [henabled, hcalibrating, true_and] at hsame
          constructor
          · intro hfirst
            by_contra hsecond
            simp [hfirst, hsecond] at hsame
          · intro hsecond
            by_contra hfirst
            simp [hfirst, hsecond] at hsame
      | sample Cout => exact absurd trivial hbad
      | rel => exact absurd trivial hbad
      | program f => exact absurd trivial hbad
  | relFirst => exact absurd trivial hbad
  | relSecond => exact absurd trivial hbad

/-- Runs that differ in REL only make the same switches exactly when the two values decide alike
whenever a decision is made. -/
theorem sameSwitches_iff (s : State) (es : List PairEvent) :
    Always pairStep SameSwitches (s, s) es ↔ Guarded pairStep SameDecision (s, s) es :=
  always_iff_guarded (I := Lockstep) (fun _ h => h.2) lockstep_step not_sameSwitches ⟨rfl, rfl⟩ es

/-! ## A constant current -/

/-- The measured current is always `c`, and nothing else changes the range. -/
def Steady (c : ℚ) : Event → Prop
  | .sample Cout => Cout = c
  | .program f => ∀ SMU, (f SMU).current_range = SMU.current_range
  | _ => True

/-- With the offset subtracted last, the current is still above the threshold when a decision is
made. -/
def AboveThreshold (c : ℚ) (s : State) : Event → Prop
  | .handleAutoCurrentRange enabled calibrating =>
      enabled = true → calibrating = false →
        ADCClass.max_current_10mA_range - 0.5 ≤ |c - s.subtracted|
  | _ => True

/-- The 1 A range, with a current `c` shown. -/
structure Shows (c : ℚ) (s : State) : Prop where
  range : s.SMU.current_range = .AMP1
  rawValue : s.rawValue = c - s.subtracted

theorem handleAutoCurrentRange_range (s : State) (enabled calibrating : Bool)
    (hrange : s.SMU.current_range = .AMP1) :
    (s.SMU.handleAutoCurrentRange enabled calibrating s.rawValue).current_range = .AMP1 ↔
      (enabled = true → calibrating = false →
        ADCClass.max_current_10mA_range - 0.5 ≤ |s.rawValue|) := by
  rw [handleAutoCurrentRange_eq_autoRange, autoRange_eq, hrange]
  by_cases hleaves : enabled = true ∧ calibrating = false ∧ Leaves .AMP1 s.rawValue
  · obtain ⟨henabled, hcalibrating, hlow⟩ := hleaves
    have hnot : ¬ ADCClass.max_current_10mA_range - 0.5 ≤ |s.rawValue| := not_le.2 hlow
    simp [henabled, hcalibrating, hlow, hnot, otherRange]
  · rw [if_neg hleaves]
    refine iff_of_true hrange fun henabled hcalibrating => ?_
    exact not_lt.1 fun hlow => hleaves ⟨henabled, hcalibrating, hlow⟩

theorem shows_step (c : ℚ) (s : State) (e : Event) (h : Shows c s) (he : Steady c e)
    (hok : AboveThreshold c s e) : Shows c (step s e) := by
  obtain ⟨hrange, hraw⟩ := h
  cases e with
  | sample Cout =>
      refine ⟨hrange, ?_⟩
      simp only [step]
      rw [he]
  | handleAutoCurrentRange enabled calibrating =>
      refine ⟨(handleAutoCurrentRange_range s enabled calibrating hrange).2 ?_, hraw⟩
      rw [hraw]
      exact hok
  | rel => exact ⟨hrange, hraw⟩
  | program f => exact ⟨(he s.SMU).trans hrange, hraw⟩

theorem leaves_step (c : ℚ) (s : State) (e : Event) (h : Shows c s)
    (hbad : ¬ AboveThreshold c s e) : ¬ (step s e).SMU.current_range = .AMP1 := by
  obtain ⟨hrange, hraw⟩ := h
  cases e with
  | handleAutoCurrentRange enabled calibrating =>
      intro hstays
      have hok := (handleAutoCurrentRange_range s enabled calibrating hrange).1 hstays
      rw [hraw] at hok
      exact hbad hok
  | sample Cout => exact absurd trivial hbad
  | rel => exact absurd trivial hbad
  | program f => exact absurd trivial hbad

/-- With a constant current the SMU stays in the 1 A range exactly when what is left of the current
is above the threshold whenever a decision is made. -/
theorem stays_iff {c : ℚ} {s : State} (h : Shows c s) {es : List Event}
    (hes : ∀ e ∈ es, Steady c e) :
    Always step (fun s => s.SMU.current_range = .AMP1) s es ↔
      Guarded step (AboveThreshold c) s es :=
  always_iff_guarded_on (I := Shows c) (fun _ h => h.range) (shows_step c)
    (fun s e h _ => leaves_step c s e h) h es hes

/-- Without REL a constant current above the threshold never leaves the 1 A range. -/
theorem stays_without_rel {c : ℚ} (hc : ADCClass.max_current_10mA_range < |c|) {s : State}
    (hrange : s.SMU.current_range = .AMP1) (hoffset : s.relativeValue .AMP1 = 0)
    (hsubtracted : s.subtracted = 0) (hraw : s.rawValue = c) {es : List Event}
    (hes : ∀ e ∈ es, Steady c e) (hrel : .rel ∉ es) :
    Always step (fun s => s.SMU.current_range = .AMP1) s es := by
  have hshows : Shows c s := ⟨hrange, by rw [hraw, hsubtracted, sub_zero]⟩
  refine (stays_iff hshows hes).2 ?_
  clear hraw
  have habove : ADCClass.max_current_10mA_range - 0.5 ≤ |c - 0| := by
    rw [sub_zero]
    linarith
  -- no offset has been set, so none is ever subtracted
  induction es generalizing s with
  | nil => trivial
  | cons e es ih =>
      have hok : AboveThreshold c s e := by
        cases e with
        | handleAutoCurrentRange enabled calibrating =>
            intro _ _
            rw [hsubtracted]
            exact habove
        | _ => trivial
      have he : Steady c e := hes e (List.mem_cons_self ..)
      have hnext := shows_step c s e hshows he hok
      refine ⟨hok, ih hnext.range ?_ ?_ (fun e' h => hes e' (List.mem_cons_of_mem _ h))
        (fun h => hrel (List.mem_cons_of_mem _ h)) hnext⟩
      · cases e with
        | rel => exact absurd (List.mem_cons_self ..) hrel
        | _ => exact hoffset
      · cases e with
        | sample Cout =>
            simp only [step]
            rw [hrange]
            exact hoffset
        | _ => exact hsubtracted

/-- From any state, REL is without effect on the automatic range exactly under these conditions: for
two runs that differ in REL only, the two values decide alike whenever a decision is made; for a
constant current in the 1 A range, what is left of it is above the threshold whenever a decision is
made. -/
theorem rel_without_effect_iff (s : State) :
    (∀ es : List PairEvent,
        Always pairStep SameSwitches (s, s) es ↔ Guarded pairStep SameDecision (s, s) es) ∧
      ∀ (c : ℚ) (es : List Event), Shows c s → (∀ e ∈ es, Steady c e) →
        (Always step (fun s => s.SMU.current_range = .AMP1) s es ↔
          Guarded step (AboveThreshold c) s es) :=
  ⟨sameSwitches_iff s, fun _ _ h hes => stays_iff h hes⟩

/-- The output stage as set up, with a current of 100 mA shown. -/
def initial : State where
  SMU := ADCClass.setup Calibration.DacComp.default Calibration.DacComp.default fun _ => 0
  relativeValue := fun _ => 0
  rawValue := 100
  subtracted := 0
  switches := []

theorem rel_without_effect_without_rel :
    Always step (fun s => s.SMU.current_range = .AMP1) initial
        [.sample 100, .handleAutoCurrentRange true false] ↔
      Guarded step (AboveThreshold 100) initial
        [.sample 100, .handleAutoCurrentRange true false] :=
  (rel_without_effect_iff initial).2 100 _ ⟨rfl, (sub_zero 100).symm⟩ (by simp [Steady])

/-- With 100 mA flowing, REL makes the SMU switch to the 10 mA range. -/
theorem rel_switches_range :
    ¬ Always pairStep SameSwitches (initial, initial)
      [.both (.sample 100), .relFirst, .both (.sample 100),
        .both (.handleAutoCurrentRange true false)] := by
  intro h
  have hend := h.exec
  revert hend
  unfold SameSwitches
  decide +kernel

end RelOffset
end PoorMansSmu
