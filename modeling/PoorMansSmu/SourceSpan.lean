import PoorMansSmu.Deliverable
import PoorMansSmu.FrontPanel
import PoorMansSmu.Lib.Run

/-!
# SourceSpan — the span the source converter is in

Both source commits write a span to the converter.  The rest of the program does not read it back:
it goes by the members `DAC_RANGE_LOW` and `DAC_RANGE_HIGH`, for the resolution of the knob and for
the step on the display.  `fltSetCommitCurrentSource` has local variables of these names, and leaves
the members as they were (`always_describes_iff`).

A change of the span shows as a spike at the output.  The pulse generator leaves the choice of the
span to the commit when both levels are small; they may still be in different spans
(`pulse_span_iff`).
-/

namespace PoorMansSmu
namespace SourceSpan

open Calibration Hardware Ltc2758 SmuHal RangeSwitch Deliverable

/-! ## What the members are read for -/

def use100uVSetResolution (s : ADCClass) : Bool :=
  if s.DAC_RANGE_LOW = -10 then false else true

/-- `reduceResolution` of the main loop. -/
def reduceResolution (s : ADCClass) (changeDigit : ℤ) : Bool :=
  !use100uVSetResolution s && changeDigit = 1000

/-- The step on the display, in microvolt; nothing for other limits.  The output is twice what the
converter puts out. -/
def uVstep (s : ADCClass) : Option ℚ :=
  let uVstep := 1000000 / 2 ^ 18
  if |s.DAC_RANGE_LOW| = 5 ∧ |s.DAC_RANGE_HIGH| = 5 then some (uVstep * 20)
  else if |s.DAC_RANGE_LOW| = 5 / 2 ∧ |s.DAC_RANGE_HIGH| = 5 / 2 then some (uVstep * 10)
  else if |s.DAC_RANGE_LOW| = 10 ∧ |s.DAC_RANGE_HIGH| = 10 then some (uVstep * 40)
  else none

/-- The members are the limits of a span. -/
def Limits (s : ADCClass) (span : SoftSpan) : Prop :=
  s.DAC_RANGE_LOW = span.scale.lo ∧ s.DAC_RANGE_HIGH = span.scale.hi

/-- The members are the limits of the span in use, so that resolution and step are those of the
converter. -/
structure Describes (s : ADCClass) : Prop where
  limits : Limits s s.hw.sourceDac.span
  resolution : use100uVSetResolution s = true ↔ s.hw.sourceDac.span ≠ .bipolar10
  reduced : ∀ changeDigit, reduceResolution s changeDigit = true ↔
    s.hw.sourceDac.span = .bipolar10 ∧ changeDigit = 1000
  step : uVstep s = some (2 * (s.hw.sourceDac.span.scale.hi - s.hw.sourceDac.span.scale.lo) *
    (1000000 / 2 ^ 18))

/-- The spans of the two commits. -/
def IsSource (span : SoftSpan) : Prop :=
  span = .bipolar2_5 ∨ span = .bipolar5 ∨ span = .bipolar10

/-- The members are the limits of the span in use, one of those of the two commits. -/
structure InStep (s : ADCClass) : Prop where
  source : IsSource s.hw.sourceDac.span
  limits : Limits s s.hw.sourceDac.span

/-- Everything follows from the limits. -/
theorem InStep.describes {s : ADCClass} (h : InStep s) : Describes s := by
  have hsource := h.source
  have hlimits := h.limits
  have hresolution : use100uVSetResolution s = true ↔ s.hw.sourceDac.span ≠ .bipolar10 := by
    unfold use100uVSetResolution
    rw [hlimits.1]
    rcases hsource with hspan | hspan | hspan <;> rw [hspan]
    · exact iff_of_true (by norm_num [SoftSpan.scale]) (by decide)
    · exact iff_of_true (by norm_num [SoftSpan.scale]) (by decide)
    · exact iff_of_false (by norm_num [SoftSpan.scale]) (not_not.2 rfl)
  refine ⟨hlimits, hresolution, fun changeDigit => ?_, ?_⟩
  · simp only [reduceResolution, Bool.and_eq_true, Bool.not_eq_true', decide_eq_true_eq]
    rw [← Bool.not_eq_true, hresolution, not_not]
  · unfold uVstep
    rw [hlimits.1, hlimits.2]
    rcases hsource with hspan | hspan | hspan <;> rw [hspan] <;>
      norm_num [SoftSpan.scale, abs_of_pos]

/-! ## What a commit does to the members and to the converter -/

section Commits

variable (s : ADCClass)

/-- The span of a voltage commit. -/
def voltageCommitSpan (s : ADCClass) (voltage_uV : ℤ) (dynamicRange : Bool) : SoftSpan :=
  if dynamicRange then voltageSpan (voltageSourceVolts s.V_CALIBRATION voltage_uV) else .bipolar10

theorem voltageSource_span (voltage_uV : ℤ) (dynamicRange : Bool) :
    (s.fltSetCommitVoltageSource voltage_uV dynamicRange).hw.sourceDac.span =
      voltageCommitSpan s voltage_uV dynamicRange := by
  cases dynamicRange with
  | true => exact (voltageSource_dac s voltage_uV).1
  | false => exact (written_dac s.hw.sourceDac .bipolar10 (3 * 4) rfl _).1

theorem isSource_voltageCommitSpan (voltage_uV : ℤ) (dynamicRange : Bool) :
    IsSource (voltageCommitSpan s voltage_uV dynamicRange) := by
  unfold voltageCommitSpan voltageSpan
  split_ifs
  · exact Or.inl rfl
  · exact Or.inr (Or.inl rfl)
  · exact Or.inr (Or.inr rfl)
  · exact Or.inr (Or.inr rfl)

/-- A voltage commit keeps the members and the converter in step. -/
theorem voltageSource_inStep (voltage_uV : ℤ) (dynamicRange : Bool) :
    InStep (s.fltSetCommitVoltageSource voltage_uV dynamicRange) := by
  have hspan := voltageSource_span s voltage_uV dynamicRange
  constructor
  · rw [hspan]
    exact isSource_voltageCommitSpan s voltage_uV dynamicRange
  · rw [hspan]
    unfold ADCClass.fltSetCommitVoltageSource voltageCommitSpan voltageSpan
    cases dynamicRange with
    | true =>
        simp only [if_true]
        split_ifs <;> exact ⟨rfl, rfl⟩
    | false => exact ⟨rfl, rfl⟩

theorem isSource_sourceSpan (dac_voltage : ℚ) : IsSource (sourceSpan dac_voltage) := by
  unfold sourceSpan
  split_ifs
  · exact Or.inl rfl
  · exact Or.inr (Or.inr rfl)

/-- A current commit leaves the members alone. -/
theorem currentSource_limits (current_uA : ℤ) (span : SoftSpan) :
    Limits (s.fltSetCommitCurrentSource current_uA) span ↔ Limits s span := by
  unfold ADCClass.fltSetCommitCurrentSource
  exact Iff.rfl

/-- The members are the limits of the span that a source current will be committed in. -/
def CurrentFits (s : ADCClass) (range : CurrentRange) (current_uA : ℤ) : Prop :=
  Limits s (sourceSpan (currentSourceVolts s.C_CALIBRATION range current_uA))

theorem currentSource_inStep (h : CurrentFits s s.current_range current_uA) :
    InStep (s.fltSetCommitCurrentSource current_uA) := by
  have hspan := (currentSource_dac s current_uA).1
  constructor
  · rw [hspan]
    exact isSource_sourceSpan _
  · rw [hspan, currentSource_limits]
    exact h

theorem currentSource_not_limits (h : ¬ CurrentFits s s.current_range current_uA) :
    ¬ Describes (s.fltSetCommitCurrentSource current_uA) := by
  intro hdescribes
  have hlimits := hdescribes.limits
  rw [(currentSource_dac s current_uA).1, currentSource_limits] at hlimits
  exact h hlimits

/-- A change of the range in voltage mode commits the limit only. -/
theorem setCurrentRange_voltage_inStep (range : CurrentRange) (h : InStep s) :
    InStep (s.setCurrentRange range .SOURCE_VOLTAGE) := by
  cases range with
  | AMP1 => exact ⟨h.source, h.limits⟩
  | MILLIAMP10 => exact ⟨h.source, h.limits⟩

end Commits

/-! ## Runs -/

/-- A source value is committed, or the current range is changed. -/
inductive Event
  | fltSetCommitVoltageSource (voltage_uV : ℤ) (dynamicRange : Bool)
  | fltSetCommitCurrentSource (current_uA : ℤ)
  | setCurrentRange (range : CurrentRange) (operationType : OperationType)

def step (s : ADCClass) : Event → ADCClass
  | .fltSetCommitVoltageSource voltage_uV dynamicRange =>
      s.fltSetCommitVoltageSource voltage_uV dynamicRange
  | .fltSetCommitCurrentSource current_uA => s.fltSetCommitCurrentSource current_uA
  | .setCurrentRange range operationType => s.setCurrentRange range operationType

/-- A source current, also the one committed again in a new range, finds the members at the limits
of the span it is committed in. -/
def MembersFit (s : ADCClass) : Event → Prop
  | .fltSetCommitCurrentSource current_uA => CurrentFits s s.current_range current_uA
  | .setCurrentRange range .SOURCE_CURRENT => CurrentFits s range s.setValue_micro
  | _ => True

/-- Members and source converter are the same. -/
structure Same (s s' : ADCClass) : Prop where
  low : s.DAC_RANGE_LOW = s'.DAC_RANGE_LOW
  high : s.DAC_RANGE_HIGH = s'.DAC_RANGE_HIGH
  dac : s.hw.sourceDac = s'.hw.sourceDac

theorem Same.limits {s s' : ADCClass} (h : Same s s') (span : SoftSpan) :
    Limits s span ↔ Limits s' span := by
  unfold Limits
  rw [h.low, h.high]

theorem setGpio_same (s : ADCClass) (nr : ℕ) (on : Bool) : Same (s.setGpio nr on) s := by
  unfold ADCClass.setGpio ADCClass.write
  split_ifs <;> exact ⟨rfl, rfl, rfl⟩

/-- A change of the range in current mode commits the source value once more, before or after the
relay. -/
theorem setCurrentRange_current (s : ADCClass) (range : CurrentRange) :
    ∃ s' : ADCClass, s'.current_range = range ∧ s'.C_CALIBRATION = s.C_CALIBRATION ∧
      Same s' s ∧ Same (s.setCurrentRange range .SOURCE_CURRENT)
        (s'.fltSetCommitCurrentSource s.setValue_micro) := by
  cases range with
  | AMP1 =>
      let relay := ({ s with current_range := .AMP1 }).write (.digitalWrite4 true)
      have hgpio := setGpio_same relay 1 true
      exact ⟨relay.setGpio 1 true, rfl, rfl, ⟨hgpio.low, hgpio.high, hgpio.dac⟩, rfl, rfl, rfl⟩
  | MILLIAMP10 =>
      let s' : ADCClass := { s with current_range := .MILLIAMP10 }
      have hgpio := setGpio_same
        ((s'.fltSetCommitCurrentSource s.setValue_micro).write (.digitalWrite4 false)) 1 false
      exact ⟨s', rfl, rfl, ⟨rfl, rfl, rfl⟩, hgpio.low, hgpio.high, hgpio.dac⟩

theorem InStep.step {s : ADCClass} (h : InStep s) {e : Event} (hfit : MembersFit s e) :
    InStep (step s e) := by
  cases e with
  | fltSetCommitVoltageSource voltage_uV dynamicRange =>
      exact voltageSource_inStep s voltage_uV dynamicRange
  | fltSetCommitCurrentSource current_uA => exact currentSource_inStep s hfit
  | setCurrentRange range operationType =>
      cases operationType with
      | SOURCE_VOLTAGE => exact setCurrentRange_voltage_inStep s range h
      | SOURCE_CURRENT =>
          -- the source value is committed again, in the new range
          rcases setCurrentRange_current s range with ⟨s', hrange, hgains, hs', hsame⟩
          have hfits : CurrentFits s' s'.current_range s.setValue_micro := by
            unfold CurrentFits
            rw [hrange, hgains, hs'.limits]
            exact hfit
          have hnext := currentSource_inStep s' hfits
          constructor
          · show IsSource (s.setCurrentRange range .SOURCE_CURRENT).hw.sourceDac.span
            rw [hsame.dac]
            exact hnext.source
          · show Limits (s.setCurrentRange range .SOURCE_CURRENT)
              (s.setCurrentRange range .SOURCE_CURRENT).hw.sourceDac.span
            rw [hsame.dac, hsame.limits]
            exact hnext.limits

theorem not_describes_step {s : ADCClass} {e : Event} (hbad : ¬ MembersFit s e) :
    ¬ Describes (step s e) := by
  cases e with
  | fltSetCommitVoltageSource voltage_uV dynamicRange => exact absurd trivial hbad
  | fltSetCommitCurrentSource current_uA => exact currentSource_not_limits s hbad
  | setCurrentRange range operationType =>
      cases operationType with
      | SOURCE_VOLTAGE => exact absurd trivial hbad
      | SOURCE_CURRENT =>
          rcases setCurrentRange_current s range with ⟨s', hrange, hgains, hs', hsame⟩
          intro hdescribes
          have hnext : Limits (s.setCurrentRange range .SOURCE_CURRENT)
              (s.setCurrentRange range .SOURCE_CURRENT).hw.sourceDac.span := hdescribes.limits
          rw [hsame.dac, hsame.limits, (currentSource_dac s' _).1, currentSource_limits, hrange,
            hgains, hs'.limits] at hnext
          exact hbad hnext

theorem inStep_setup (V_CALIBRATION C_CALIBRATION : DacComp) (adc : ℕ → ℕ) :
    InStep (ADCClass.setup V_CALIBRATION C_CALIBRATION adc) := by
  let s := (ADCClass.init V_CALIBRATION C_CALIBRATION adc).setGpio 1 false
  have hvoltage := voltageSource_inStep s 1234500 true
  have hrange := setCurrentRange_voltage_inStep _ .AMP1 hvoltage
  -- the limit goes to the other converter
  exact ⟨hrange.source, hrange.limits⟩

/-- The members describe the converter all along exactly those runs in which every source current
finds them at the limits of its span. -/
theorem always_describes_iff (V_CALIBRATION C_CALIBRATION : DacComp) (adc : ℕ → ℕ)
    (es : List Event) :
    Run.Always step Describes (ADCClass.setup V_CALIBRATION C_CALIBRATION adc) es ↔
      Run.Guarded step MembersFit (ADCClass.setup V_CALIBRATION C_CALIBRATION adc) es :=
  Run.always_iff_guarded (fun _ h => h.describes) (fun _ _ h hfit => h.step hfit)
    (fun _ _ _ hbad => not_describes_step hbad) (inStep_setup V_CALIBRATION C_CALIBRATION adc) es

/-- A current of 1 A is committed in the span of 10 V, and the members stay at 2.5 V. -/
theorem not_always_describes :
    ¬ ∀ (V_CALIBRATION C_CALIBRATION : DacComp) (adc : ℕ → ℕ) (es : List Event),
      Run.Always step Describes (ADCClass.setup V_CALIBRATION C_CALIBRATION adc) es := by
  intro hall
  have hend := (hall DacComp.default DacComp.default (fun _ => 0)
    [.fltSetCommitCurrentSource 1000000]).exec.limits.1
  revert hend
  decide +kernel

/-! ## Pulses -/

/-- Gains of one and no offset, as on a board that was never calibrated. -/
structure UnitGains (V_CALIBRATION : DacGains) : Prop where
  pos : V_CALIBRATION.dacGainCompPos = 1
  neg : V_CALIBRATION.dacGainCompNeg = 1
  pos2 : V_CALIBRATION.dacGainCompPos2 = 1
  neg2 : V_CALIBRATION.dacGainCompNeg2 = 1
  zero : V_CALIBRATION.dacZeroComp = 0

theorem UnitGains.volts {V_CALIBRATION : DacGains} (h : UnitGains V_CALIBRATION)
    (voltage_uV : ℚ) : voltageSourceVolts V_CALIBRATION voltage_uV = voltage_uV / 1000000 := by
  simp only [voltageSourceVolts, h.pos, h.neg, h.pos2, h.neg2, h.zero, ite_self, mul_one, add_zero,
    dac_nonlinear_compensation_eq, voltageInputDividerCompensation]
  ring

/-- The next edge of the pulse, with the levels as `sourcePulse` passes them. -/
def edge (p : FrontPanel.FunctionPulseClass × ADCClass) :
    FrontPanel.FunctionPulseClass × ADCClass :=
  p.1.sourceVoltagePulse p.2 p.1.min p.1.max

/-- The span after the `n`-th edge. -/
def edgeSpan (p : FrontPanel.FunctionPulseClass × ADCClass) (n : ℕ) : SoftSpan :=
  (edge^[n] p).2.hw.sourceDac.span

/-- The span that a level is committed in. -/
def levelSpan (c : FrontPanel.FunctionPulseClass) (level : ℚ) : SoftSpan :=
  if |c.max| < 4500 ∧ |c.min| < 4500 then
    if |level| < 2300001 / 1000 then .bipolar2_5 else .bipolar5
  else .bipolar10

theorem abs_truncate_le_iff (x : ℚ) (n : ℕ) : |truncate x| ≤ (n : ℤ) ↔ |x| < n + 1 := by
  unfold truncate
  rw [abs_le, abs_lt]
  split_ifs with hx
  · have hneg : ⌈x⌉ ≤ 0 := Int.ceil_le.2 (by simpa using hx.le)
    have hlow : -(n : ℤ) ≤ ⌈x⌉ ↔ -((n : ℚ) + 1) < x := by
      rw [← Int.sub_one_lt_iff, Int.lt_ceil]
      push_cast
      rw [neg_add']
    rw [hlow]
    exact ⟨fun h => ⟨h.1, by linarith⟩, fun h => ⟨h.1, by omega⟩⟩
  · have hnonneg : 0 ≤ ⌊x⌋ := Int.le_floor.2 (by simpa using hx)
    have hup : ⌊x⌋ ≤ (n : ℤ) ↔ x < (n : ℚ) + 1 := by
      rw [← Int.lt_add_one_iff, Int.floor_lt]
      push_cast
      rfl
    rw [hup]
    exact ⟨fun h => ⟨by linarith, h.2⟩, fun h => ⟨by omega, h.2⟩⟩

/-- A level in millivolt against a bound in volt; what is committed are whole microvolts. -/
theorem level_le_iff (level : ℚ) (n : ℕ) :
    |(truncate (level * 1000) : ℚ) / 1000000| ≤ n / 1000000 ↔ |level| * 1000 < n + 1 := by
  have hthousand : |level * 1000| = |level| * 1000 := by
    rw [abs_mul, abs_of_pos (by norm_num : (0 : ℚ) < 1000)]
  have hmillion : (0 : ℚ) < 1000000 := by norm_num
  have hcast : (|(truncate (level * 1000) : ℚ)| ≤ n) ↔ |truncate (level * 1000)| ≤ (n : ℤ) := by
    exact_mod_cast Iff.rfl
  rw [abs_div, abs_of_pos hmillion, div_le_div_iff_of_pos_right hmillion, hcast,
    abs_truncate_le_iff, hthousand]

theorem voltageSource_gains (s : ADCClass) (voltage_uV : ℤ) (dynamicRange : Bool) :
    (s.fltSetCommitVoltageSource voltage_uV dynamicRange).V_CALIBRATION = s.V_CALIBRATION := by
  unfold ADCClass.fltSetCommitVoltageSource
  rfl

section Edges

variable {p : FrontPanel.FunctionPulseClass × ADCClass}

/-- Below 4.5 V the largest span is not used, and 2.3 V are the limit of the smallest one. -/
theorem voltageCommitSpan_level (hgains : UnitGains p.2.V_CALIBRATION) {level : ℚ}
    (hlevel : level = p.1.min ∨ level = p.1.max) :
    voltageCommitSpan p.2 (truncate (level * 1000)) (|p.1.max| < 4500 ∧ |p.1.min| < 4500 : Bool) =
      levelSpan p.1 level := by
  unfold voltageCommitSpan levelSpan
  by_cases hdynamic : |p.1.max| < 4500 ∧ |p.1.min| < 4500
  · rw [if_pos hdynamic, decide_eq_true hdynamic, if_pos rfl, hgains.volts]
    have hsmall : |level| < 4500 := by
      rcases hlevel with rfl | rfl
      · exact hdynamic.2
      · exact hdynamic.1
    -- 2.3 V are exceeded from the next whole microvolt on
    have hfirst : |(truncate (level * 1000) : ℚ) / 1000000| ≤ 23 / 10 ↔
        |level| < 2300001 / 1000 := by
      have hiff := level_le_iff level 2300000
      norm_num at hiff
      rw [hiff]
      constructor <;> intro h <;> linarith
    have hsecond : |(truncate (level * 1000) : ℚ) / 1000000| ≤ 46 / 10 := by
      have hiff := level_le_iff level 4600000
      norm_num at hiff
      have hle := hiff.2 (by linarith)
      linarith
    unfold voltageSpan
    rw [if_pos hsecond]
    exact if_congr hfirst rfl rfl
  · rw [if_neg hdynamic, decide_eq_false hdynamic]
    rfl

/-- An edge commits the level of the other half, and changes neither the levels nor the gains. -/
theorem edge_spec (hgains : UnitGains p.2.V_CALIBRATION) :
    (edge p).2.hw.sourceDac.span = levelSpan p.1 (if p.1.pulseHigh then p.1.max else p.1.min) ∧
      (edge p).1.pulseHigh = !p.1.pulseHigh ∧ (edge p).1.min = p.1.min ∧
      (edge p).1.max = p.1.max ∧ UnitGains (edge p).2.V_CALIBRATION := by
  unfold edge FrontPanel.FunctionPulseClass.sourceVoltagePulse
  cases hhigh : p.1.pulseHigh with
  | true =>
      simp only [if_true]
      refine ⟨?_, rfl, trivial, trivial, ?_⟩
      · rw [voltageSource_span]
        exact voltageCommitSpan_level hgains (Or.inr rfl)
      · rw [voltageSource_gains]
        exact hgains
  | false =>
      simp only [Bool.false_eq_true, if_false]
      refine ⟨?_, rfl, trivial, trivial, ?_⟩
      · rw [voltageSource_span]
        exact voltageCommitSpan_level hgains (Or.inl rfl)
      · rw [voltageSource_gains]
        exact hgains

end Edges

/-- After any number of edges the levels and gains are those of the start. -/
theorem edges_keep (p : FrontPanel.FunctionPulseClass × ADCClass)
    (hgains : UnitGains p.2.V_CALIBRATION) (n : ℕ) :
    (edge^[n] p).1.min = p.1.min ∧ (edge^[n] p).1.max = p.1.max ∧
      UnitGains (edge^[n] p).2.V_CALIBRATION := by
  induction n with
  | zero => exact ⟨rfl, rfl, hgains⟩
  | succ n ih =>
      rw [Function.iterate_succ_apply']
      rcases ih with ⟨hmin, hmax, hn⟩
      rcases edge_spec hn with ⟨-, -, hmin', hmax', hn'⟩
      exact ⟨hmin'.trans hmin, hmax'.trans hmax, hn'⟩

theorem levelSpan_congr {c c' : FrontPanel.FunctionPulseClass} (hmin : c'.min = c.min)
    (hmax : c'.max = c.max) (level : ℚ) : levelSpan c' level = levelSpan c level := by
  unfold levelSpan
  rw [hmin, hmax]

/-- Two edges that follow one another commit both levels. -/
theorem edgeSpan_succ_eq_iff (p : FrontPanel.FunctionPulseClass × ADCClass)
    (hgains : UnitGains p.2.V_CALIBRATION) (n : ℕ) :
    edgeSpan p (n + 1) = edgeSpan p (n + 2) ↔
      levelSpan p.1 p.1.min = levelSpan p.1 p.1.max := by
  rcases edges_keep p hgains n with ⟨hmin, hmax, hn⟩
  rcases edge_spec hn with ⟨hspan, hhigh, hmin', hmax', hn'⟩
  have hspan' := (edge_spec hn').1
  unfold edgeSpan
  rw [Function.iterate_succ_apply' edge (n + 1), Function.iterate_succ_apply' edge n, hspan', hspan,
    hhigh, hmin', hmax', hmin, hmax, levelSpan_congr hmin hmax,
    levelSpan_congr (hmin'.trans hmin) (hmax'.trans hmax)]
  cases (edge^[n] p).1.pulseHigh with
  | true => exact eq_comm
  | false => exact Iff.rfl

/-- The span stays the same over all edges exactly when one level is at least 4.5 V, so that the one
of 10 V is used, or both are on the same side of 2.3 V. -/
theorem pulse_span_iff (p : FrontPanel.FunctionPulseClass × ADCClass)
    (hgains : UnitGains p.2.V_CALIBRATION) :
    (∀ n, edgeSpan p (n + 1) = edgeSpan p (n + 2)) ↔
      (4500 ≤ |p.1.min| ∨ 4500 ≤ |p.1.max|) ∨
        (|p.1.min| < 2300001 / 1000 ↔ |p.1.max| < 2300001 / 1000) := by
  have hlevels : levelSpan p.1 p.1.min = levelSpan p.1 p.1.max ↔
      (4500 ≤ |p.1.min| ∨ 4500 ≤ |p.1.max|) ∨
        (|p.1.min| < 2300001 / 1000 ↔ |p.1.max| < 2300001 / 1000) := by
    unfold levelSpan
    by_cases hdynamic : |p.1.max| < 4500 ∧ |p.1.min| < 4500
    · rw [if_pos hdynamic, if_pos hdynamic, ← not_lt, ← not_lt, ← not_and_or, and_comm,
        or_iff_right (not_not.2 hdynamic)]
      split_ifs with hmin hmax hmax
      · exact iff_of_true rfl ⟨fun _ => hmax, fun _ => hmin⟩
      · exact iff_of_false (by decide) fun h => hmax (h.1 hmin)
      · exact iff_of_false (by decide) fun h => hmin (h.2 hmax)
      · exact iff_of_true rfl ⟨fun h => absurd h hmin, fun h => absurd h hmax⟩
    · -- both levels in the span of 10 V
      rw [if_neg hdynamic, if_neg hdynamic]
      refine iff_of_true rfl (Or.inl ?_)
      rw [not_and_or, not_lt, not_lt] at hdynamic
      exact hdynamic.symm
  rw [← hlevels]
  exact ⟨fun h => (edgeSpan_succ_eq_iff p hgains 0).1 (h 0),
    fun h n => (edgeSpan_succ_eq_iff p hgains n).2 h⟩

/-- The board as it starts, without calibration. -/
def uncalibrated : ADCClass := ADCClass.init DacComp.default DacComp.default fun _ => 0

theorem uncalibrated_gains : UnitGains uncalibrated.V_CALIBRATION := ⟨rfl, rfl, rfl, rfl, rfl⟩

/-- Levels of -4 V and 3 V. -/
def minusFourToThree : FrontPanel.FunctionPulseClass := { min := -4000, max := 3000 }

/-- The edges stay in the span of 5 V. -/
theorem pulse_span_minusFourToThree :
    edgeSpan (minusFourToThree, uncalibrated) 1 = .bipolar5 ∧
      ∀ n, edgeSpan (minusFourToThree, uncalibrated) (n + 1) =
        edgeSpan (minusFourToThree, uncalibrated) (n + 2) :=
  ⟨by decide +kernel,
    (pulse_span_iff (minusFourToThree, uncalibrated) uncalibrated_gains).2 (by decide +kernel)⟩

/-- Levels of 1 V and 4 V. -/
def oneToFour : FrontPanel.FunctionPulseClass := { min := 1000, max := 4000 }

theorem not_always_one_span :
    ¬ ∀ p : FrontPanel.FunctionPulseClass × ADCClass, UnitGains p.2.V_CALIBRATION →
      ∀ n, edgeSpan p (n + 1) = edgeSpan p (n + 2) := by
  intro hall
  have hsame := hall (oneToFour, uncalibrated) uncalibrated_gains 0
  revert hsame
  decide +kernel

end SourceSpan
end PoorMansSmu
