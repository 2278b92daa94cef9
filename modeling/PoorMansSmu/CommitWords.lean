import PoorMansSmu.Deliverable

/-!
# CommitWords — what a commit sends to its converter

Each of the four commits sends two words: the selection of a span, and the code of a voltage within
the limits that the encoder is told.  The two agree only if selection, limits and sign are in step,
and they are written out once in every commit.

The gains are arbitrary here: the buttons of the calibration page move them by small steps without a
bound, and what is read from the memory is not checked for its sign.
-/

namespace PoorMansSmu
namespace CommitWords

open Calibration Hardware Ltc2758 SmuHal RangeSwitch Deliverable

/-! ## Words -/

/-- What a commit sends to converter `nr`. -/
structure Words where
  nr : ℕ
  choice : ℕ
  DAC_RANGE_LOW : ℚ
  DAC_RANGE_HIGH : ℚ
  /-- The voltage that was computed, as the converter gets it. -/
  dac_voltage : ℚ

namespace Words

def v_adj (w : Words) : ℕ :=
  LTC2758_voltage_to_code w.dac_voltage w.DAC_RANGE_LOW w.DAC_RANGE_HIGH

def writes (w : Words) : List HwWrite :=
  [.LTC2758_write w.nr LTC2758_WRITE_SPAN_DAC ADDRESS_DACA (w.choice * 4),
    .LTC2758_write w.nr LTC2758_WRITE_CODE_UPDATE_DAC ADDRESS_DACA w.v_adj]

/-- The converter once it has got both words. -/
def sentTo (w : Words) (d : Dac) : Dac :=
  (d.write LTC2758_WRITE_SPAN_DAC ADDRESS_DACA (w.choice * 4)).write
    LTC2758_WRITE_CODE_UPDATE_DAC ADDRESS_DACA w.v_adj

end Words

def voltageSourceWords (V_CALIBRATION : DacGains) (voltage_uV : ℤ) (dynamicRange : Bool) : Words :=
  let dac_voltage := voltageSourceVolts V_CALIBRATION voltage_uV
  if dynamicRange then
    if |dac_voltage| ≤ 23 / 10 then ⟨0, 4, -5 / 2, 5 / 2, -dac_voltage⟩
    else if |dac_voltage| ≤ 46 / 10 then ⟨0, 2, -5, 5, -dac_voltage⟩
    else ⟨0, 3, -10, 10, -dac_voltage⟩
  else ⟨0, 3, -10, 10, -dac_voltage⟩

def currentSourceWords (C_CALIBRATION : DacGains) (current_range : CurrentRange)
    (current_uA : ℤ) : Words :=
  let dac_voltage := currentSourceVolts C_CALIBRATION current_range current_uA
  if |dac_voltage| < 22 / 10 then ⟨0, 4, -5 / 2, 5 / 2, dac_voltage⟩
  else ⟨0, 3, -10, 10, dac_voltage⟩

def voltageLimitWords (voltage_uV : ℤ) : Words :=
  ⟨1, 1, 0, 10, voltageLimitVolts voltage_uV⟩

def currentLimitWords (V_CALIBRATION : DacGains) (current_range : CurrentRange)
    (current_uA : ℤ) : Words :=
  ⟨1, 1, 0, 10, currentLimitVolts V_CALIBRATION current_range current_uA⟩

/-- A commit of the output stage sends these words and no others. -/
structure SendsWords (s : ADCClass) : Prop where
  voltageSource : ∀ v dynamicRange, (s.fltSetCommitVoltageSource v dynamicRange).sent =
    s.sent ++ (voltageSourceWords s.V_CALIBRATION v dynamicRange).writes
  currentSource : ∀ v, (s.fltSetCommitCurrentSource v).sent =
    s.sent ++ (currentSourceWords s.C_CALIBRATION s.current_range v).writes
  voltageLimit : ∀ limit, (s.fltSetCommitVoltageLimit limit).sent =
    s.sent ++ (voltageLimitWords limit.val).writes
  currentLimit : ∀ limit, (s.fltSetCommitCurrentLimit limit).sent =
    s.sent ++ (currentLimitWords s.V_CALIBRATION s.current_range limit.val).writes

/-! ## Accuracy -/

/-- The voltages that a converter is meant for: both signs for a source value, one for a limit. -/
def sourceReach : Set ℚ := {u | |u| ≤ 10}
def limitReach : Set ℚ := {u | 0 ≤ u ∧ u ≤ 10}

/-- The words of a commit select a span, tell the encoder the limits of that span, and send the
nearest of its codes; within reach the span is wide enough. -/
structure Accurate (reach : Set ℚ) (w : Words) : Prop where
  span : ∃ span : SoftSpan, w.DAC_RANGE_LOW = span.scale.lo ∧ w.DAC_RANGE_HIGH = span.scale.hi ∧
    ∀ d, (w.sentTo d).span = span ∧ (w.sentTo d).code = w.v_adj
  contains : w.dac_voltage ∈ reach →
    w.DAC_RANGE_LOW ≤ w.dac_voltage ∧ w.dac_voltage ≤ w.DAC_RANGE_HIGH
  close : w.DAC_RANGE_LOW ≤ w.dac_voltage → w.dac_voltage ≤ w.DAC_RANGE_HIGH →
    |LTC2758_code_to_voltage w.v_adj w.DAC_RANGE_LOW w.DAC_RANGE_HIGH - w.dac_voltage| ≤
      (w.DAC_RANGE_HIGH - w.DAC_RANGE_LOW) / (2 * 262143)
  below : w.dac_voltage < w.DAC_RANGE_LOW → w.v_adj = 0
  above : w.DAC_RANGE_HIGH < w.dac_voltage → w.v_adj = 262143
  code_le : w.v_adj ≤ 262143

/-- Words made for one span are accurate, if the span is wide enough. -/
theorem accurate_of_span {reach : Set ℚ} (span : SoftSpan) {nr choice : ℕ} {u : ℚ}
    (hspan : SoftSpan.ofBits (choice * 4 / 4 % 16) = some span)
    (hreach : u ∈ reach → span.scale.lo ≤ u ∧ u ≤ span.scale.hi) :
    Accurate reach ⟨nr, choice, span.scale.lo, span.scale.hi, u⟩ := by
  have hcode := LTC2758_voltage_to_code_eq span u
  have hlt := LTC2758_voltage_to_code_lt span u
  constructor
  case span =>
    refine ⟨span, rfl, rfl, fun d => ⟨(written_dac d span _ hspan u).1, ?_⟩⟩
    have hcmd : LTC2758_WRITE_CODE_UPDATE_DAC ≠ LTC2758_WRITE_SPAN_DAC := by decide
    simp only [Words.sentTo, Words.v_adj, Dac.write, Dac.update, hspan, true_or, if_true, hcmd,
      if_false, Nat.mod_eq_of_lt hlt]
  case contains => exact hreach
  case close =>
    intro hlow hhigh
    -- within the span the encoder is at most half a step off
    have hclose := unsaturated_of_mem hlow hhigh
    have hstep : span.scale.step / 2 = (span.scale.hi - span.scale.lo) / (2 * 262143) := by
      unfold Quantizer.Scale.step
      rw [span.scale_steps]
      push_cast
      ring
    rw [hstep, ← code_to_voltage_voltage_to_code] at hclose
    exact hclose
  case below =>
    intro hbelow
    -- below the span the code is the first one, and above it the last
    rw [span.scale.code_of_le_lo hbelow.le] at hcode
    exact_mod_cast hcode
  case above =>
    intro habove
    rw [span.scale.code_of_hi_le habove.le, span.scale_steps] at hcode
    exact_mod_cast hcode
  case code_le => exact Nat.le_of_lt_succ hlt

/-- The largest span takes every voltage within reach. -/
theorem mem_bipolar10 {u : ℚ} (hu : u ∈ sourceReach) :
    SoftSpan.bipolar10.scale.lo ≤ u ∧ u ≤ SoftSpan.bipolar10.scale.hi :=
  (mem_bipolar_iff rfl rfl u).2 hu

theorem voltageSourceWords_accurate (V_CALIBRATION : DacGains) (v : ℤ) (dynamicRange : Bool) :
    Accurate sourceReach (voltageSourceWords V_CALIBRATION v dynamicRange) := by
  unfold voltageSourceWords
  generalize voltageSourceVolts V_CALIBRATION v = u
  simp only
  split_ifs with _ hsmall hmiddle
  · -- the span is chosen before the sign is changed, which does not change the magnitude
    refine accurate_of_span .bipolar2_5 rfl fun _ => ?_
    rw [← abs_neg] at hsmall
    rw [mem_bipolar_iff (b := 5 / 2) (by norm_num [SoftSpan.scale]) rfl]
    linarith
  · refine accurate_of_span .bipolar5 rfl fun _ => ?_
    rw [← abs_neg] at hmiddle
    rw [mem_bipolar_iff (b := 5) rfl rfl]
    linarith
  · exact accurate_of_span .bipolar10 rfl mem_bipolar10
  · exact accurate_of_span .bipolar10 rfl mem_bipolar10

theorem currentSourceWords_accurate (C_CALIBRATION : DacGains) (range : CurrentRange) (v : ℤ) :
    Accurate sourceReach (currentSourceWords C_CALIBRATION range v) := by
  unfold currentSourceWords
  generalize currentSourceVolts C_CALIBRATION range v = u
  simp only
  split_ifs with hsmall
  · refine accurate_of_span .bipolar2_5 rfl fun _ => ?_
    rw [mem_bipolar_iff (b := 5 / 2) (by norm_num [SoftSpan.scale]) rfl]
    linarith
  · exact accurate_of_span .bipolar10 rfl mem_bipolar10

/-- A limit goes out in the span from 0 V to 10 V, whatever it is. -/
theorem limitWords_accurate (u : ℚ) : Accurate limitReach ⟨1, 1, 0, 10, u⟩ :=
  accurate_of_span .unipolar10 rfl id

/-- The output stage sends the words of its own gains. -/
theorem sendsWords (s : ADCClass) : SendsWords s := by
  constructor
  case voltageSource =>
    intro v dynamicRange
    unfold ADCClass.fltSetCommitVoltageSource voltageSourceWords
    simp only
    split_ifs <;> simp [ADCClass.write, Words.writes, Words.v_adj]
  case currentSource =>
    intro v
    unfold ADCClass.fltSetCommitCurrentSource currentSourceWords
    simp only
    split_ifs <;> simp [ADCClass.write, Words.writes, Words.v_adj]
  case voltageLimit =>
    intro limit
    simp [ADCClass.fltSetCommitVoltageLimit, voltageLimitWords, Words.writes, Words.v_adj]
  case currentLimit =>
    intro limit
    simp [ADCClass.fltSetCommitCurrentLimit, currentLimitWords, Words.writes, Words.v_adj]

/-- For all gains, offsets and values, and in both ranges: what each of the four commits sends is
accurate. -/
theorem commits_accurate (V_CALIBRATION C_CALIBRATION : DacGains) (range : CurrentRange) (value : ℤ)
    (dynamicRange : Bool) :
    Accurate sourceReach (voltageSourceWords V_CALIBRATION value dynamicRange) ∧
      Accurate sourceReach (currentSourceWords C_CALIBRATION range value) ∧
      Accurate limitReach (voltageLimitWords value) ∧
      Accurate limitReach (currentLimitWords V_CALIBRATION range value) ∧
      ∀ s, SendsWords s :=
  ⟨voltageSourceWords_accurate V_CALIBRATION value dynamicRange,
    currentSourceWords_accurate C_CALIBRATION range value, limitWords_accurate _,
    limitWords_accurate _, sendsWords⟩

end CommitWords
end PoorMansSmu
