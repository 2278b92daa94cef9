import PoorMansSmu.NullCal
import PoorMansSmu.RelOffset

/-!
# RelCalibration — the REL offset and what calibrations record

The null calibration stores the mean of a filter as a null value, and the automatic calibration stores
it as an entry of `meas_adc`.  The filter is fed by `handleSampling` with samples from which the REL
offset has been subtracted already.

Two runs are compared that share everything but the presses of REL.  Beside them goes a third filter,
fed with the offset of the first run less that of the second one: it always holds the difference of
their filters, so its mean is the difference of what they would record.
-/

namespace PoorMansSmu
namespace RelCalibration

open SmuHal Filters Run

/-! ## State -/

/-- The calibrations and what they work on, the REL offsets and the values shown last. -/
structure State where
  null : NullCal.State
  /-- `V_CALIBRATION.relativeValue` and `C_CALIBRATION.relativeValue`. -/
  relativeValue : OperationType → CurrentRange → ℚ
  /-- `V_STATS.rawValue` and `C_STATS.rawValue`. -/
  rawValue : OperationType → ℚ

/-- `adc_nonlinear_compensation` is only called for the voltage. -/
def compensated (s : NullCal.State) (o : OperationType) (v : ℚ) : ℚ :=
  match o with
  | .SOURCE_VOLTAGE =>
      (CalTables.adc_nonlinear_compensation (s.CALIBRATION.objects .SOURCE_VOLTAGE) v).1
  | .SOURCE_CURRENT => v

/-- The end of `measureMilliVoltage` and of `measureCurrent`, for the value `v` before it. -/
def measure (s : NullCal.State) (o : OperationType) (range : CurrentRange) (v : ℚ) : ℚ :=
  compensated s o v - s.nullValue o range

/-- The REL offset in use. -/
def State.offset (s : State) (o : OperationType) : ℚ := s.relativeValue o s.null.SMU.current_range

def handleSampling (s : State) (o : OperationType) (v : ℚ) : State :=
  let out := measure s.null o s.null.SMU.current_range v - s.offset o
  { s with rawValue := Function.update s.rawValue o out, null := NullCal.sample s.null o out }

/-- REL is pressed, and the last change of this object was not less than 100 ms ago. -/
def rel (s : State) (o : OperationType) : State :=
  { s with
    relativeValue := Function.update s.relativeValue o
      (RelOffset.toggleRelativeValue (s.relativeValue o) (s.rawValue o) s.null.SMU.current_range) }

/-- `startAutoCal` with what it does to sampling rate and filter. -/
def startAutoCal (s : NullCal.State) (o : OperationType) (time : ℕ) : NullCal.State :=
  let idle := !(s.CALIBRATION.objects o).autoCalInProgress
  let s := { s with CALIBRATION := AutoCal.startAutoCal s.CALIBRATION o time }
  if idle then
    let s := { s with samplingRate := 20 }
    NullCal.setFilterSize s o 5
  else s

/-- The commit of `autoCalADCfromDAC`. -/
def commitSource (SMU : ADCClass) (o : OperationType) (autoCalV : ℚ) : ADCClass :=
  match o with
  | .SOURCE_VOLTAGE => SMU.fltSetCommitVoltageSource (truncate (autoCalV * 1000)) true
  | .SOURCE_CURRENT => SMU.fltSetCommitCurrentSource (truncate (autoCalV * 1000))

/-- A call notes a measured value. -/
def Records (s : AutoCal.State) (o : OperationType) (time : ℕ) : Prop :=
  AutoCal.InProgress s o ∧ AutoCal.RecordDue s time

instance (s : AutoCal.State) (o : OperationType) (time : ℕ) : Decidable (Records s o time) :=
  inferInstanceAs (Decidable (_ ∧ _))

/-- `autoCalADCfromDAC` with what it does to output stage and filter. -/
def autoCalADCfromDAC (s : NullCal.State) (o : OperationType) (time : ℕ) : NullCal.State :=
  let calibration := s.CALIBRATION
  let s := { s with
    SMU :=
      if AutoCal.InProgress calibration o ∧ AutoCal.CommitDue calibration time then
        commitSource s.SMU o calibration.autoCalV
      else s.SMU
    CALIBRATION :=
      AutoCal.autoCalADCfromDAC calibration o time (s.FILTERS o).mean }
  if Records calibration o time ∧
      calibration.autoCalV + calibration.stepValueCal > calibration.maxValueCal then
    NullCal.setFilterSize s o 5
  else s

/-! ## Runs -/

/-- What happens to the calibrations. -/
inductive CalEvent
  | startNullCalibration (operationType : OperationType) (time : ℕ)
  | handleAutoNull (time : ℕ)
  | startAutoCal (o : OperationType) (time : ℕ)
  | autoCalADCfromDAC (o : OperationType) (time : ℕ)
  | setFilterSize (o : OperationType) (size : ℤ)
  | setUseCalibratedValues (o : OperationType) (use : Bool)
  /-- Anything else the program does to the output stage, such as a change of the range. -/
  | program (f : ADCClass → ADCClass)

def calStep (s : NullCal.State) : CalEvent → NullCal.State
  | .startNullCalibration operationType time => NullCal.startNullCalibration s operationType time
  | .handleAutoNull time => NullCal.handleAutoNull s time
  | .startAutoCal o time => startAutoCal s o time
  | .autoCalADCfromDAC o time => autoCalADCfromDAC s o time
  | .setFilterSize o size => NullCal.setFilterSize s o size
  | .setUseCalibratedValues o use => NullCal.setUseCalibratedValues s o use
  | .program f => { s with SMU := f s.SMU }

/-- Two runs, and the filters fed with the difference of their offsets. -/
structure Pair where
  first : State
  second : State
  difference : OperationType → FiltersClass

inductive PairEvent
  /-- A value before compensation, in both runs. -/
  | handleSampling (o : OperationType) (v : ℚ)
  | cal (e : CalEvent)
  | relFirst (o : OperationType)
  | relSecond (o : OperationType)

/-- The filters of the difference keep the size of the run's. -/
def resize (s : NullCal.State) (d : OperationType → FiltersClass) : OperationType → FiltersClass :=
  fun o => { d o with filterSize := (s.FILTERS o).filterSize }

def pairStep (p : Pair) : PairEvent → Pair
  | .handleSampling o v =>
      { first := handleSampling p.first o v
        second := handleSampling p.second o v
        difference := Function.update p.difference o
          ((p.difference o).updateMean (p.first.offset o - p.second.offset o) true) }
  | .cal e =>
      { first := { p.first with null := calStep p.first.null e }
        second := { p.second with null := calStep p.second.null e }
        difference := resize (calStep p.first.null e) p.difference }
  | .relFirst o => { p with first := rel p.first o }
  | .relSecond o => { p with second := rel p.second o }

/-- Both runs start from one state. -/
def Pair.start (s : State) : Pair := ⟨s, s, fun o => zeroOf (s.null.FILTERS o)⟩

/-- The calibration data recorded from measurements. -/
structure SameData (p : Pair) : Prop where
  nullValue : p.first.null.nullValue = p.second.null.nullValue
  stored : p.first.null.stored = p.second.null.stored
  recorded : p.first.null.CALIBRATION.recorded = p.second.null.CALIBRATION.recorded
  meas_adc : ∀ o, (p.first.null.CALIBRATION.objects o).meas_adc =
    (p.second.null.CALIBRATION.objects o).meas_adc

/-- The number of null values that a call of `handleAutoNull` stores. -/
def nullCount (s : NullCal.State) (time : ℕ) : ℕ :=
  if s.autoNullStarted then
    (if !s.nullCalibrationDone1 && NullCal.due s.zeroCalstartTime 10000 time then 1 else 0) +
      if !s.nullCalibrationDone3 && NullCal.due s.zeroCalstartTime 21000 time then 1 else 0
  else 0

/-- When something is recorded, the offsets subtracted from the samples in the filter cancel out. -/
def OffsetsCancel (p : Pair) : PairEvent → Prop
  | .cal (.handleAutoNull time) =>
      0 < nullCount p.first.null time → (p.difference p.first.null.operationType).mean = 0
  | .cal (.autoCalADCfromDAC o time) =>
      Records p.first.null.CALIBRATION o time → (p.difference o).mean = 0
  | _ => True

instance (p : Pair) (e : PairEvent) : Decidable (OffsetsCancel p e) := by
  unfold OffsetsCancel
  split <;> infer_instance

/-! ## States that agree -/

/-- Two states agree on all that the calibrations go by, but for the contents of the filters. -/
structure Agree (s t : NullCal.State) : Prop where
  operationType : t.operationType = s.operationType
  current_range : t.current_range = s.current_range
  zeroCalstartTime : t.zeroCalstartTime = s.zeroCalstartTime
  done0 : t.nullCalibrationDone0 = s.nullCalibrationDone0
  done1 : t.nullCalibrationDone1 = s.nullCalibrationDone1
  done2 : t.nullCalibrationDone2 = s.nullCalibrationDone2
  done3 : t.nullCalibrationDone3 = s.nullCalibrationDone3
  autoNullStarted : t.autoNullStarted = s.autoNullStarted
  filterSizeBeforeZeroCal : t.filterSizeBeforeZeroCal = s.filterSizeBeforeZeroCal
  SMU : t.SMU = s.SMU
  CALIBRATION : t.CALIBRATION = s.CALIBRATION
  nullValue : t.nullValue = s.nullValue
  switched : t.switched = s.switched
  stored : t.stored = s.stored
  filterSize : ∀ o, (t.FILTERS o).filterSize = (s.FILTERS o).filterSize

theorem Agree.refl (s : NullCal.State) : Agree s s :=
  ⟨rfl, rfl, rfl, rfl, rfl, rfl, rfl, rfl, rfl, rfl, rfl, rfl, rfl, rfl, fun _ => rfl⟩

section Agree

variable {s t : NullCal.State}

theorem setFilterSize_filterSize_congr {f g : FiltersClass} (h : g.filterSize = f.filterSize)
    (size : ℤ) : (g.setFilterSize size).filterSize = (f.setFilterSize size).filterSize := by
  unfold FiltersClass.setFilterSize
  split_ifs
  · rfl
  · rfl
  · exact h

theorem Agree.setFilterSize (h : Agree s t) (o : OperationType) {size size' : ℤ}
    (heq : size' = size) :
    Agree (NullCal.setFilterSize s o size) (NullCal.setFilterSize t o size') := by
  subst heq
  refine { h with filterSize := fun o' => ?_ }
  by_cases ho : o' = o
  · subst ho
    simp only [NullCal.setFilterSize, Function.update_self]
    exact setFilterSize_filterSize_congr (h.filterSize o') size'
  · simp only [NullCal.setFilterSize, Function.update_of_ne ho]
    exact h.filterSize o'

theorem Agree.setUseCalibratedValues (h : Agree s t) (o : OperationType) (use : Bool) :
    Agree (NullCal.setUseCalibratedValues s o use) (NullCal.setUseCalibratedValues t o use) := by
  refine { h with CALIBRATION := ?_ }
  simp only [NullCal.setUseCalibratedValues, h.CALIBRATION]

theorem Agree.sourceZero (h : Agree s t) (range : CurrentRange) (current_uA : ℤ) (time : ℕ) :
    Agree (NullCal.sourceZero s range current_uA time)
      (NullCal.sourceZero t range current_uA time) := by
  refine { h with current_range := rfl, SMU := ?_, switched := rfl }
  simp only [NullCal.sourceZero, h.operationType, h.SMU]

/-- What is stored agrees when the means of the filters do. -/
theorem Agree.storeNull (h : Agree s t) (time : ℕ)
    (hmean : (t.FILTERS s.operationType).mean = (s.FILTERS s.operationType).mean) :
    Agree (NullCal.storeNull s time) (NullCal.storeNull t time) := by
  refine { h with nullValue := ?_, stored := ?_ }
  · simp only [NullCal.storeNull, NullCal.setNullValue, h.operationType, h.current_range,
      h.nullValue, hmean]
  · simp only [NullCal.storeNull, NullCal.setNullValue, h.operationType, h.current_range,
      h.switched, h.stored, hmean]

theorem Agree.setSamplingRate (h : Agree s t) (rate rate' : ℤ) :
    Agree { s with samplingRate := rate } { t with samplingRate := rate' } :=
  { h with }

theorem Agree.restoreSettings (h : Agree s t) :
    Agree (NullCal.restoreSettings s) (NullCal.restoreSettings t) := by
  have hfilters := (h.setFilterSize .SOURCE_VOLTAGE (rfl : (20 : ℤ) = 20)).setFilterSize
    .SOURCE_CURRENT (rfl : (20 : ℤ) = 20)
  have hrate := hfilters.setSamplingRate s.samplingRateBeforeZeroCal t.samplingRateBeforeZeroCal
  have hflags := (hrate.setUseCalibratedValues .SOURCE_VOLTAGE true).setUseCalibratedValues
    .SOURCE_CURRENT true
  have hvoltage := hflags.setFilterSize .SOURCE_VOLTAGE
    (congrFun h.filterSizeBeforeZeroCal .SOURCE_VOLTAGE)
  exact hvoltage.setFilterSize .SOURCE_CURRENT (congrFun h.filterSizeBeforeZeroCal .SOURCE_CURRENT)

theorem Agree.finish (h : Agree s t) : Agree (NullCal.finish s) (NullCal.finish t) :=
  { h with autoNullStarted := rfl }

/-! ### Phases -/

theorem Agree.phase0 (h : Agree s t) (time : ℕ) :
    Agree (NullCal.phase0 s time) (NullCal.phase0 t time) := by
  unfold NullCal.phase0
  rw [h.autoNullStarted, h.done0]
  split_ifs
  · have hflags := (h.setUseCalibratedValues .SOURCE_CURRENT false).setUseCalibratedValues
      .SOURCE_VOLTAGE false
    have hzero := (hflags.setSamplingRate 10 10).sourceZero .MILLIAMP10 0 time
    have hfilters := (hzero.setFilterSize .SOURCE_VOLTAGE (rfl : (20 : ℤ) = 20)).setFilterSize
      .SOURCE_CURRENT (rfl : (20 : ℤ) = 20)
    exact { hfilters with done0 := rfl }
  · exact h

theorem Agree.phase1 (h : Agree s t) (time : ℕ)
    (hmean : s.autoNullStarted = true →
      (!s.nullCalibrationDone1 && NullCal.due s.zeroCalstartTime 10000 time) = true →
      (t.FILTERS s.operationType).mean = (s.FILTERS s.operationType).mean) :
    Agree (NullCal.phase1 s time) (NullCal.phase1 t time) := by
  unfold NullCal.phase1
  rw [h.autoNullStarted, h.done1, h.zeroCalstartTime]
  split_ifs with hdue
  · have hstored := h.storeNull time (hmean hdue.1 (by simpa using hdue.2))
    exact { hstored with done1 := rfl }
  · exact h

theorem Agree.phase2 (h : Agree s t) (time : ℕ) :
    Agree (NullCal.phase2 s time) (NullCal.phase2 t time) := by
  unfold NullCal.phase2
  rw [h.autoNullStarted, h.done2, h.zeroCalstartTime]
  split_ifs
  · have hzero := h.sourceZero .AMP1 NullCal.AMP1_uA time
    exact { hzero with done2 := rfl }
  · exact h

theorem Agree.phase3 (h : Agree s t) (time : ℕ)
    (hmean : s.autoNullStarted = true →
      (!s.nullCalibrationDone3 && NullCal.due s.zeroCalstartTime 21000 time) = true →
      (t.FILTERS s.operationType).mean = (s.FILTERS s.operationType).mean) :
    Agree (NullCal.phase3 s time) (NullCal.phase3 t time) := by
  unfold NullCal.phase3
  rw [h.autoNullStarted, h.done3, h.zeroCalstartTime]
  split_ifs with hdue
  · have hstored := h.storeNull time (hmean hdue.1 (by simpa using hdue.2))
    have hdone : Agree { NullCal.storeNull s time with nullCalibrationDone3 := true }
        { NullCal.storeNull t time with nullCalibrationDone3 := true } :=
      { hstored with done3 := rfl }
    exact hdone.restoreSettings.finish
  · exact h

/-! ### What the phases leave alone -/

/-- The filters hold what they held, though perhaps with another size. -/
def Resized (s s' : NullCal.State) : Prop :=
  ∀ o, s'.FILTERS o = { s.FILTERS o with filterSize := (s'.FILTERS o).filterSize }

theorem Resized.refl (s : NullCal.State) : Resized s s := fun _ => rfl

theorem Resized.trans {s s' s'' : NullCal.State} (h : Resized s s') (h' : Resized s' s'') :
    Resized s s'' := by
  intro o
  rw [h' o, h o]

theorem Resized.mean {s s' : NullCal.State} (h : Resized s s') (o : OperationType) :
    (s'.FILTERS o).mean = (s.FILTERS o).mean := by
  rw [h o]

theorem resized_setFilterSize (s : NullCal.State) (o : OperationType) (size : ℤ) :
    Resized s (NullCal.setFilterSize s o size) := by
  intro o'
  by_cases ho : o' = o
  · subst ho
    simp only [NullCal.setFilterSize, Function.update_self]
    unfold FiltersClass.setFilterSize
    split_ifs
    · rfl
    · rfl
    · rfl
  · simp only [NullCal.setFilterSize, Function.update_of_ne ho]

/-- A phase that does not end the calibration. -/
structure Kept (s s' : NullCal.State) : Prop where
  operationType : s'.operationType = s.operationType
  zeroCalstartTime : s'.zeroCalstartTime = s.zeroCalstartTime
  autoNullStarted : s'.autoNullStarted = s.autoNullStarted
  done3 : s'.nullCalibrationDone3 = s.nullCalibrationDone3
  resized : Resized s s'

theorem Kept.trans {s s' s'' : NullCal.State} (h : Kept s s') (h' : Kept s' s'') : Kept s s'' :=
  ⟨h'.1.trans h.1, h'.2.trans h.2, h'.3.trans h.3, h'.4.trans h.4, h.5.trans h'.5⟩

theorem phase0_kept (s : NullCal.State) (time : ℕ) :
    Kept s (NullCal.phase0 s time) ∧
      (NullCal.phase0 s time).nullCalibrationDone1 = s.nullCalibrationDone1 := by
  unfold NullCal.phase0
  split_ifs
  · refine ⟨⟨rfl, rfl, rfl, rfl, ?_⟩, rfl⟩
    exact (resized_setFilterSize _ .SOURCE_VOLTAGE 20).trans
      (resized_setFilterSize _ .SOURCE_CURRENT 20)
  · exact ⟨⟨rfl, rfl, rfl, rfl, Resized.refl s⟩, rfl⟩

theorem phase1_kept (s : NullCal.State) (time : ℕ) : Kept s (NullCal.phase1 s time) := by
  unfold NullCal.phase1
  split_ifs
  · exact ⟨rfl, rfl, rfl, rfl, Resized.refl s⟩
  · exact ⟨rfl, rfl, rfl, rfl, Resized.refl s⟩

theorem phase2_kept (s : NullCal.State) (time : ℕ) : Kept s (NullCal.phase2 s time) := by
  unfold NullCal.phase2
  split_ifs
  · exact ⟨rfl, rfl, rfl, rfl, Resized.refl s⟩
  · exact ⟨rfl, rfl, rfl, rfl, Resized.refl s⟩

theorem resized_of_filters {s s' : NullCal.State} (h : s'.FILTERS = s.FILTERS) : Resized s s' := by
  intro o
  rw [h]

theorem restoreSettings_resized (s : NullCal.State) : Resized s (NullCal.restoreSettings s) := by
  unfold NullCal.restoreSettings
  refine Resized.trans ?_ (resized_setFilterSize _ _ _)
  refine Resized.trans ?_ (resized_setFilterSize _ _ _)
  have hfilters := (resized_setFilterSize s .SOURCE_VOLTAGE 20).trans
    (resized_setFilterSize _ .SOURCE_CURRENT 20)
  exact hfilters.trans (resized_of_filters rfl)

theorem phase3_resized (s : NullCal.State) (time : ℕ) : Resized s (NullCal.phase3 s time) := by
  unfold NullCal.phase3
  split_ifs
  · have hstored : Resized s { NullCal.storeNull s time with nullCalibrationDone3 := true } :=
      resized_of_filters rfl
    have hrestored := hstored.trans (restoreSettings_resized _)
    exact hrestored.trans (resized_of_filters rfl)
  · exact Resized.refl s

/-- The first three phases together. -/
theorem phase012_kept (s : NullCal.State) (time : ℕ) :
    Kept s (NullCal.phase2 (NullCal.phase1 (NullCal.phase0 s time) time) time) :=
  ((phase0_kept s time).1.trans (phase1_kept _ time)).trans (phase2_kept _ time)

theorem handleAutoNull_resized (s : NullCal.State) (time : ℕ) :
    Resized s (NullCal.handleAutoNull s time) :=
  (phase012_kept s time).resized.trans (phase3_resized _ time)

/-- A whole call keeps the agreement when the means agree should it store a null value. -/
theorem Agree.handleAutoNull (h : Agree s t) (time : ℕ)
    (hmean : 0 < nullCount s time →
      (t.FILTERS s.operationType).mean = (s.FILTERS s.operationType).mean) :
    Agree (NullCal.handleAutoNull s time) (NullCal.handleAutoNull t time) := by
  have hs := (phase0_kept s time).1
  have ht := (phase0_kept t time).1
  have hs₂ := phase012_kept s time
  have ht₂ := phase012_kept t time
  have h₁ : Agree (NullCal.phase1 (NullCal.phase0 s time) time)
      (NullCal.phase1 (NullCal.phase0 t time) time) := by
    refine (h.phase0 time).phase1 time fun hstarted hdue => ?_
    rw [hs.autoNullStarted] at hstarted
    rw [(phase0_kept s time).2, hs.zeroCalstartTime] at hdue
    rw [hs.operationType, hs.resized.mean, ht.resized.mean]
    exact hmean (by simp [nullCount, hstarted, hdue])
  refine (h₁.phase2 time).phase3 time fun hstarted hdue => ?_
  rw [hs₂.autoNullStarted] at hstarted
  rw [hs₂.done3, hs₂.zeroCalstartTime] at hdue
  rw [hs₂.operationType, hs₂.resized.mean, ht₂.resized.mean]
  exact hmean (by simp [nullCount, hstarted, hdue])

end Agree

/-! ## What a call records -/

/-- `s'` follows from `s` by storing `n` null values, all equal to `m`. -/
structure Stores (s s' : NullCal.State) (n : ℕ) (m : ℚ) : Prop where
  operationType : s'.operationType = s.operationType
  stored : ∃ new : List NullCal.Stored, s'.stored = s.stored ++ new ∧ new.length = n ∧
    (∀ x ∈ new, x.value = m ∧ s'.nullValue s.operationType x.range = m) ∧
    -- the ranges for which nothing is stored keep their null values
    ∀ range, (∀ x ∈ new, x.range ≠ range) →
      s'.nullValue s.operationType range = s.nullValue s.operationType range

theorem Stores.trans {s s' s'' : NullCal.State} {n n' : ℕ} {m : ℚ} (h : Stores s s' n m)
    (h' : Stores s' s'' n' m) : Stores s s'' (n + n') m := by
  obtain ⟨hop, new, hstored, hlength, hnew, hothers⟩ := h
  obtain ⟨hop', new', hstored', hlength', hnew', hothers'⟩ := h'
  -- both go by the same quantity
  rw [hop] at hnew' hothers'
  refine ⟨hop'.trans hop, new ++ new', ?_, ?_, ?_, ?_⟩
  · rw [hstored', hstored, List.append_assoc]
  · rw [List.length_append, hlength, hlength']
  · intro x hx
    rcases List.mem_append.1 hx with hold | hlast
    · refine ⟨(hnew x hold).1, ?_⟩
      by_cases hagain : ∃ y ∈ new', y.range = x.range
      · obtain ⟨y, hy, hrange⟩ := hagain
        exact hrange ▸ (hnew' y hy).2
      · rw [hothers' x.range fun y hy hrange => hagain ⟨y, hy, hrange⟩]
        exact (hnew x hold).2
    · exact hnew' x hlast
  · intro range hrange
    rw [hothers' range fun x hx => hrange x (List.mem_append_right _ hx),
      hothers range fun x hx => hrange x (List.mem_append_left _ hx)]

/-- Nothing more is stored. -/
theorem Stores.and_none {s s' s'' : NullCal.State} {n : ℕ} {m : ℚ} (h : Stores s s' n m)
    (h' : Stores s' s'' 0 m) : Stores s s'' n m := h.trans h'

theorem stores_none {s s' : NullCal.State} (hop : s'.operationType = s.operationType)
    (hnull : s'.nullValue = s.nullValue) (hstored : s'.stored = s.stored) (m : ℚ) :
    Stores s s' 0 m := by
  refine ⟨hop, [], ?_, rfl, nofun, fun r _ => ?_⟩
  · rw [hstored, List.append_nil]
  · rw [hnull]

theorem storeNull_stores (s : NullCal.State) (time : ℕ) :
    Stores s (NullCal.storeNull s time) 1 (s.FILTERS s.operationType).mean := by
  have hnull : ∀ range, (NullCal.storeNull s time).nullValue s.operationType range =
      if range = s.current_range then (s.FILTERS s.operationType).mean
      else s.nullValue s.operationType range := by
    intro range
    simp [NullCal.storeNull, NullCal.setNullValue, Function.update_apply]
  refine ⟨rfl, [_], rfl, rfl, ?_, ?_⟩
  · intro x hx
    rw [List.mem_singleton.1 hx]
    refine ⟨rfl, (hnull _).trans (if_pos rfl)⟩
  · intro range hrange
    rw [hnull, if_neg fun heq => hrange _ (List.mem_singleton_self _) heq.symm]

section Null

variable (s : NullCal.State) (time : ℕ)

theorem setFilterSize_stores (o : OperationType) (size : ℤ) (m : ℚ) :
    Stores s (NullCal.setFilterSize s o size) 0 m := by
  refine stores_none ?_ ?_ ?_ m <;> rfl

theorem setUseCalibratedValues_stores (o : OperationType) (use : Bool) (m : ℚ) :
    Stores s (NullCal.setUseCalibratedValues s o use) 0 m := by
  refine stores_none ?_ ?_ ?_ m <;> rfl

theorem restoreSettings_stores (m : ℚ) : Stores s (NullCal.restoreSettings s) 0 m := by
  unfold NullCal.restoreSettings
  refine Stores.and_none ?_ (setFilterSize_stores _ _ _ m)
  refine Stores.and_none ?_ (setFilterSize_stores _ _ _ m)
  refine Stores.and_none ?_ (setUseCalibratedValues_stores _ _ _ m)
  refine Stores.and_none ?_ (setUseCalibratedValues_stores _ _ _ m)
  have hfilters := (setFilterSize_stores s .SOURCE_VOLTAGE 20 m).and_none
    (setFilterSize_stores _ .SOURCE_CURRENT 20 m)
  refine hfilters.and_none (stores_none ?_ ?_ ?_ m) <;> rfl

theorem finish_stores (m : ℚ) : Stores s (NullCal.finish s) 0 m := by
  refine stores_none ?_ ?_ ?_ m <;> rfl

theorem phase0_stores (m : ℚ) : Stores s (NullCal.phase0 s time) 0 m := by
  unfold NullCal.phase0
  split_ifs
  · refine stores_none ?_ ?_ ?_ m <;> rfl
  · exact stores_none rfl rfl rfl m

theorem phase2_stores (m : ℚ) : Stores s (NullCal.phase2 s time) 0 m := by
  unfold NullCal.phase2
  split_ifs
  · refine stores_none ?_ ?_ ?_ m <;> rfl
  · exact stores_none rfl rfl rfl m

/-- The number of null values a phase stores. -/
def phaseCount (started done due : Bool) : ℕ := if started && !done && due then 1 else 0

theorem phase1_stores :
    Stores s (NullCal.phase1 s time)
      (phaseCount s.autoNullStarted s.nullCalibrationDone1
        (NullCal.due s.zeroCalstartTime 10000 time)) (s.FILTERS s.operationType).mean := by
  unfold NullCal.phase1 phaseCount
  split_ifs with hdue hcount hcount
  · obtain ⟨hop, hstored⟩ := storeNull_stores s time
    exact ⟨hop, hstored⟩
  · simp_all
  · simp_all
  · exact stores_none rfl rfl rfl _

theorem phase3_stores :
    Stores s (NullCal.phase3 s time)
      (phaseCount s.autoNullStarted s.nullCalibrationDone3
        (NullCal.due s.zeroCalstartTime 21000 time)) (s.FILTERS s.operationType).mean := by
  unfold NullCal.phase3 phaseCount
  split_ifs with hdue hcount hcount
  · obtain ⟨hop, hstored⟩ := storeNull_stores s time
    have hdone : Stores s { NullCal.storeNull s time with nullCalibrationDone3 := true } 1
        (s.FILTERS s.operationType).mean := ⟨hop, hstored⟩
    exact (hdone.and_none (restoreSettings_stores _ _)).and_none (finish_stores _ _)
  · simp_all
  · simp_all
  · exact stores_none rfl rfl rfl _

/-- All null values stored by a call are the mean of the filter. -/
theorem handleAutoNull_stores :
    Stores s (NullCal.handleAutoNull s time) (nullCount s time)
      (s.FILTERS s.operationType).mean := by
  have h₀ := (phase0_kept s time).1
  have h₁ := phase1_stores (NullCal.phase0 s time) time
  have h₂ := phase012_kept s time
  have h₃ := phase3_stores (NullCal.phase2 (NullCal.phase1 (NullCal.phase0 s time) time) time) time
  rw [h₀.autoNullStarted, (phase0_kept s time).2, h₀.zeroCalstartTime, h₀.operationType,
    h₀.resized.mean] at h₁
  rw [h₂.autoNullStarted, h₂.done3, h₂.zeroCalstartTime, h₂.operationType, h₂.resized.mean] at h₃
  have hall := (((phase0_stores s time _).trans h₁).and_none (phase2_stores _ time _)).trans h₃
  refine (?_ : nullCount s time = _) ▸ hall
  unfold nullCount phaseCount
  cases s.autoNullStarted <;> simp

end Null

section Auto

variable (s : AutoCal.State) (o : OperationType) (time : ℕ)

/-- The last value recorded by a call that records is the mean it was given. -/
theorem recorded_of_records (h : Records s o time) (mean : ℚ) :
    (AutoCal.autoCalADCfromDAC s o time mean).recorded.getLast?.map AutoCal.Recorded.meas =
      some mean := by
  obtain ⟨hbusy, hdue⟩ := h
  obtain ⟨s₁, -, hlast⟩ := AutoCal.autoCalADCfromDAC_of_inProgress s o time mean hbusy
  rcases hlast with ⟨-, hrecorded⟩ | ⟨hnot, -⟩
  · rw [hrecorded.recorded, List.getLast?_concat]
    rfl
  · exact absurd hdue hnot

/-- A call that records nothing does not depend on the mean. -/
theorem autoCal_of_not_records (h : ¬ Records s o time) (mean mean' : ℚ) :
    AutoCal.autoCalADCfromDAC s o time mean = AutoCal.autoCalADCfromDAC s o time mean' := by
  by_cases hbusy : AutoCal.InProgress s o
  · have hdue : ¬ AutoCal.RecordDue s time := fun hdue => h ⟨hbusy, hdue⟩
    unfold AutoCal.autoCalADCfromDAC
    by_cases hcommit : AutoCal.CommitDue s time
    · have hdue' : ¬ AutoCal.RecordDue (AutoCal.commitPoint s o) time := hdue
      simp only [if_pos hcommit, if_neg hdue']
    · simp only [if_neg hcommit, if_neg hdue]
  · rw [AutoCal.autoCalADCfromDAC_of_idle s o time mean hbusy,
      AutoCal.autoCalADCfromDAC_of_idle s o time mean' hbusy]

theorem autoCal_congr {mean mean' : ℚ} (h : Records s o time → mean' = mean) :
    AutoCal.autoCalADCfromDAC s o time mean' = AutoCal.autoCalADCfromDAC s o time mean := by
  by_cases hrecords : Records s o time
  · rw [h hrecords]
  · exact autoCal_of_not_records s o time hrecords _ _

end Auto

/-! ## Steps of both runs -/

section Steps

variable {s t : NullCal.State}

theorem Agree.startNullCalibration (h : Agree s t) (operationType : OperationType) (time : ℕ) :
    Agree (NullCal.startNullCalibration s operationType time)
      (NullCal.startNullCalibration t operationType time) := by
  refine ⟨rfl, h.current_range, rfl, rfl, rfl, rfl, rfl, rfl, ?_, h.SMU, h.CALIBRATION, ?_, rfl, rfl,
    h.filterSize⟩
  · exact funext fun o => congrArg (fun size : FilterSize => (size.val : ℤ)) (h.filterSize o)
  · simp only [NullCal.startNullCalibration, NullCal.setNullValue, h.nullValue]

theorem Agree.startAutoCal (h : Agree s t) (o : OperationType) (time : ℕ) :
    Agree (startAutoCal s o time) (startAutoCal t o time) := by
  have hcal : Agree { s with CALIBRATION := AutoCal.startAutoCal s.CALIBRATION o time }
      { t with CALIBRATION := AutoCal.startAutoCal t.CALIBRATION o time } :=
    { h with CALIBRATION := by rw [h.CALIBRATION] }
  simp only [RelCalibration.startAutoCal, h.CALIBRATION] at hcal ⊢
  split_ifs
  · exact (hcal.setSamplingRate 20 20).setFilterSize o rfl
  · exact hcal

/-- A step of the automatic calibration keeps the agreement when the means agree should it record. -/
theorem Agree.autoCalADCfromDAC (h : Agree s t) (o : OperationType) (time : ℕ)
    (hmean : Records s.CALIBRATION o time → (t.FILTERS o).mean = (s.FILTERS o).mean) :
    Agree (autoCalADCfromDAC s o time) (autoCalADCfromDAC t o time) := by
  have hsame := autoCal_congr s.CALIBRATION o time hmean
  have hcal : ∀ SMU,
      Agree { s with
          SMU := SMU
          CALIBRATION := AutoCal.autoCalADCfromDAC s.CALIBRATION o time (s.FILTERS o).mean }
        { t with
          SMU := SMU
          CALIBRATION := AutoCal.autoCalADCfromDAC s.CALIBRATION o time (t.FILTERS o).mean } := by
    intro SMU
    exact { h with SMU := rfl, CALIBRATION := hsame }
  simp only [RelCalibration.autoCalADCfromDAC, h.CALIBRATION, h.SMU]
  by_cases hover : Records s.CALIBRATION o time ∧
      s.CALIBRATION.autoCalV + s.CALIBRATION.stepValueCal > s.CALIBRATION.maxValueCal
  · rw [if_pos hover, if_pos hover]
    exact (hcal _).setFilterSize o rfl
  · rw [if_neg hover, if_neg hover]
    exact hcal _

theorem autoCalADCfromDAC_CALIBRATION (s : NullCal.State) (o : OperationType) (time : ℕ) :
    (autoCalADCfromDAC s o time).CALIBRATION =
      AutoCal.autoCalADCfromDAC s.CALIBRATION o time (s.FILTERS o).mean := by
  simp only [autoCalADCfromDAC]
  by_cases hover : Records s.CALIBRATION o time ∧
      s.CALIBRATION.autoCalV + s.CALIBRATION.stepValueCal > s.CALIBRATION.maxValueCal
  · rw [if_pos hover]
    rfl
  · rw [if_neg hover]

theorem calStep_resized (s : NullCal.State) (e : CalEvent) : Resized s (calStep s e) := by
  cases e with
  | startNullCalibration operationType time => exact resized_of_filters rfl
  | handleAutoNull time => exact handleAutoNull_resized s time
  | startAutoCal o time =>
      simp only [calStep, startAutoCal]
      split_ifs
      · exact resized_setFilterSize _ o 5
      · exact resized_of_filters rfl
  | autoCalADCfromDAC o time =>
      simp only [calStep, autoCalADCfromDAC]
      by_cases hover : Records s.CALIBRATION o time ∧
          s.CALIBRATION.autoCalV + s.CALIBRATION.stepValueCal > s.CALIBRATION.maxValueCal
      · rw [if_pos hover]
        exact resized_setFilterSize _ o 5
      · rw [if_neg hover]
        exact resized_of_filters rfl
  | setFilterSize o size => exact resized_setFilterSize s o size
  | setUseCalibratedValues o use => exact resized_of_filters rfl
  | program f => exact resized_of_filters rfl

end Steps

/-! ## Two runs -/

/-- The runs agree, and the third filters hold the difference of theirs. -/
structure Mirror (p : Pair) : Prop where
  agree : Agree p.first.null p.second.null
  less : ∀ o, Less (p.first.null.FILTERS o) (p.second.null.FILTERS o) (p.difference o)

theorem Mirror.sameData {p : Pair} (h : Mirror p) : SameData p := by
  obtain ⟨hagree, -⟩ := h
  refine ⟨hagree.nullValue.symm, hagree.stored.symm, ?_, fun o => ?_⟩
  · rw [hagree.CALIBRATION]
  · rw [hagree.CALIBRATION]

theorem start_mirror (s : State) : Mirror (Pair.start s) :=
  ⟨Agree.refl s.null, fun o => less_zeroOf (s.null.FILTERS o)⟩

/-- The third filter keeps up when the filters of the runs get another size. -/
theorem less_resize {f g d f' g' : FiltersClass} (h : Less f g d)
    (hf : f' = { f with filterSize := f'.filterSize })
    (hg : g' = { g with filterSize := g'.filterSize }) (hsize : g'.filterSize = f'.filterSize) :
    Less f' g' { d with filterSize := f'.filterSize } := by
  rw [hf, hg]
  exact ⟨h.meanRaws, h.mean, h.mean_samples, hsize, rfl⟩

theorem compensated_congr {s t : NullCal.State} (h : Agree s t) (o : OperationType) (v : ℚ) :
    compensated t o v = compensated s o v := by
  unfold compensated
  rw [h.CALIBRATION]

theorem mirror_sample {p : Pair} (h : Mirror p) (o : OperationType) (v : ℚ) :
    Mirror (pairStep p (.handleSampling o v)) := by
  obtain ⟨hagree, hless⟩ := h
  refine ⟨{ hagree with filterSize := fun o' => ?_ }, fun o' => ?_⟩
  · by_cases ho : o' = o
    · subst ho
      simp only [pairStep, handleSampling, NullCal.sample, Function.update_self,
        FiltersClass.updateMean_filterSize]
      exact hagree.filterSize o'
    · simp only [pairStep, handleSampling, NullCal.sample, Function.update_of_ne ho]
      exact hagree.filterSize o'
  · by_cases ho : o' = o
    · subst ho
      simp only [pairStep, handleSampling, NullCal.sample, Function.update_self]
      have hmeasure : measure p.second.null o' p.second.null.SMU.current_range v =
          measure p.first.null o' p.first.null.SMU.current_range v := by
        unfold measure
        rw [compensated_congr hagree, hagree.SMU, hagree.nullValue]
      -- the first run's sample is the second run's less the difference of the offsets
      have hdifference : measure p.first.null o' p.first.null.SMU.current_range v - p.first.offset o' =
          measure p.first.null o' p.first.null.SMU.current_range v - p.second.offset o' -
            (p.first.offset o' - p.second.offset o') := by ring
      rw [hmeasure, hdifference]
      exact (hless o').updateMean _ _ true
    · simp only [pairStep, handleSampling, NullCal.sample, Function.update_of_ne ho]
      exact hless o'

/-- Both runs do the same when the means agree should something be recorded. -/
theorem agree_calStep {s t : NullCal.State} (h : Agree s t) (e : CalEvent)
    (hnull : ∀ time, e = .handleAutoNull time → 0 < nullCount s time →
      (t.FILTERS s.operationType).mean = (s.FILTERS s.operationType).mean)
    (hauto : ∀ o time, e = .autoCalADCfromDAC o time → Records s.CALIBRATION o time →
      (t.FILTERS o).mean = (s.FILTERS o).mean) :
    Agree (calStep s e) (calStep t e) := by
  -- only the two steps that record read a mean
  cases e with
  | startNullCalibration operationType time => exact h.startNullCalibration operationType time
  | handleAutoNull time => exact h.handleAutoNull time (hnull time rfl)
  | startAutoCal o time => exact h.startAutoCal o time
  | autoCalADCfromDAC o time => exact h.autoCalADCfromDAC o time (hauto o time rfl)
  | setFilterSize o size => exact h.setFilterSize o rfl
  | setUseCalibratedValues o use => exact h.setUseCalibratedValues o use
  | program f => exact { h with SMU := congrArg f h.SMU }

theorem mirror_step (p : Pair) (e : PairEvent) (h : Mirror p) (hok : OffsetsCancel p e) :
    Mirror (pairStep p e) := by
  cases e with
  | handleSampling o v => exact mirror_sample h o v
  | cal e =>
      -- offsets that cancel out leave the means of the runs the same
      have hmean : ∀ o, (p.difference o).mean = 0 →
          (p.second.null.FILTERS o).mean = (p.first.null.FILTERS o).mean := fun o ho =>
        ((h.less o).mean_eq_iff.2 ho).symm
      have hagree : Agree (calStep p.first.null e) (calStep p.second.null e) := by
        refine agree_calStep h.agree e ?_ ?_
        · rintro time rfl hcount
          exact hmean _ (hok hcount)
        · rintro o time rfl hrecords
          exact hmean _ (hok hrecords)
      refine ⟨hagree, fun o => ?_⟩
      exact less_resize (h.less o) (calStep_resized p.first.null e o)
        (calStep_resized p.second.null e o) (hagree.filterSize o)
  | relFirst o => exact ⟨h.agree, h.less⟩
  | relSecond o => exact ⟨h.agree, h.less⟩

/-- When the offsets do not cancel out, what is recorded differs. -/
theorem not_sameData (p : Pair) (e : PairEvent) (h : Mirror p) (hbad : ¬ OffsetsCancel p e) :
    ¬ SameData (pairStep p e) := by
  cases e with
  | cal e =>
      cases e with
      | handleAutoNull time =>
          simp only [OffsetsCancel, Classical.not_imp] at hbad
          obtain ⟨hcount, hdiffer⟩ := hbad
          intro hsame
          obtain ⟨-, new, hstored, hlength, hnew, -⟩ := handleAutoNull_stores p.first.null time
          obtain ⟨-, new', hstored', -, hnew', -⟩ := handleAutoNull_stores p.second.null time
          have hlists : p.first.null.stored ++ new = p.first.null.stored ++ new' := by
            have hequal := hsame.stored
            simp only [pairStep, calStep] at hequal
            rw [hstored, hstored', h.agree.stored] at hequal
            exact hequal
          -- what was stored before is the same, so the new values would be
          have hequal : new = new' := List.append_cancel_left hlists
          subst hequal
          obtain ⟨x, hx⟩ := List.exists_mem_of_length_pos (hlength ▸ hcount)
          have hmeans := (hnew x hx).1.symm.trans (hnew' x hx).1
          rw [h.agree.operationType] at hmeans
          exact hdiffer ((h.less _).mean_eq_iff.1 hmeans)
      | autoCalADCfromDAC o time =>
          simp only [OffsetsCancel, Classical.not_imp] at hbad
          obtain ⟨hrecords, hdiffer⟩ := hbad
          intro hsame
          -- the value noted last is the mean of the run's own filter
          have hequal := congrArg (fun recorded => recorded.getLast?.map AutoCal.Recorded.meas)
            hsame.recorded
          have hrecords' : Records p.second.null.CALIBRATION o time := by
            rw [h.agree.CALIBRATION]
            exact hrecords
          simp only [pairStep, calStep, autoCalADCfromDAC_CALIBRATION] at hequal
          rw [recorded_of_records _ o time hrecords, recorded_of_records _ o time hrecords'] at hequal
          exact hdiffer ((h.less o).mean_eq_iff.1 (Option.some.inj hequal))
      | _ => exact absurd trivial hbad
  | _ => exact absurd trivial hbad

/-- The calibration data recorded by two runs that differ in REL only are always the same exactly when
the offsets cancel out whenever something is recorded. -/
theorem sameData_iff (s : State) (es : List PairEvent) :
    Always pairStep SameData (Pair.start s) es ↔
      Guarded pairStep OffsetsCancel (Pair.start s) es :=
  always_iff_guarded (I := Mirror) (fun _ h => h.sameData) mirror_step not_sameData
    (start_mirror s) es

/-! ## After the calibration -/

/-- A call of `handleAutoNull` ends the null calibration. -/
def Finishes (s : NullCal.State) (time : ℕ) : Prop :=
  s.autoNullStarted = true ∧ (NullCal.handleAutoNull s time).autoNullStarted = false

instance (s : NullCal.State) (time : ℕ) : Decidable (Finishes s time) :=
  inferInstanceAs (Decidable (_ ∧ _))

/-- When a call of `handleAutoNull` has ended the null calibration, the instrument reads zero with a
value `c` at the input and REL off, in each range for which the calibration has stored a null value. -/
def ReadsZero (s : NullCal.State) (time : ℕ) (c : ℚ) : Prop :=
  Finishes s time → ∀ x ∈ (NullCal.handleAutoNull s time).stored,
    measure (NullCal.handleAutoNull s time) s.operationType x.range c = 0

/-- The null value in force in a range is one of those stored for it. -/
def KeepsNulls (s : NullCal.State) : Prop :=
  ∀ x ∈ s.stored, ∃ y ∈ s.stored, y.range = x.range ∧ s.nullValue s.operationType x.range = y.value

theorem Stores.keepsNulls {s s' : NullCal.State} {n : ℕ} {m : ℚ} (h : Stores s s' n m)
    (hs : KeepsNulls s) : KeepsNulls s' := by
  obtain ⟨hop, new, hstored, -, hnew, hothers⟩ := h
  intro x hx
  rw [hstored] at hx ⊢
  rw [hop]
  by_cases hlast : ∃ y ∈ new, y.range = x.range
  · obtain ⟨y, hy, hrange⟩ := hlast
    refine ⟨y, List.mem_append_right _ hy, hrange, ?_⟩
    rw [← hrange, (hnew y hy).1, (hnew y hy).2]
  · have hold : x ∈ s.stored :=
      (List.mem_append.1 hx).resolve_right fun hmem => hlast ⟨x, hmem, rfl⟩
    obtain ⟨y, hy, hrange, hvalue⟩ := hs x hold
    refine ⟨y, List.mem_append_left _ hy, hrange, ?_⟩
    rw [hothers x.range fun z hz hrange => hlast ⟨z, hz, hrange⟩, hvalue]

theorem keepsNulls_calStep {s : NullCal.State} (h : KeepsNulls s) (e : CalEvent) :
    KeepsNulls (calStep s e) := by
  cases e with
  | startNullCalibration operationType time => exact fun x hx => absurd hx List.not_mem_nil
  | handleAutoNull time => exact (handleAutoNull_stores s time).keepsNulls h
  | startAutoCal o time =>
      simp only [calStep, startAutoCal]
      split_ifs <;> exact h
  | autoCalADCfromDAC o time =>
      simp only [calStep, autoCalADCfromDAC]
      by_cases hover : Records s.CALIBRATION o time ∧
          s.CALIBRATION.autoCalV + s.CALIBRATION.stepValueCal > s.CALIBRATION.maxValueCal
      · rw [if_pos hover]
        exact h
      · rw [if_neg hover]
        exact h
  | setFilterSize o size => exact h
  | setUseCalibratedValues o use => exact h
  | program f => exact h

theorem keepsNulls_pairStep (p : Pair) (e : PairEvent) (h : KeepsNulls p.first.null) :
    KeepsNulls (pairStep p e).first.null := by
  cases e with
  | handleSampling o v => exact h
  | cal e => exact keepsNulls_calStep h e
  | relFirst o => exact h
  | relSecond o => exact h

/-- It is the last phase that ends a calibration. -/
theorem phase3_of_finishes {s : NullCal.State} {time : ℕ} (h : Finishes s time) :
    s.autoNullStarted = true ∧ !s.nullCalibrationDone3 ∧
      NullCal.due s.zeroCalstartTime 21000 time := by
  obtain ⟨hstarted, hended⟩ := h
  have hkept := phase012_kept s time
  by_contra hnot
  rw [← hkept.autoNullStarted, ← hkept.done3, ← hkept.zeroCalstartTime] at hnot
  unfold NullCal.handleAutoNull NullCal.phase3 at hended
  dsimp only at hended
  rw [if_neg hnot, hkept.autoNullStarted, hstarted] at hended
  cases hended

theorem stored_of_finishes {s : NullCal.State} {time : ℕ} (h : Finishes s time) :
    (NullCal.handleAutoNull s time).stored ≠ [] := by
  obtain ⟨hstarted, hdone, hdue⟩ := phase3_of_finishes h
  obtain ⟨-, new, hstored, hlength, -, -⟩ := handleAutoNull_stores s time
  have hcount : 0 < nullCount s time := by simp [nullCount, hstarted, hdone, hdue]
  have hnew : new ≠ [] := List.ne_nil_of_length_pos (hlength ▸ hcount)
  rw [hstored]
  exact List.append_ne_nil_of_right_ne_nil _ hnew

/-- The first three phases change no more of the table than the flag. -/
theorem phase012_objects (s : NullCal.State) (time : ℕ) :
    ∃ use, (NullCal.phase2 (NullCal.phase1 (NullCal.phase0 s time) time)
      time).CALIBRATION.objects .SOURCE_VOLTAGE =
        { s.CALIBRATION.objects .SOURCE_VOLTAGE with useCalibratedValues := use } := by
  have h₁ : ∀ s : NullCal.State, (NullCal.phase1 s time).CALIBRATION = s.CALIBRATION := by
    intro s
    unfold NullCal.phase1
    split_ifs <;> rfl
  have h₂ : ∀ s : NullCal.State, (NullCal.phase2 s time).CALIBRATION = s.CALIBRATION := by
    intro s
    unfold NullCal.phase2
    split_ifs <;> rfl
  rw [h₂, h₁]
  unfold NullCal.phase0
  split_ifs
  · exact ⟨false, rfl⟩
  · exact ⟨_, rfl⟩

/-- The compensation is on again when the calibration has ended. -/
theorem compensated_of_finishes {s : NullCal.State} {time : ℕ} (h : Finishes s time)
    (o : OperationType) (c : ℚ) :
    compensated (NullCal.handleAutoNull s time) o c =
      compensated (NullCal.setUseCalibratedValues s .SOURCE_VOLTAGE true) o c := by
  have hkept := phase012_kept s time
  have hdue := phase3_of_finishes h
  obtain ⟨use, htable⟩ := phase012_objects s time
  rw [← hkept.autoNullStarted, ← hkept.done3, ← hkept.zeroCalstartTime] at hdue
  have hon : (NullCal.handleAutoNull s time).CALIBRATION.objects .SOURCE_VOLTAGE =
      { s.CALIBRATION.objects .SOURCE_VOLTAGE with useCalibratedValues := true } := by
    unfold NullCal.handleAutoNull
    dsimp only
    generalize NullCal.phase2 (NullCal.phase1 (NullCal.phase0 s time) time) time = s₂ at hdue htable
    have hrestored : (NullCal.phase3 s₂ time).CALIBRATION.objects .SOURCE_VOLTAGE =
        { s₂.CALIBRATION.objects .SOURCE_VOLTAGE with useCalibratedValues := true } := by
      unfold NullCal.phase3
      rw [if_pos hdue]
      rfl
    rw [hrestored, htable]
  cases o with
  | SOURCE_CURRENT => rfl
  | SOURCE_VOLTAGE =>
      unfold compensated
      dsimp only
      rw [hon]
      rfl

/-- What is left of the reading after a null calibration is what the compensation, which was off while
the null values were measured, does to it. -/
theorem readsZero_iff {s : NullCal.State} (hkept : KeepsNulls s) (time : ℕ) {c : ℚ}
    (hc : ∀ x ∈ (NullCal.handleAutoNull s time).stored, x.value = c) :
    ReadsZero s time c ↔
      (Finishes s time →
        compensated (NullCal.setUseCalibratedValues s .SOURCE_VOLTAGE true) s.operationType c =
          c) := by
  have hnulls := (handleAutoNull_stores s time).keepsNulls hkept
  unfold ReadsZero
  refine forall_congr' fun hfinishes => ?_
  rw [← compensated_of_finishes hfinishes]
  -- the reading at `c` is the compensated `c` less the null value in force, which is `c`
  have hreading : ∀ x ∈ (NullCal.handleAutoNull s time).stored,
      (measure (NullCal.handleAutoNull s time) s.operationType x.range c = 0 ↔
        compensated (NullCal.handleAutoNull s time) s.operationType c = c) := by
    intro x hx
    obtain ⟨y, hy, -, hvalue⟩ := hnulls x hx
    rw [(handleAutoNull_stores s time).operationType, hc y hy] at hvalue
    rw [measure, hvalue, sub_eq_zero]
  constructor
  · intro hall
    obtain ⟨x, hx⟩ := List.exists_mem_of_ne_nil _ (stored_of_finishes hfinishes)
    exact (hreading x hx).1 (hall x hx)
  · exact fun hzero x hx => (hreading x hx).2 hzero

/-- No REL offset, nothing shown yet, and no calibration. -/
def initial : State := ⟨NullCal.initial, fun _ _ => 0, fun _ => 0⟩

/-- Many samples of 5 mV. -/
def steady : List PairEvent := List.replicate 45 (.handleSampling .SOURCE_VOLTAGE 5)

/-- The null calibration of the voltage at 5 mV, up to the call that ends it.  In the first run REL is
on for the 1 A range while the 10 mA range is calibrated, and taken back before its own turn. -/
def relTakenBack : List PairEvent :=
  steady ++ [.relFirst .SOURCE_VOLTAGE, .cal (.startNullCalibration .SOURCE_VOLTAGE 0),
    .cal (.handleAutoNull 1)] ++ steady ++ [.cal (.handleAutoNull 10001), .cal (.handleAutoNull 11001),
    .relFirst .SOURCE_VOLTAGE] ++ steady

/-- The null calibration of the voltage at 5 mV, with REL pressed before it in the first run. -/
def nullWithRel : List PairEvent :=
  [.handleSampling .SOURCE_VOLTAGE 5, .relFirst .SOURCE_VOLTAGE,
    .cal (.startNullCalibration .SOURCE_VOLTAGE 0), .handleSampling .SOURCE_VOLTAGE 5]

end RelCalibration
end PoorMansSmu
