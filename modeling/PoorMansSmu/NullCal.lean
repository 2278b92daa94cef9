import PoorMansSmu.CalTables
import PoorMansSmu.Filters
import PoorMansSmu.FrontPanel
import PoorMansSmu.SmuHal
import Mathlib.Data.List.Find

/-!
# NullCal — the null calibration of the measurement

`startNullCalibration` and `handleAutoNull` of `ZeroCalibration.cpp`.  The calibration measures what
the instrument shows at zero output, first in the 10 mA range and then in the 1 A range, and stores it
as the null value of the range.  `handleAutoNull` runs once in every iteration of the main loop and has
four phases, each of which is carried out once, in the first call that finds it due:

- phase 0, at once: switch to the 10 mA range and to zero output;
- phase 1, 10 s after the start: store the null value of the range;
- phase 2, 11 s after the start: switch to the 1 A range;
- phase 3, 21 s after the start: store the null value of the range, and restore the settings.

The model keeps a history besides: the last switch to zero output, the null values stored since the
start, and the settings before and after each calibration that finished.  The readings of `millis()`
within one call are taken as one.
-/

namespace PoorMansSmu
namespace NullCal

open SmuHal FrontPanel Filters Run

/-! ## State -/

/-- What a null calibration changes for the time it takes. -/
@[ext] structure Settings where
  samplingRate : ℤ
  filterSize : OperationType → FilterSize
  useCalibratedValues : OperationType → Bool

/-- A null value that was stored, with the switch to zero output that came before. -/
structure Stored where
  range : CurrentRange
  value : ℚ
  time : ℕ
  /-- The range the SMU was switched to, and when. -/
  switched : Option (CurrentRange × ℕ)
  deriving DecidableEq, Repr

/-- The object `ZEROCALIBRATION`, what it works on, and the history. -/
structure State where
  operationType : OperationType
  current_range : CurrentRange
  zeroCalstartTime : ℕ
  nullCalibrationDone0 : Bool
  nullCalibrationDone1 : Bool
  nullCalibrationDone2 : Bool
  nullCalibrationDone3 : Bool
  autoNullStarted : Bool
  nullCalibrationReady : Bool
  samplingRateBeforeZeroCal : ℤ
  filterSizeBeforeZeroCal : OperationType → ℤ
  SMU : ADCClass
  samplingRate : ℤ
  /-- `V_FILTERS` and `C_FILTERS`. -/
  FILTERS : OperationType → FiltersClass
  /-- `V_CALIBRATION` and `C_CALIBRATION`. -/
  CALIBRATION : AutoCal.State
  /-- `nullValueVol` and `nullValueCur`. -/
  nullValue : OperationType → CurrentRange → ℚ
  switched : Option (CurrentRange × ℕ)
  stored : List Stored
  /-- The settings before the first of the starts that overlap. -/
  before : Settings
  /-- The settings before and after each calibration that finished. -/
  finished : List (Settings × Settings)

/-- The settings in force. -/
def State.settings (s : State) : Settings where
  samplingRate := s.samplingRate
  filterSize o := (s.FILTERS o).filterSize
  useCalibratedValues o := (s.CALIBRATION.objects o).useCalibratedValues

/-! ## Functions -/

/-- `setNullValueVol` and `setNullValueCur`. -/
def setNullValue (s : State) (o : OperationType) (v : ℚ) (range : CurrentRange) : State :=
  { s with nullValue := Function.update s.nullValue o (Function.update (s.nullValue o) range v) }

def setFilterSize (s : State) (o : OperationType) (size : ℤ) : State :=
  { s with FILTERS := Function.update s.FILTERS o ((s.FILTERS o).setFilterSize size) }

def setUseCalibratedValues (s : State) (o : OperationType) (use : Bool) : State :=
  { s with CALIBRATION := CalTables.setUseCalibratedValues s.CALIBRATION o use }

def startNullCalibration (s : State) (operationType : OperationType) (time : ℕ) : State :=
  let s := { s with
    operationType := operationType
    nullCalibrationDone0 := false
    nullCalibrationDone1 := false
    nullCalibrationDone2 := false
    nullCalibrationDone3 := false
    nullCalibrationReady := false
    samplingRateBeforeZeroCal := s.samplingRate
    filterSizeBeforeZeroCal := fun o => (s.FILTERS o).filterSize.val
    autoNullStarted := true
    switched := none
    stored := []
    before := if s.autoNullStarted then s.before else s.settings }
  let s := setNullValue s s.operationType 0 .MILLIAMP10
  let s := setNullValue s s.operationType 0 .AMP1
  { s with zeroCalstartTime := time % 4294967296 }

/-- Switch to a range and to zero output.  `current_uA` is the argument of
`fltSetCommitCurrentSource`. -/
def sourceZero (s : State) (range : CurrentRange) (current_uA : ℤ) (time : ℕ) : State :=
  let SMU := s.SMU.setCurrentRange range s.operationType
  { s with
    current_range := range
    SMU :=
      match s.operationType with
      | .SOURCE_VOLTAGE => SMU.fltSetCommitVoltageSource 0 true
      | .SOURCE_CURRENT => SMU.fltSetCommitCurrentSource current_uA
    switched := some (range, time) }

/-- Store the mean of the filter as the null value of the range. -/
def storeNull (s : State) (time : ℕ) : State :=
  let v := (s.FILTERS s.operationType).mean
  let s := setNullValue s s.operationType v s.current_range
  { s with stored := s.stored ++ [Stored.mk s.current_range v time s.switched] }

def phase0 (s : State) (time : ℕ) : State :=
  if s.autoNullStarted ∧ !s.nullCalibrationDone0 then
    let s := setUseCalibratedValues s .SOURCE_CURRENT false
    let s := setUseCalibratedValues s .SOURCE_VOLTAGE false
    let s := { s with samplingRate := 10 }
    let s := sourceZero s .MILLIAMP10 0 time
    let s := setFilterSize s .SOURCE_VOLTAGE 20
    let s := setFilterSize s .SOURCE_CURRENT 20
    { s with nullCalibrationDone0 := true }
  else s

/-- `zeroCalstartTime + period < millis()`. -/
def due (zeroCalstartTime period time : ℕ) : Bool :=
  elapsed zeroCalstartTime period (time % 4294967296)

def phase1 (s : State) (time : ℕ) : State :=
  if s.autoNullStarted ∧ !s.nullCalibrationDone1 ∧ due s.zeroCalstartTime 10000 time then
    { storeNull s time with nullCalibrationDone1 := true }
  else s

/-- What `fltSetCommitCurrentSource` is given in phase 2: the number of the enumerator `AMP1`. -/
def AMP1_uA : ℤ := 0

def phase2 (s : State) (time : ℕ) : State :=
  if s.autoNullStarted ∧ !s.nullCalibrationDone2 ∧ due s.zeroCalstartTime 11000 time then
    { sourceZero s .AMP1 AMP1_uA time with nullCalibrationDone2 := true }
  else s

/-- The part of phase 3 that restores the settings. -/
def restoreSettings (s : State) : State :=
  let s := setFilterSize s .SOURCE_VOLTAGE 20
  let s := setFilterSize s .SOURCE_CURRENT 20
  let s := { s with samplingRate := s.samplingRateBeforeZeroCal }
  let s := setUseCalibratedValues s .SOURCE_VOLTAGE true
  let s := setUseCalibratedValues s .SOURCE_CURRENT true
  let s := setFilterSize s .SOURCE_VOLTAGE (s.filterSizeBeforeZeroCal .SOURCE_VOLTAGE)
  setFilterSize s .SOURCE_CURRENT (s.filterSizeBeforeZeroCal .SOURCE_CURRENT)

/-- The end of a calibration. -/
def finish (s : State) : State :=
  { s with
    autoNullStarted := false
    nullCalibrationReady := true
    finished := s.finished ++ [(s.before, s.settings)] }

def phase3 (s : State) (time : ℕ) : State :=
  if s.autoNullStarted ∧ !s.nullCalibrationDone3 ∧ due s.zeroCalstartTime 21000 time then
    let s := { storeNull s time with nullCalibrationDone3 := true }
    finish (restoreSettings s)
  else s

def handleAutoNull (s : State) (time : ℕ) : State :=
  let s := phase0 s time
  let s := phase1 s time
  let s := phase2 s time
  phase3 s time

/-- A sample goes into the filter of its quantity. -/
def sample (s : State) (o : OperationType) (v : ℚ) : State :=
  { s with FILTERS := Function.update s.FILTERS o ((s.FILTERS o).updateMean v true) }

/-! ## Runs -/

/-- What happens in the main loop and in the sampling interrupt. -/
inductive LoopEvent
  | handleAutoNull (time : ℕ)
  | sample (o : OperationType) (v : ℚ)

def loopStep (s : State) : LoopEvent → State
  | .handleAutoNull time => handleAutoNull s time
  | .sample o v => sample s o v

/-- The times of the calls of `handleAutoNull`. -/
def callTimes (es : List LoopEvent) : List ℕ :=
  es.filterMap fun
    | .handleAutoNull time => some time
    | .sample _ _ => none

/-- Now the calibration can be started as well. -/
inductive Event
  | startNullCalibration (operationType : OperationType) (time : ℕ)
  | loop (e : LoopEvent)

def step (s : State) : Event → State
  | .startNullCalibration operationType time => startNullCalibration s operationType time
  | .loop e => loopStep s e

/-- The state before any calibration. -/
def boot (SMU : ADCClass) (CALIBRATION : AutoCal.State) : State where
  operationType := .SOURCE_VOLTAGE
  current_range := .AMP1
  zeroCalstartTime := 0
  nullCalibrationDone0 := false
  nullCalibrationDone1 := false
  nullCalibrationDone2 := false
  nullCalibrationDone3 := false
  autoNullStarted := false
  nullCalibrationReady := false
  samplingRateBeforeZeroCal := 0
  filterSizeBeforeZeroCal := fun _ => 0
  SMU := SMU
  samplingRate := 20
  FILTERS := fun _ => {}
  CALIBRATION := CALIBRATION
  nullValue := fun _ _ => 0
  switched := none
  stored := []
  before := ⟨20, fun _ => (FiltersClass.filterSize {}), fun _ => true⟩
  finished := []

/-! ## Phases -/

section Phases

variable (s : State) (time : ℕ)

theorem phase0_of_done (h : s.nullCalibrationDone0 = true) : phase0 s time = s := by
  simp [phase0, h]

/-- Once the first phase has been carried out, a call goes through the other three. -/
theorem handleAutoNull_of_done (h : s.nullCalibrationDone0 = true) :
    handleAutoNull s time = phase3 (phase2 (phase1 s time) time) time := by
  simp only [handleAutoNull, phase0_of_done s time h]

/-- Without a calibration in progress nothing happens. -/
theorem handleAutoNull_of_idle (h : s.autoNullStarted = false) : handleAutoNull s time = s := by
  simp [handleAutoNull, phase0, phase1, phase2, phase3, h]

end Phases

/-! ## When a null value is settled -/

/-- The SMU had been in the range of the null value, at zero output, for 10 s. -/
def Settled (r : Stored) : Prop :=
  ∃ t, r.switched = some (r.range, t) ∧ t + 10000 ≤ r.time

/-- All null values stored since the start are settled. -/
def AllSettled (s : State) : Prop :=
  ∀ r ∈ s.stored, Settled r

/-- The waiting times are long enough, for a switch at `u`, the first call `a` that finds phase 1 due,
the first call `b` that finds phase 2 due and the first call `c` that finds phase 3 due.  Each null
value is stored 10 s after the last switch: that of phase 1, if it comes no later than phase 3, after
the switch of phase 2 if that came in an earlier call, and that of phase 3 after the switch of phase 2
if that came in this call or before. -/
def Waits (u : ℕ) (a b c : Option ℕ) : Prop :=
  (∀ t ∈ a, (∀ t' ∈ c, t ≤ t') → (b.filter (· < t)).getD u + 10000 ≤ t) ∧
    ∀ t ∈ c, (b.filter (· ≤ t)).getD u + 10000 ≤ t

/-- The calls come late enough after a start at `t₀`: the first one switches to the 10 mA range. -/
def CallsSpaced (t₀ : ℕ) (ts : List ℕ) : Prop :=
  ∀ t₁ ∈ ts.head?,
    Waits t₁ (ts.find? (due (t₀ % 4294967296) 10000)) (ts.find? (due (t₀ % 4294967296) 11000))
      (ts.find? (due (t₀ % 4294967296) 21000))

section Waits

variable {u t : ℕ} {a b c : Option ℕ} {d₁ d₂ : Bool}

/-- Times that all lie later do not pass the filter. -/
theorem filter_lt_of_later (hb : ∀ x ∈ b, t < x) : b.filter (· < t) = none := by
  cases b with
  | none => rfl
  | some x =>
      have hx := hb x rfl
      simp [Option.filter, Nat.not_lt.2 hx.le]

theorem filter_le_of_later (hb : ∀ x ∈ b, t < x) : b.filter (· ≤ t) = none := by
  cases b with
  | none => rfl
  | some x =>
      have hx := hb x rfl
      simp [Option.filter, Nat.not_le.2 hx]

/-- The waiting times of a call at `t` that finds phase 3 due; `d₁` and `d₂` say whether it carries
out phases 1 and 2. -/
theorem waits_now (ha : d₁ = false → ∀ x ∈ a, t < x) (hb : d₂ = false → ∀ x ∈ b, t < x) :
    Waits u (if d₁ then some t else a) (if d₂ then some t else b) (some t) ↔
      (d₁ = true → u + 10000 ≤ t) ∧ (if d₂ then t else u) + 10000 ≤ t := by
  have hfirst : ((if d₂ then some t else b).filter (· < t)).getD u = u := by
    cases d₂ with
    | true => simp [Option.filter]
    | false => simp [filter_lt_of_later (hb rfl)]
  have hlast : ((if d₂ then some t else b).filter (· ≤ t)).getD u = if d₂ then t else u := by
    cases d₂ with
    | true => simp [Option.filter]
    | false => simp [filter_le_of_later (hb rfl)]
  unfold Waits
  refine and_congr ?_ ?_
  · cases d₁ with
    | true => simp [hfirst]
    | false =>
        -- phase 1 comes after phase 3 and is not carried out any more
        refine iff_of_true (fun x hx hle => ?_) (fun h => absurd h (by decide))
        have hx' := ha rfl x hx
        exact absurd (hle t rfl) (Nat.not_le.2 hx')
  · simp [hlast]

/-- The waiting times of a call at `t` that does not find phase 3 due yet, and of those after it. -/
theorem waits_later (ha : d₁ = false → ∀ x ∈ a, t < x) (hb : d₂ = false → ∀ x ∈ b, t < x)
    (hc : ∀ x ∈ c, t < x) :
    Waits u (if d₁ then some t else a) (if d₂ then some t else b) c ↔
      (d₁ = true → u + 10000 ≤ t) ∧
        Waits (if d₂ then t else u) (if d₁ then none else a) (if d₂ then none else b) c := by
  have hfirst : ((if d₂ then some t else b).filter (· < t)).getD u = u := by
    cases d₂ with
    | true => simp [Option.filter]
    | false => simp [filter_lt_of_later (hb rfl)]
  -- for a later time the switch of this call is the last one
  have hlt : ∀ x, t < x → ((if d₂ then some t else b).filter (· < x)).getD u =
      ((if d₂ then none else b).filter (· < x)).getD (if d₂ then t else u) := by
    intro x hx
    cases d₂ with
    | true => simp [Option.filter, hx]
    | false => rfl
  have hle : ∀ x, t < x → ((if d₂ then some t else b).filter (· ≤ x)).getD u =
      ((if d₂ then none else b).filter (· ≤ x)).getD (if d₂ then t else u) := by
    intro x hx
    cases d₂ with
    | true => simp [Option.filter, hx.le]
    | false => rfl
  unfold Waits
  rw [← and_assoc]
  refine and_congr ?_ (forall₂_congr fun x hx => by rw [hle x (hc x hx)])
  cases d₁ with
  | true =>
      refine ⟨fun h => ⟨fun _ => ?_, fun x hx => by cases hx⟩, fun h x hx _ => ?_⟩
      · have hnow := h t rfl fun x hx => (hc x hx).le
        rwa [hfirst] at hnow
      · cases hx
        rw [hfirst]
        exact h.1 rfl
  | false =>
      simp only [Bool.false_eq_true, if_false, false_imp_iff, true_and]
      exact forall₂_congr fun x hx => by rw [hlt x (ha rfl x hx)]

end Waits

/-! ## The course of a calibration -/

/-- Phase 0 has been carried out and phase 3 has not, and the last switch was at `u`. -/
structure Waiting (s : State) (u : ℕ) : Prop where
  started : s.autoNullStarted = true
  done0 : s.nullCalibrationDone0 = true
  done3 : s.nullCalibrationDone3 = false
  switched : s.switched = some (s.current_range, u)

theorem allSettled_append (s : State) (r : Stored) :
    (∀ x ∈ s.stored ++ [r], Settled x) ↔ AllSettled s ∧ Settled r := by
  simp [AllSettled, or_imp, forall_and]

theorem settled_of_waiting {s : State} {u : ℕ} (h : Waiting s u) (v : ℚ) (time : ℕ) :
    Settled ⟨s.current_range, v, time, s.switched⟩ ↔ u + 10000 ≤ time := by
  constructor
  · rintro ⟨t, hswitched, ht⟩
    rw [h.switched] at hswitched
    cases hswitched
    exact ht
  · exact fun hu => ⟨u, h.switched, hu⟩

/-- What a call does while a calibration waits, but for phase 3: phase 1 stores a null value, phase 2
switches. -/
structure Advanced (s s' : State) (time : ℕ) (store switch : Bool) (u : ℕ) : Prop where
  waiting : Waiting s' (if switch then time else u)
  start : s'.zeroCalstartTime = s.zeroCalstartTime
  done1 : s'.nullCalibrationDone1 = (s.nullCalibrationDone1 || store)
  done2 : s'.nullCalibrationDone2 = (s.nullCalibrationDone2 || switch)
  settled : AllSettled s' ↔ AllSettled s ∧ (store = true → u + 10000 ≤ time)

theorem phase1_advanced {s : State} {u : ℕ} (h : Waiting s u) (time : ℕ) :
    Advanced s (phase1 s time) time
      (!s.nullCalibrationDone1 && due s.zeroCalstartTime 10000 time) false u := by
  unfold phase1
  by_cases hdue : (!s.nullCalibrationDone1 && due s.zeroCalstartTime 10000 time) = true
  · have hcond : s.autoNullStarted ∧ !s.nullCalibrationDone1 ∧
        due s.zeroCalstartTime 10000 time := by
      simpa [h.started] using hdue
    rw [if_pos hcond, hdue]
    refine ⟨{ h with }, rfl, by simp, by
      simp [storeNull, setNullValue], ?_⟩
    refine (allSettled_append s _).trans (and_congr_right fun _ => ?_)
    exact (settled_of_waiting h _ _).trans (by simp)
  · have hcond : ¬ (s.autoNullStarted ∧ !s.nullCalibrationDone1 ∧
        due s.zeroCalstartTime 10000 time) := by
      simpa [h.started] using hdue
    rw [Bool.not_eq_true] at hdue
    rw [if_neg hcond, hdue]
    exact ⟨h, rfl, by simp, by simp, by simp⟩

theorem phase2_advanced {s : State} {u : ℕ} (h : Waiting s u) (time : ℕ) :
    Advanced s (phase2 s time) time false
      (!s.nullCalibrationDone2 && due s.zeroCalstartTime 11000 time) u := by
  unfold phase2
  by_cases hdue : (!s.nullCalibrationDone2 && due s.zeroCalstartTime 11000 time) = true
  · have hcond : s.autoNullStarted ∧ !s.nullCalibrationDone2 ∧
        due s.zeroCalstartTime 11000 time := by
      simpa [h.started] using hdue
    rw [if_pos hcond, hdue]
    exact ⟨{ h with switched := rfl }, rfl, by simp [sourceZero], by simp,
      by simp [AllSettled, sourceZero]⟩
  · have hcond : ¬ (s.autoNullStarted ∧ !s.nullCalibrationDone2 ∧
        due s.zeroCalstartTime 11000 time) := by
      simpa [h.started] using hdue
    rw [Bool.not_eq_true] at hdue
    rw [if_neg hcond, hdue]
    exact ⟨h, rfl, by simp, by simp, by simp⟩

/-- Phase 2 right after phase 1. -/
theorem phase12_advanced {s : State} {u : ℕ} (h : Waiting s u) (time : ℕ) :
    Advanced s (phase2 (phase1 s time) time) time
      (!s.nullCalibrationDone1 && due s.zeroCalstartTime 10000 time)
      (!s.nullCalibrationDone2 && due s.zeroCalstartTime 11000 time) u := by
  have h₁ := phase1_advanced h time
  have hwaiting : Waiting (phase1 s time) u := h₁.waiting
  have h₂ := phase2_advanced hwaiting time
  rw [h₁.done2, h₁.start, Bool.or_false] at h₂
  refine ⟨h₂.waiting, h₂.start.trans h₁.start, ?_, ?_, ?_⟩
  · rw [h₂.done1, h₁.done1, Bool.or_false]
  · rw [h₂.done2, h₁.done2, Bool.or_false]
  · rw [h₂.settled, h₁.settled]
    simp

/-- Phase 3, when it is due, stores a null value and ends the calibration. -/
theorem phase3_of_due {s : State} {u time : ℕ} (h : Waiting s u)
    (hdue : due s.zeroCalstartTime 21000 time = true) :
    (phase3 s time).autoNullStarted = false ∧
      (AllSettled (phase3 s time) ↔ AllSettled s ∧ u + 10000 ≤ time) := by
  have hcond : s.autoNullStarted ∧ !s.nullCalibrationDone3 ∧
      due s.zeroCalstartTime 21000 time := by
    simp [h.started, h.done3, hdue]
  unfold phase3
  rw [if_pos hcond]
  refine ⟨rfl, ?_⟩
  refine (allSettled_append s _).trans (and_congr_right fun _ => ?_)
  exact settled_of_waiting h _ _

theorem phase3_of_not_due {s : State} {time : ℕ}
    (hdue : due s.zeroCalstartTime 21000 time = false) : phase3 s time = s := by
  simp [phase3, hdue]

/-- Without a calibration in progress no null value is stored. -/
theorem allSettled_of_idle {s : State} (h : s.autoNullStarted = false) (es : List LoopEvent) :
    AllSettled (exec loopStep s es) ↔ AllSettled s := by
  induction es generalizing s with
  | nil => exact Iff.rfl
  | cons e es ih =>
      cases e with
      | handleAutoNull time =>
          rw [exec_cons, loopStep, handleAutoNull_of_idle s time h]
          exact ih h
      | sample o v => exact ih (s := sample s o v) h

/-! ## The waiting times of a run -/

section Times

variable (due : ℕ → Bool) (done : Bool) (t : ℕ) (ts : List ℕ)

/-- The first of the times that are due, for a phase that has not been carried out. -/
def firstDue : Option ℕ := if done then none else ts.find? due

theorem firstDue_cons :
    firstDue due done (t :: ts) = if !done && due t then some t else firstDue due done ts := by
  unfold firstDue
  cases done with
  | true => rfl
  | false => cases hdue : due t <;> simp [hdue]

/-- When the phase has been carried out or is carried out now, nothing of it is left. -/
theorem firstDue_or :
    firstDue due (done || (!done && due t)) ts =
      if !done && due t then none else firstDue due done ts := by
  unfold firstDue
  cases done with
  | true => rfl
  | false => cases due t <;> rfl

/-- A call that finds a phase due for the first time comes later than a call that does not. -/
theorem later_of_firstDue (hle : ∀ x ∈ ts, t ≤ x) (hnot : (!done && due t) = false) :
    ∀ x ∈ firstDue due done ts, t < x := by
  intro x hx
  cases done with
  | true => cases hx
  | false =>
      have hmem : x ∈ ts := List.mem_of_find?_eq_some hx
      have hdue : due x = true := List.find?_some hx
      refine lt_of_le_of_ne (hle x hmem) fun heq => ?_
      subst heq
      simp [hdue] at hnot

end Times

/-- While a calibration waits, the null values of the rest of the run are settled exactly when the
waiting times are long enough. -/
theorem allSettled_iff_waits {s : State} {u : ℕ} (h : Waiting s u) (es : List LoopEvent)
    (hsorted : (callTimes es).Pairwise (· ≤ ·)) :
    AllSettled (exec loopStep s es) ↔
      AllSettled s ∧
        Waits u (firstDue (due s.zeroCalstartTime 10000) s.nullCalibrationDone1 (callTimes es))
          (firstDue (due s.zeroCalstartTime 11000) s.nullCalibrationDone2 (callTimes es))
          (firstDue (due s.zeroCalstartTime 21000) false (callTimes es)) := by
  induction es generalizing s u with
  | nil => simp [callTimes, firstDue, Waits]
  | cons e es ih =>
      cases e with
      | sample o v =>
          have hnext : Waiting (sample s o v) u := { h with }
          exact ih hnext hsorted
      | handleAutoNull t =>
          have htimes : callTimes (.handleAutoNull t :: es) = t :: callTimes es := rfl
          rw [htimes] at hsorted ⊢
          obtain ⟨hle, hrest⟩ := List.pairwise_cons.1 hsorted
          have hadv := phase12_advanced h t
          rw [exec_cons, loopStep, handleAutoNull_of_done s t h.done0]
          generalize phase2 (phase1 s t) t = s₂ at hadv
          obtain ⟨hwaiting, hstart, hdone₁, hdone₂, hsettled⟩ := hadv
          -- a phase still to come is due in a later call than this one
          have ha := later_of_firstDue (due s.zeroCalstartTime 10000) s.nullCalibrationDone1 t
            (callTimes es) hle
          have hb := later_of_firstDue (due s.zeroCalstartTime 11000) s.nullCalibrationDone2 t
            (callTimes es) hle
          have hc := later_of_firstDue (due s.zeroCalstartTime 21000) false t (callTimes es) hle
          rw [firstDue_cons, firstDue_cons, firstDue_cons]
          cases hdue : due s.zeroCalstartTime 21000 t with
          | true =>
              -- the calibration ends with this call
              obtain ⟨hidle, hlast⟩ := phase3_of_due hwaiting (hstart ▸ hdue)
              rw [allSettled_of_idle hidle, hlast, hsettled, and_assoc]
              exact and_congr_right fun _ => (waits_now ha hb).symm
          | false =>
              rw [phase3_of_not_due (hstart ▸ hdue), ih hwaiting hrest, hsettled, and_assoc,
                hstart, hdone₁, hdone₂, firstDue_or, firstDue_or]
              have hlater := hc (by simp [hdue])
              exact and_congr_right fun _ => (waits_later ha hb hlater).symm

/-- Before the first call nothing has been carried out. -/
structure Fresh (s : State) (start : ℕ) : Prop where
  started : s.autoNullStarted = true
  done0 : s.nullCalibrationDone0 = false
  done1 : s.nullCalibrationDone1 = false
  done2 : s.nullCalibrationDone2 = false
  done3 : s.nullCalibrationDone3 = false
  stored : s.stored = []
  start : s.zeroCalstartTime = start

/-- The first call switches to the 10 mA range, and goes on as any other one. -/
theorem handleAutoNull_of_fresh {s : State} {start : ℕ} (h : Fresh s start) (time : ℕ) :
    handleAutoNull s time = handleAutoNull (phase0 s time) time ∧
      Waiting (phase0 s time) time ∧ (phase0 s time).zeroCalstartTime = start ∧
      (phase0 s time).nullCalibrationDone1 = false ∧
      (phase0 s time).nullCalibrationDone2 = false ∧ (phase0 s time).stored = [] := by
  have hcond : s.autoNullStarted ∧ !s.nullCalibrationDone0 := by simp [h.started, h.done0]
  have hdone : (phase0 s time).nullCalibrationDone0 = true := by
    unfold phase0
    rw [if_pos hcond]
  refine ⟨?_, ?_⟩
  · rw [handleAutoNull_of_done _ time hdone]
    rfl
  · unfold phase0
    rw [if_pos hcond]
    exact ⟨⟨h.started, rfl, h.done3, rfl⟩, h.start, h.done1, h.done2, h.stored⟩

theorem allSettled_iff_spaced {s : State} {t₀ : ℕ} (h : Fresh s (t₀ % 4294967296))
    (es : List LoopEvent) (hsorted : (callTimes es).Pairwise (· ≤ ·)) :
    AllSettled (exec loopStep s es) ↔ CallsSpaced t₀ (callTimes es) := by
  induction es generalizing s with
  | nil => simp [callTimes, CallsSpaced, AllSettled, h.stored]
  | cons e es ih =>
      cases e with
      | sample o v =>
          have hnext : Fresh (sample s o v) (t₀ % 4294967296) := { h with }
          exact ih hnext hsorted
      | handleAutoNull t =>
          obtain ⟨hcall, hwaiting, hstart, hdone₁, hdone₂, hstored⟩ := handleAutoNull_of_fresh h t
          have hexec : exec loopStep s (.handleAutoNull t :: es) =
              exec loopStep (phase0 s t) (.handleAutoNull t :: es) := by
            rw [exec_cons, exec_cons, loopStep, loopStep, hcall]
          rw [hexec, allSettled_iff_waits hwaiting _ hsorted, hstart, hdone₁, hdone₂]
          simp [CallsSpaced, callTimes, firstDue, AllSettled, hstored]

/-- After a start at `t₀`, the null values are stored 10 s after the switch to their range and to zero
output exactly when the calls come late enough. -/
theorem nulls_settled_iff (s : State) (operationType : OperationType) (t₀ : ℕ)
    (es : List LoopEvent) (hsorted : (callTimes es).Pairwise (· ≤ ·)) :
    AllSettled (exec loopStep (startNullCalibration s operationType t₀) es) ↔
      CallsSpaced t₀ (callTimes es) :=
  allSettled_iff_spaced ⟨rfl, rfl, rfl, rfl, rfl, rfl, rfl⟩ es hsorted

/-- A state to start from: the output stage as set up, and no calibration yet. -/
def initial : State :=
  boot (ADCClass.setup Calibration.DacComp.default Calibration.DacComp.default fun _ => 0)
    (AutoCal.boot 0 (fun _ _ => 0) (fun _ _ => 0) fun _ => 0)

/-- With calls every 10 s from the switch on, and 10 s between the last two, all is well. -/
theorem nulls_settled_iff_regular :
    AllSettled (exec loopStep (startNullCalibration initial .SOURCE_VOLTAGE 0)
        [.handleAutoNull 0, .handleAutoNull 10001, .handleAutoNull 11001, .handleAutoNull 21001]) ↔
      CallsSpaced 0 [0, 10001, 11001, 21001] :=
  nulls_settled_iff initial .SOURCE_VOLTAGE 0 _ (by decide)

/-- After a pause of 30 s one call goes through all four phases: the null values of both ranges are
stored at once, and both are the mean of what was sampled before. -/
theorem nulls_after_pause :
    (exec loopStep (startNullCalibration initial .SOURCE_VOLTAGE 0)
        [.sample .SOURCE_VOLTAGE 5, .handleAutoNull 30000]).stored =
      [⟨.MILLIAMP10, 1, 30000, some (.MILLIAMP10, 30000)⟩,
        ⟨.AMP1, 1, 30000, some (.AMP1, 30000)⟩] := by
  decide +kernel

theorem nulls_not_settled :
    ¬ AllSettled (exec loopStep (startNullCalibration initial .SOURCE_VOLTAGE 0)
      [.sample .SOURCE_VOLTAGE 5, .handleAutoNull 30000]) := by
  intro h
  unfold AllSettled at h
  rw [nulls_after_pause] at h
  obtain ⟨t, hswitched, ht⟩ := h _ (List.mem_cons_self ..)
  cases hswitched
  exact absurd ht (by decide)

/-! ## Before the counter of `millis()` wraps around -/

theorem due_iff {t₀ period t : ℕ} (hstart : t₀ + period < 4294967296) (ht : t < 4294967296) :
    due (t₀ % 4294967296) period t = true ↔ t₀ + period < t := by
  have hstart' : t₀ % 4294967296 = t₀ := Nat.mod_eq_of_lt (by omega)
  unfold due elapsed
  rw [hstart', Nat.mod_eq_of_lt hstart, Nat.mod_eq_of_lt ht]
  exact decide_eq_true_iff

/-- Of two conditions the weaker one is met first. -/
theorem find?_le_of_imp {p q : ℕ → Bool} {ts : List ℕ} (hsorted : ts.Pairwise (· ≤ ·))
    (himp : ∀ t ∈ ts, q t = true → p t = true) {y : ℕ} (hy : ts.find? q = some y) :
    ∃ x, ts.find? p = some x ∧ x ≤ y := by
  induction ts with
  | nil => cases hy
  | cons t ts ih =>
      obtain ⟨hle, hrest⟩ := List.pairwise_cons.1 hsorted
      have hmem : y ∈ t :: ts := List.mem_of_find?_eq_some hy
      cases hp : p t with
      | true =>
          refine ⟨t, by simp [hp], ?_⟩
          rcases List.mem_cons.1 hmem with heq | hin
          · exact heq.ge
          · exact hle y hin
      | false =>
          have hq : q t = false := by
            cases hq : q t with
            | false => rfl
            | true => exact absurd (himp t (List.mem_cons_self ..) hq) (by simp [hp])
          rw [List.find?_cons_of_neg (by simp [hq])] at hy
          rw [List.find?_cons_of_neg (by simp [hp])]
          exact ih hrest (fun x hx => himp x (List.mem_cons_of_mem _ hx)) hy

/-- The condition in plain terms: the first call later than 10 s after the start comes 10 s after the
first call of all, and the first call later than 21 s after the start comes 10 s after the first one
later than 11 s. -/
theorem callsSpaced_iff {t₀ : ℕ} {ts : List ℕ} (hsorted : ts.Pairwise (· ≤ ·))
    (hstart : t₀ + 21000 < 4294967296) (hts : ∀ t ∈ ts, t < 4294967296) :
    CallsSpaced t₀ ts ↔
      ∀ t₁ ∈ ts.head?,
        (∀ a ∈ ts.find? (t₀ + 10000 < ·), t₁ + 10000 ≤ a) ∧
          ∀ b ∈ ts.find? (t₀ + 11000 < ·), ∀ c ∈ ts.find? (t₀ + 21000 < ·), b + 10000 ≤ c := by
  have hfind : ∀ period, period ≤ 21000 →
      ts.find? (due (t₀ % 4294967296) period) = ts.find? (t₀ + period < ·) := by
    intro period hperiod
    refine List.find?_congr fun t ht => ?_
    rw [Bool.eq_iff_iff, due_iff (by omega) (hts t ht), decide_eq_true_iff]
  unfold CallsSpaced
  rw [hfind 10000 (by omega), hfind 11000 (by omega), hfind 21000 (by omega)]
  have hab : ∀ b, ts.find? (t₀ + 11000 < ·) = some b →
      ∃ a, ts.find? (t₀ + 10000 < ·) = some a ∧ a ≤ b := fun b =>
    find?_le_of_imp hsorted fun t _ ht => by simp only [decide_eq_true_eq] at ht ⊢; omega
  have hbc : ∀ c, ts.find? (t₀ + 21000 < ·) = some c →
      ∃ b, ts.find? (t₀ + 11000 < ·) = some b ∧ b ≤ c := fun c =>
    find?_le_of_imp hsorted fun t _ ht => by simp only [decide_eq_true_eq] at ht ⊢; omega
  refine forall₂_congr fun t₁ _ => ?_
  unfold Waits
  refine and_congr ?_ ?_
  · refine forall₂_congr fun a ha => ?_
    -- phase 1 comes first
    have hlast : ∀ c ∈ ts.find? (t₀ + 21000 < ·), a ≤ c := by
      intro c hc
      obtain ⟨b, hb, hle⟩ := hbc c hc
      obtain ⟨a', ha', hle'⟩ := hab b hb
      cases ha.symm.trans ha'
      exact hle'.trans hle
    have hnone : (ts.find? (t₀ + 11000 < ·)).filter (· < a) = none := by
      cases hb : ts.find? (t₀ + 11000 < ·) with
      | none => rfl
      | some b =>
          obtain ⟨a', ha', hle'⟩ := hab b hb
          cases ha.symm.trans ha'
          simp [Option.filter, Nat.not_lt.2 hle']
    rw [hnone]
    exact ⟨fun h => h hlast, fun h _ => h⟩
  · constructor
    · intro h b hb c hc
      obtain ⟨b', hb', hle⟩ := hbc c hc
      cases hb.symm.trans hb'
      have hc' := h c hc
      simpa [hb', Option.filter, hle] using hc'
    · intro h c hc
      obtain ⟨b, hb, hle⟩ := hbc c hc
      simpa [hb, Option.filter, hle] using h b hb c hc

/-! ## Settings -/

/-- Each calibration that finished left the settings as they were before the first of the starts that
overlap. -/
def Restored (s : State) : Prop :=
  ∀ p ∈ s.finished, p.2 = p.1

/-- A start that leads to no loss.  The flags are not saved and are on in the end, so they have to be
on when a calibration starts.  Sampling rate and filter sizes are saved by every start, so those of
the time before have to be in force still when one starts during another. -/
def StartOk (s : State) : Event → Prop
  | .startNullCalibration _ _ =>
      if s.autoNullStarted then
        s.settings.samplingRate = s.before.samplingRate ∧
          s.settings.filterSize = s.before.filterSize
      else s.settings.useCalibratedValues = fun _ => true
  | .loop _ => True

/-- What is saved for the end of a calibration in progress. -/
structure Saved (s : State) : Prop where
  restored : Restored s
  samplingRate : s.autoNullStarted = true → s.samplingRateBeforeZeroCal = s.before.samplingRate
  filterSize : s.autoNullStarted = true →
    ∀ o, s.filterSizeBeforeZeroCal o = (s.before.filterSize o).val
  useCalibratedValues : s.autoNullStarted = true → s.before.useCalibratedValues = fun _ => true

theorem saved_start {s : State} (h : Saved s) {operationType : OperationType} {time : ℕ}
    (hok : StartOk s (.startNullCalibration operationType time)) :
    Saved (startNullCalibration s operationType time) := by
  have hbefore : (startNullCalibration s operationType time).before =
      if s.autoNullStarted then s.before else s.settings := rfl
  refine ⟨h.restored, fun _ => ?_, fun _ o => ?_, fun _ => ?_⟩
  all_goals
    rw [hbefore]
    simp only [StartOk] at hok
    cases hstarted : s.autoNullStarted
    all_goals rw [hstarted] at hok
  · rfl
  · exact hok.1
  · rfl
  · exact congrArg (fun size : OperationType → FilterSize => ((size o).val : ℤ)) hok.2
  · exact hok
  · exact h.useCalibratedValues hstarted

/-- The first three phases touch nothing of what is saved. -/
structure SameSaved (s s' : State) : Prop where
  autoNullStarted : s'.autoNullStarted = s.autoNullStarted
  samplingRate : s'.samplingRateBeforeZeroCal = s.samplingRateBeforeZeroCal
  filterSize : s'.filterSizeBeforeZeroCal = s.filterSizeBeforeZeroCal
  before : s'.before = s.before
  finished : s'.finished = s.finished

theorem SameSaved.trans {s s' s'' : State} (h : SameSaved s s') (h' : SameSaved s' s'') :
    SameSaved s s'' :=
  ⟨h'.1.trans h.1, h'.2.trans h.2, h'.3.trans h.3, h'.4.trans h.4, h'.5.trans h.5⟩

theorem SameSaved.saved {s s' : State} (h : SameSaved s s') (hs : Saved s) : Saved s' := by
  obtain ⟨hstarted, hrate, hsize, hbefore, hfinished⟩ := h
  refine ⟨?_, ?_, ?_, ?_⟩
  · unfold Restored
    rw [hfinished]
    exact hs.restored
  · rw [hstarted, hrate, hbefore]
    exact hs.samplingRate
  · rw [hstarted, hsize, hbefore]
    exact hs.filterSize
  · rw [hstarted, hbefore]
    exact hs.useCalibratedValues

theorem sameSaved_phases (s : State) (time : ℕ) :
    SameSaved s (phase0 s time) ∧ SameSaved s (phase1 s time) ∧ SameSaved s (phase2 s time) := by
  refine ⟨?_, ?_, ?_⟩
  · unfold phase0
    split_ifs
    · exact ⟨rfl, rfl, rfl, rfl, rfl⟩
    · exact ⟨rfl, rfl, rfl, rfl, rfl⟩
  · unfold phase1
    split_ifs
    · exact ⟨rfl, rfl, rfl, rfl, rfl⟩
    · exact ⟨rfl, rfl, rfl, rfl, rfl⟩
  · unfold phase2
    split_ifs
    · exact ⟨rfl, rfl, rfl, rfl, rfl⟩
    · exact ⟨rfl, rfl, rfl, rfl, rfl⟩

/-- The settings once they are restored, for saved sizes that a filter can have. -/
theorem restoreSettings_settings {s : State} {size : OperationType → FilterSize}
    (h : ∀ o, s.filterSizeBeforeZeroCal o = (size o).val) :
    (restoreSettings s).settings = ⟨s.samplingRateBeforeZeroCal, size, fun _ => true⟩ := by
  -- the sizes are set twice; the second time counts
  refine Settings.ext rfl (funext fun o => ?_) (funext fun o => ?_)
  · cases o with
    | SOURCE_VOLTAGE =>
        have hsize := FiltersClass.setFilterSize_filterSize
          ((s.FILTERS .SOURCE_VOLTAGE).setFilterSize 20) (size .SOURCE_VOLTAGE)
        rw [← h] at hsize
        exact hsize
    | SOURCE_CURRENT =>
        have hsize := FiltersClass.setFilterSize_filterSize
          ((s.FILTERS .SOURCE_CURRENT).setFilterSize 20) (size .SOURCE_CURRENT)
        rw [← h] at hsize
        exact hsize
  · cases o with
    | SOURCE_VOLTAGE => rfl
    | SOURCE_CURRENT => rfl

theorem sameSaved_setFilterSize (s : State) (o : OperationType) (size : ℤ) :
    SameSaved s (setFilterSize s o size) := by
  exact ⟨rfl, rfl, rfl, rfl, rfl⟩

theorem sameSaved_setUseCalibratedValues (s : State) (o : OperationType) (use : Bool) :
    SameSaved s (setUseCalibratedValues s o use) := by
  exact ⟨rfl, rfl, rfl, rfl, rfl⟩

theorem sameSaved_storeNull (s : State) (time : ℕ) :
    SameSaved s { storeNull s time with nullCalibrationDone3 := true } := by
  exact ⟨rfl, rfl, rfl, rfl, rfl⟩

theorem sameSaved_restoreSettings (s : State) : SameSaved s (restoreSettings s) := by
  unfold restoreSettings
  refine SameSaved.trans ?_ (sameSaved_setFilterSize _ _ _)
  refine SameSaved.trans ?_ (sameSaved_setFilterSize _ _ _)
  refine SameSaved.trans ?_ (sameSaved_setUseCalibratedValues _ _ _)
  refine SameSaved.trans ?_ (sameSaved_setUseCalibratedValues _ _ _)
  exact ⟨rfl, rfl, rfl, rfl, rfl⟩

/-- A calibration may end once the settings are those of before. -/
theorem saved_finish {s : State} (h : Saved s) (hsettings : s.settings = s.before) :
    Saved (finish s) := by
  refine ⟨?_, fun hstarted => ?_, fun hstarted => ?_, fun hstarted => ?_⟩
  · intro p hp
    rcases List.mem_append.1 hp with hold | hnew
    · exact h.restored p hold
    · rw [List.mem_singleton.1 hnew]
      exact hsettings
  all_goals cases hstarted

/-- Phase 3 restores what was saved, and turns both flags on. -/
theorem saved_phase3 {s : State} (h : Saved s) (time : ℕ) : Saved (phase3 s time) := by
  unfold phase3
  by_cases hdue : s.autoNullStarted ∧ !s.nullCalibrationDone3 ∧ due s.zeroCalstartTime 21000 time
  · rw [if_pos hdue]
    have hsame := (sameSaved_storeNull s time).trans (sameSaved_restoreSettings _)
    have hsettings := restoreSettings_settings
      (s := { storeNull s time with nullCalibrationDone3 := true }) (h.filterSize hdue.1)
    refine saved_finish (hsame.saved h) (hsettings.trans ?_)
    rw [hsame.before]
    exact Settings.ext (h.samplingRate hdue.1) rfl (h.useCalibratedValues hdue.1).symm
  · rw [if_neg hdue]
    exact h

theorem saved_handleAutoNull {s : State} (h : Saved s) (time : ℕ) :
    Saved (handleAutoNull s time) := by
  have h₀ := (sameSaved_phases s time).1
  have h₁ := h₀.trans (sameSaved_phases _ time).2.1
  have h₂ := h₁.trans (sameSaved_phases _ time).2.2
  exact saved_phase3 (h₂.saved h) time

theorem saved_step (s : State) (e : Event) (h : Saved s) (hok : StartOk s e) : Saved (step s e) := by
  cases e with
  | startNullCalibration operationType time => exact saved_start h hok
  | loop e =>
      cases e with
      | handleAutoNull time => exact saved_handleAutoNull h time
      | sample o v => exact { h with }

/-- In every run whose starts are all of the kind that leads to no loss, a null calibration that
finishes leaves the settings as they were before the first of the starts that overlap. -/
theorem settings_restored {s : State} (hidle : s.autoNullStarted = false) (hnone : s.finished = [])
    {es : List Event} (hok : Guarded step StartOk s es) : Always step Restored s es := by
  have hnot : ¬ s.autoNullStarted = true := by simp [hidle]
  have hrestored : Restored s := by
    unfold Restored
    rw [hnone]
    exact fun p hp => absurd hp (List.not_mem_nil)
  have hsaved : Saved s := ⟨hrestored, fun h => absurd h hnot, fun h => absurd h hnot,
    fun h => absurd h hnot⟩
  exact (always_of_guarded saved_step hsaved hok).mono fun _ h => h.restored

/-- A calibration that runs through, with a second start before its first phase. -/
theorem settings_restored_twice_started :
    Always step Restored initial
      [.startNullCalibration .SOURCE_VOLTAGE 0, .startNullCalibration .SOURCE_CURRENT 500,
        .loop (.handleAutoNull 600), .loop (.handleAutoNull 10700),
        .loop (.handleAutoNull 11600), .loop (.handleAutoNull 21700)] := by
  refine settings_restored rfl rfl ⟨?_, ?_, trivial, trivial, trivial, trivial, trivial⟩
  · exact funext fun o => by cases o <;> rfl
  · exact ⟨rfl, rfl⟩

/-- With a second start after the first phase, a sampling rate of 20 becomes one of 10 for good. -/
theorem second_start_loses_rate :
    (exec step initial
        [.startNullCalibration .SOURCE_VOLTAGE 0, .loop (.handleAutoNull 0),
          .startNullCalibration .SOURCE_VOLTAGE 1000, .loop (.handleAutoNull 40000)]).finished.map
      (fun p => (p.1.samplingRate, p.2.samplingRate)) = [(20, 10)] := by
  decide +kernel

theorem settings_not_restored :
    ¬ Always step Restored initial
      [.startNullCalibration .SOURCE_VOLTAGE 0, .loop (.handleAutoNull 0),
        .startNullCalibration .SOURCE_VOLTAGE 1000, .loop (.handleAutoNull 40000)] := by
  intro h
  have hlast := second_start_loses_rate
  have hend : Restored _ := h.exec
  obtain ⟨p, hp, hrates⟩ := List.mem_map.1 (hlast ▸ List.mem_singleton_self ((20 : ℤ), (10 : ℤ)))
  have heq := congrArg Settings.samplingRate (hend p hp)
  rw [Prod.mk.injEq] at hrates
  rw [hrates.1, hrates.2] at heq
  exact absurd heq (by decide)

end NullCal
end PoorMansSmu
