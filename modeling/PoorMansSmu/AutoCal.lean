import PoorMansSmu.EepromMap
import Mathlib.Algebra.Order.Ring.Rat
import Mathlib.Data.Rat.Floor
import Mathlib.Logic.Function.Basic
import Mathlib.Tactic.Linarith
import Mathlib.Tactic.NormNum
import Mathlib.Tactic.Ring

/-!
# AutoCal — the automatic calibration of the measurement

`startAutoCal` and `autoCalADCfromDAC` of the two `CalibrationClass` objects.  A run of an object
steps a set value through a sweep; for each point it commits the value to the output after 500 ms and
notes what the filter shows after 5000 ms.  Sweep bounds, step, set value, timer, phase flag and
array pointer are globals that the two objects share.

Besides the program's state the model keeps a history: which run wrote a set value, what was last
committed to the output, every pair recorded and every run completed.  The readings of `millis()`
within one call are taken as one.
-/

namespace PoorMansSmu
namespace AutoCal

open EepromMap Run

/-! ## State -/

/-- The part of a `CalibrationClass` object that the automatic calibration uses. -/
structure CalibrationObject where
  autoCalInProgress : Bool
  autoCalDone : Bool
  useCalibratedValues : Bool
  set_adc : ℕ → ℚ
  meas_adc : ℕ → ℚ
  adc_cal_points : ℕ
  /-- The number of the object's run in progress, or of its last one. -/
  run : ℕ
  /-- The number of the run that wrote a set value. -/
  setRun : ℕ → ℕ

/-- A source value committed by a run. -/
structure Commit where
  object : OperationType
  run : ℕ
  value_micro : ℤ
  deriving DecidableEq, Repr

/-- A pair recorded by a run, with the run that wrote its set value and with the source value that
was committed last when its measured value was noted. -/
structure Recorded where
  object : OperationType
  run : ℕ
  set : ℚ
  setRun : ℕ
  meas : ℚ
  committed : Option Commit
  deriving DecidableEq

/-- A run that completed: the points in use and their number. -/
structure Completed where
  object : OperationType
  points : List ℚ
  adc_cal_points : ℕ
  deriving DecidableEq

/-- The shared globals, the two objects and the history.  `V_CALIBRATION` is the object of
`SOURCE_VOLTAGE`, `C_CALIBRATION` that of `SOURCE_CURRENT`. -/
structure State where
  autoCalDacTimer : ℤ
  autoCalV : ℚ
  autoCalDone1 : Bool
  autoCalArrayPointer : ℕ
  maxValueCal : ℚ
  minValueCal : ℚ
  stepValueCal : ℚ
  objects : OperationType → CalibrationObject
  /-- The number of runs started. -/
  runs : ℕ
  committed : Option Commit
  recorded : List Recorded
  completed : List Completed

/-! ## Functions -/

/-- The number of values `v = min, min + step, ..` up to `max`. -/
def sweepLength (minValue maxValue stepValue : ℚ) : ℕ :=
  (⌊(maxValue - minValue) / stepValue⌋ + 1).toNat

/-- The sweep a call of `startAutoCal` leaves in the globals, whether or not it starts a run: the
current object sets its own, the voltage object sets none. -/
def chooseSweep (s : State) (o : OperationType) : State :=
  if o = .SOURCE_CURRENT then
    { s with maxValueCal := 400, minValueCal := -400, stepValueCal := 25 }
  else s

/-- The start of a run, at a timer value. -/
def beginRun (s : State) (o : OperationType) (timer : ℤ) : State :=
  let c := s.objects o
  { s with
    autoCalDacTimer := timer
    autoCalV := s.minValueCal
    autoCalArrayPointer := 0
    runs := s.runs + 1
    objects := Function.update s.objects o { c with
      autoCalInProgress := true
      useCalibratedValues := false
      adc_cal_points := sweepLength s.minValueCal s.maxValueCal s.stepValueCal
      run := s.runs + 1 } }

def startAutoCal (s : State) (o : OperationType) (millis : ℕ) : State :=
  let s := chooseSweep s o
  if !(s.objects o).autoCalInProgress then beginRun s o (wrap32 millis) else s

/-- The first half of `autoCalADCfromDAC`, when it is due: commit the set value. -/
def commitPoint (s : State) (o : OperationType) : State :=
  let c := s.objects o
  { s with
    committed := some ⟨o, c.run, truncate (s.autoCalV * 1000)⟩
    autoCalDone1 := true
    objects := Function.update s.objects o { c with
      set_adc := Function.update c.set_adc s.autoCalArrayPointer s.autoCalV
      setRun := Function.update c.setRun s.autoCalArrayPointer c.run } }

/-- The second half, when it is due: note the measured value, and go to the next point or complete
the run. -/
def recordPoint (s : State) (o : OperationType) (mean : ℚ) (timer : ℤ) : State :=
  let i := s.autoCalArrayPointer
  let c := s.objects o
  let c := { c with meas_adc := Function.update c.meas_adc i mean }
  let s := { s with
    recorded := s.recorded ++ [Recorded.mk o c.run (c.set_adc i) (c.setRun i) mean s.committed]
    autoCalV := s.autoCalV + s.stepValueCal
    autoCalArrayPointer := i + 1 }
  if s.autoCalV > s.maxValueCal then
    let n := s.autoCalArrayPointer
    { s with
      completed := s.completed ++ [Completed.mk o ((List.range n).map c.set_adc) n]
      objects := Function.update s.objects o { c with
        autoCalInProgress := false
        autoCalDone := true
        useCalibratedValues := true
        adc_cal_points := n } }
  else
    { s with
      autoCalDacTimer := timer
      autoCalDone1 := false
      objects := Function.update s.objects o c }

/-- The set value is to be committed: that has not been done and 500 ms have passed. -/
def CommitDue (s : State) (millis : ℕ) : Prop :=
  s.autoCalDone1 = false ∧ wrap32 (s.autoCalDacTimer + 500) < wrap32 millis

/-- The measured value is to be noted: 5000 ms have passed. -/
def RecordDue (s : State) (millis : ℕ) : Prop :=
  wrap32 (s.autoCalDacTimer + 5000) < wrap32 millis

instance (s : State) (millis : ℕ) : Decidable (CommitDue s millis) :=
  inferInstanceAs (Decidable (_ ∧ _))

instance (s : State) (millis : ℕ) : Decidable (RecordDue s millis) :=
  inferInstanceAs (Decidable (_ < _))

def autoCalADCfromDAC (s : State) (o : OperationType) (millis : ℕ) (mean : ℚ) : State :=
  if (s.objects o).autoCalInProgress = false then s
  else
    let s := if CommitDue s millis then commitPoint s o else s
    if RecordDue s millis then recordPoint s o mean (wrap32 millis) else s

/-- What can happen to the two objects.  `loop` steps the voltage object and then the current
object, but nothing below depends on that order. -/
inductive Event
  | startAutoCal (o : OperationType) (millis : ℕ)
  | autoCalADCfromDAC (o : OperationType) (millis : ℕ) (mean : ℚ)
  deriving DecidableEq

def step (s : State) : Event → State
  | .startAutoCal o millis => startAutoCal s o millis
  | .autoCalADCfromDAC o millis mean => autoCalADCfromDAC s o millis mean

/-- The state after power-up: the sweep of the voltage object, no run, and whatever tables were read
from the EEPROM. -/
def boot (millis : ℕ) (set_adc meas_adc : OperationType → ℕ → ℚ)
    (adc_cal_points : OperationType → ℕ) : State where
  autoCalDacTimer := wrap32 millis
  autoCalV := -10000
  autoCalDone1 := false
  autoCalArrayPointer := 0
  maxValueCal := 10000
  minValueCal := -10000
  stepValueCal := 1000
  objects := fun o =>
    { autoCalInProgress := false
      autoCalDone := false
      useCalibratedValues := true
      set_adc := set_adc o
      meas_adc := meas_adc o
      adc_cal_points := adc_cal_points o
      run := 0
      setRun := fun _ => 0 }
  runs := 0
  committed := none
  recorded := []
  completed := []

/-! ## Sweeps -/

/-- The values a run is meant to step through. -/
structure Sweep where
  minValue : ℚ
  maxValue : ℚ
  stepValue : ℚ
  /-- The number of values. -/
  count : ℕ

/-- From -10 V to 10 V in steps of 1 V, from -400 mA to 400 mA in steps of 25 mA. -/
def sweep : OperationType → Sweep
  | .SOURCE_VOLTAGE => ⟨-10000, 10000, 1000, 21⟩
  | .SOURCE_CURRENT => ⟨-400, 400, 25, 33⟩

/-- The value of the point with index `n`. -/
def Sweep.point (w : Sweep) (n : ℕ) : ℚ := w.minValue + w.stepValue * n

theorem Sweep.point_succ (w : Sweep) (n : ℕ) : w.point (n + 1) = w.point n + w.stepValue := by
  unfold Sweep.point
  push_cast
  ring

theorem Sweep.point_zero (w : Sweep) : w.point 0 = w.minValue := by
  simp [Sweep.point]

/-- A sweep is over when the next value would be beyond its end. -/
theorem sweep_over_iff (o : OperationType) (n : ℕ) :
    (sweep o).point n + (sweep o).stepValue > (sweep o).maxValue ↔ (sweep o).count ≤ n + 1 := by
  cases o with
  | SOURCE_VOLTAGE =>
      simp only [Sweep.point, sweep]
      constructor
      · intro h
        have hint : (-10000 + 1000 * n + 1000 : ℤ) > 10000 := by exact_mod_cast h
        omega
      · intro h
        have hint : (-10000 + 1000 * n + 1000 : ℤ) > 10000 := by omega
        exact_mod_cast hint
  | SOURCE_CURRENT =>
      simp only [Sweep.point, sweep]
      constructor
      · intro h
        have hint : (-400 + 25 * n + 25 : ℤ) > 400 := by exact_mod_cast h
        omega
      · intro h
        have hint : (-400 + 25 * n + 25 : ℤ) > 400 := by omega
        exact_mod_cast hint

/-- The globals hold the sweep that `o` is meant to step through. -/
def SweepIs (s : State) (o : OperationType) : Prop :=
  s.minValueCal = (sweep o).minValue ∧ s.maxValueCal = (sweep o).maxValue ∧
    s.stepValueCal = (sweep o).stepValue

instance (s : State) (o : OperationType) : Decidable (SweepIs s o) :=
  inferInstanceAs (Decidable (_ ∧ _ ∧ _))

/-- The object is in the middle of a run. -/
def InProgress (s : State) (o : OperationType) : Prop := (s.objects o).autoCalInProgress = true

instance (s : State) (o : OperationType) : Decidable (InProgress s o) :=
  inferInstanceAs (Decidable (_ = _))

theorem chooseSweep_voltage (s : State) : chooseSweep s .SOURCE_VOLTAGE = s := if_neg (by decide)

theorem chooseSweep_current (s : State) : SweepIs (chooseSweep s .SOURCE_CURRENT) .SOURCE_CURRENT := by
  rw [chooseSweep, if_pos rfl]
  exact ⟨rfl, rfl, rfl⟩

/-- Choosing the current sweep again changes nothing. -/
theorem chooseSweep_of_current {s : State} (h : SweepIs s .SOURCE_CURRENT) (o : OperationType) :
    chooseSweep s o = s := by
  obtain ⟨hmin, hmax, hstep⟩ := h
  cases o with
  | SOURCE_VOLTAGE => exact chooseSweep_voltage s
  | SOURCE_CURRENT =>
      simp only [sweep] at hmin hmax hstep
      rw [chooseSweep, if_pos rfl, ← hmin, ← hmax, ← hstep]

/-- With its sweep in the globals, a run goes past the end at its last point. -/
theorem over_iff {s : State} {o : OperationType} {n : ℕ} (hsweep : SweepIs s o)
    (hv : s.autoCalV = (sweep o).point n) :
    s.autoCalV + s.stepValueCal > s.maxValueCal ↔ (sweep o).count ≤ n + 1 := by
  obtain ⟨-, hmax, hstep⟩ := hsweep
  rw [hv, hmax, hstep]
  exact sweep_over_iff o n

/-! ## What a call does

Each way a call can go is described once, by the fields of the state after it. -/

/-- The next point would be beyond the end of the sweep. -/
def Over (s : State) : Prop := s.autoCalV + s.stepValueCal > s.maxValueCal

/-- `s'` follows from `s` by starting a run of `o`. -/
structure Started (s s' : State) (o : OperationType) : Prop where
  sweepIs : ∀ o', SweepIs s' o' ↔ SweepIs (chooseSweep s o) o'
  autoCalV : s'.autoCalV = (chooseSweep s o).minValueCal
  pointer : s'.autoCalArrayPointer = 0
  done1 : s'.autoCalDone1 = s.autoCalDone1
  own : InProgress s' o
  set_adc : (s'.objects o).set_adc = (s.objects o).set_adc
  others : ∀ o', o' ≠ o → s'.objects o' = s.objects o'
  recorded : s'.recorded = s.recorded
  completed : s'.completed = s.completed

/-- `s'` follows from `s` by committing the set value of a point of `o`. -/
structure CommittedPoint (s s' : State) (o : OperationType) : Prop where
  sweepIs : ∀ o', SweepIs s' o' ↔ SweepIs s o'
  autoCalV : s'.autoCalV = s.autoCalV
  pointer : s'.autoCalArrayPointer = s.autoCalArrayPointer
  timer : s'.autoCalDacTimer = s.autoCalDacTimer
  done1 : s'.autoCalDone1 = true
  inProgress : ∀ o', InProgress s' o' ↔ InProgress s o'
  run : (s'.objects o).run = (s.objects o).run
  set_adc : (s'.objects o).set_adc =
    Function.update (s.objects o).set_adc s.autoCalArrayPointer s.autoCalV
  setRun : (s'.objects o).setRun s.autoCalArrayPointer = (s.objects o).run
  committed : s'.committed = some ⟨o, (s.objects o).run, truncate (s.autoCalV * 1000)⟩
  recorded : s'.recorded = s.recorded
  completed : s'.completed = s.completed

/-- The entry that noting a measured value makes in the history. -/
def newRecord (s : State) (o : OperationType) (mean : ℚ) : Recorded :=
  ⟨o, (s.objects o).run, (s.objects o).set_adc s.autoCalArrayPointer,
    (s.objects o).setRun s.autoCalArrayPointer, mean, s.committed⟩

/-- The entry that completing a run makes in the history. -/
def newCompleted (s : State) (o : OperationType) : Completed :=
  ⟨o, (List.range (s.autoCalArrayPointer + 1)).map (s.objects o).set_adc, s.autoCalArrayPointer + 1⟩

/-- `s'` follows from `s` by noting the measured value of a point of `o`. -/
structure RecordedPoint (s s' : State) (o : OperationType) (mean : ℚ) : Prop where
  sweepIs : ∀ o', SweepIs s' o' ↔ SweepIs s o'
  autoCalV : s'.autoCalV = s.autoCalV + s.stepValueCal
  pointer : s'.autoCalArrayPointer = s.autoCalArrayPointer + 1
  inProgress : ∀ o', InProgress s' o' ↔ InProgress s o' ∧ ¬ (o' = o ∧ Over s)
  set_adc : (s'.objects o).set_adc = (s.objects o).set_adc
  done1 : ¬ Over s → s'.autoCalDone1 = false
  recorded : s'.recorded = s.recorded ++ [newRecord s o mean]
  next : ¬ Over s → s'.completed = s.completed
  last : Over s → s'.completed = s.completed ++ [newCompleted s o]

section Effects

variable (s : State) (o : OperationType) (millis : ℕ) (mean : ℚ)

/-- A call during a run of the same object only chooses the sweep. -/
theorem startAutoCal_of_inProgress (h : InProgress s o) :
    startAutoCal s o millis = chooseSweep s o := by
  have hobjects : (chooseSweep s o).objects = s.objects := by
    unfold chooseSweep
    split_ifs <;> rfl
  have hbusy : (s.objects o).autoCalInProgress = true := h
  simp [startAutoCal, hobjects, hbusy]

theorem beginRun_started (timer : ℤ) : Started s (beginRun (chooseSweep s o) o timer) o := by
  have hsame : (chooseSweep s o).objects = s.objects ∧
      (chooseSweep s o).autoCalDone1 = s.autoCalDone1 ∧
      (chooseSweep s o).recorded = s.recorded ∧ (chooseSweep s o).completed = s.completed := by
    unfold chooseSweep
    split_ifs <;> exact ⟨rfl, rfl, rfl, rfl⟩
  obtain ⟨hobjects, hdone, hrecorded, hcompleted⟩ := hsame
  generalize hb : chooseSweep s o = b at *
  exact
    { sweepIs := fun _ => by rw [hb]; exact Iff.rfl
      autoCalV := by rw [hb]; rfl
      pointer := rfl
      done1 := hdone
      own := by simp [InProgress, beginRun]
      set_adc := by simp [beginRun, hobjects]
      others := fun o' ho => by simp [beginRun, ho, hobjects]
      recorded := hrecorded
      completed := hcompleted }

theorem startAutoCal_of_idle (h : ¬ InProgress s o) : Started s (startAutoCal s o millis) o := by
  have hobjects : (chooseSweep s o).objects = s.objects := by
    unfold chooseSweep
    split_ifs <;> rfl
  have hidle : (!((chooseSweep s o).objects o).autoCalInProgress) = true := by
    rw [hobjects]
    simpa [InProgress] using h
  rw [startAutoCal, if_pos hidle]
  exact beginRun_started s o _

theorem commitPoint_committed : CommittedPoint s (commitPoint s o) o where
  sweepIs _ := Iff.rfl
  autoCalV := rfl
  pointer := rfl
  timer := rfl
  done1 := rfl
  inProgress o' := by
    by_cases ho : o' = o
    · subst ho
      simp [InProgress, commitPoint]
    · simp [InProgress, commitPoint, ho]
  run := by simp [commitPoint]
  set_adc := by simp [commitPoint]
  setRun := by simp [commitPoint]
  committed := rfl
  recorded := rfl
  completed := rfl

theorem recordPoint_recorded (timer : ℤ) :
    RecordedPoint s (recordPoint s o mean timer) o mean := by
  by_cases hover : s.autoCalV + s.stepValueCal > s.maxValueCal
  · exact
      { sweepIs := fun _ => by simp [recordPoint, hover, SweepIs]
        autoCalV := by simp [recordPoint, hover]
        pointer := by simp [recordPoint, hover]
        inProgress := fun o' => by
          by_cases ho : o' = o
          · subst ho
            simp [recordPoint, hover, InProgress, Over]
          · simp [recordPoint, hover, InProgress, ho]
        set_adc := by simp [recordPoint, hover]
        done1 := fun h => absurd hover h
        recorded := by simp [recordPoint, hover, newRecord]
        next := fun h => absurd hover h
        last := fun _ => by simp [recordPoint, hover, newCompleted] }
  · exact
      { sweepIs := fun _ => by simp [recordPoint, hover, SweepIs]
        autoCalV := by simp [recordPoint, hover]
        pointer := by simp [recordPoint, hover]
        inProgress := fun o' => by
          by_cases ho : o' = o
          · subst ho
            simp [recordPoint, hover, InProgress, Over]
          · simp [recordPoint, hover, InProgress, ho]
        set_adc := by simp [recordPoint, hover]
        done1 := fun _ => by simp [recordPoint, hover]
        recorded := by simp [recordPoint, hover, newRecord]
        next := fun _ => by simp [recordPoint, hover]
        last := fun h => absurd h hover }

/-- A step of an object without a run does nothing. -/
theorem autoCalADCfromDAC_of_idle (h : ¬ InProgress s o) :
    autoCalADCfromDAC s o millis mean = s :=
  if_pos (by simpa [InProgress] using h)

/-- A step of an object with a run: commit if that is due, then note if that is due. -/
theorem autoCalADCfromDAC_of_inProgress (h : InProgress s o) :
    ∃ s₁, (CommitDue s millis ∧ CommittedPoint s s₁ o ∨ ¬ CommitDue s millis ∧ s₁ = s) ∧
      (RecordDue s millis ∧ RecordedPoint s₁ (autoCalADCfromDAC s o millis mean) o mean ∨
        ¬ RecordDue s millis ∧ autoCalADCfromDAC s o millis mean = s₁) := by
  have hbusy : ¬ (s.objects o).autoCalInProgress = false := by simpa [InProgress] using h
  rw [autoCalADCfromDAC, if_neg hbusy]
  by_cases hcommit : CommitDue s millis
  · -- committing does not touch the timer
    have hsame : RecordDue (commitPoint s o) millis ↔ RecordDue s millis := Iff.rfl
    refine ⟨commitPoint s o, Or.inl ⟨hcommit, commitPoint_committed s o⟩, ?_⟩
    simp only [if_pos hcommit, hsame]
    by_cases hrecord : RecordDue s millis
    · rw [if_pos hrecord]
      exact Or.inl ⟨hrecord, recordPoint_recorded _ o mean _⟩
    · rw [if_neg hrecord]
      exact Or.inr ⟨hrecord, rfl⟩
  · refine ⟨s, Or.inr ⟨hcommit, rfl⟩, ?_⟩
    simp only [if_neg hcommit]
    by_cases hrecord : RecordDue s millis
    · rw [if_pos hrecord]
      exact Or.inl ⟨hrecord, recordPoint_recorded _ o mean _⟩
    · rw [if_neg hrecord]
      exact Or.inr ⟨hrecord, rfl⟩

variable {s o millis mean}

/-- The invariant rule for a step of an object: what the point that is committed establishes is
enough for the point that is noted. -/
theorem autoCalADCfromDAC_keeps {I J : State → Prop} (hs : I s) (hI : ∀ s₁, J s₁ → I s₁)
    (hcommit : InProgress s o → ∀ s₁, CommittedPoint s s₁ o → J s₁)
    (hstay : InProgress s o → ¬ CommitDue s millis → J s)
    (hrecord : RecordDue s millis → ∀ s₁ s', J s₁ → RecordedPoint s₁ s' o mean → I s') :
    I (autoCalADCfromDAC s o millis mean) := by
  by_cases ho : InProgress s o
  · obtain ⟨s₁, hcommitted, hrecorded⟩ := autoCalADCfromDAC_of_inProgress s o millis mean ho
    have hs₁ : J s₁ := by
      rcases hcommitted with ⟨-, hcommitted⟩ | ⟨hnot, rfl⟩
      · exact hcommit ho s₁ hcommitted
      · exact hstay ho hnot
    rcases hrecorded with ⟨hdue, hrecorded⟩ | ⟨-, heq⟩
    · exact hrecord hdue s₁ _ hs₁ hrecorded
    · rw [heq]
      exact hI s₁ hs₁
  · rw [autoCalADCfromDAC_of_idle s o millis mean ho]
    exact hs

end Effects

/-! ## How many points a run completes with -/

/-- Until the current object is started for the first time the voltage object sweeps alone, with its
own sweep.  From then on the globals hold the current sweep, and the pointer counts its points; a
34th point is only reached by a run that outlives another one. -/
structure CountInv (s : State) : Prop where
  counts : ∀ c ∈ s.completed, AutoCalCount c.object c.adc_cal_points
  phase :
    (SweepIs s .SOURCE_VOLTAGE ∧ ∀ o, InProgress s o → o = .SOURCE_VOLTAGE ∧
        s.autoCalV = (sweep .SOURCE_VOLTAGE).point s.autoCalArrayPointer ∧
        s.autoCalArrayPointer ≤ 20) ∨
      (SweepIs s .SOURCE_CURRENT ∧ ∀ o, InProgress s o →
        s.autoCalV = (sweep .SOURCE_CURRENT).point s.autoCalArrayPointer ∧
        s.autoCalArrayPointer ≤ 33 ∧
        (s.autoCalArrayPointer = 33 → ∀ o', InProgress s o' → o' = o))

theorem boot_countInv (millis : ℕ) (set_adc meas_adc : OperationType → ℕ → ℚ)
    (points : OperationType → ℕ) : CountInv (boot millis set_adc meas_adc points) where
  counts := by simp [boot]
  phase := Or.inl ⟨⟨rfl, rfl, rfl⟩, fun _ h => absurd h Bool.false_ne_true⟩

theorem Started.countInv {s s' : State} {o : OperationType} (h : Started s s' o)
    (hs : CountInv s) : CountInv s' := by
  refine ⟨by rw [h.completed]; exact hs.counts, ?_⟩
  simp only [h.sweepIs, h.autoCalV, h.pointer, Sweep.point_zero]
  cases o with
  | SOURCE_VOLTAGE =>
      rw [chooseSweep_voltage]
      -- a start of the voltage object keeps whichever sweep is in the globals
      rcases hs.phase with ⟨hsweep, hpoint⟩ | ⟨hsweep, -⟩
      · refine Or.inl ⟨hsweep, fun o ho => ⟨?_, hsweep.1, Nat.zero_le _⟩⟩
        cases o with
        | SOURCE_VOLTAGE => rfl
        | SOURCE_CURRENT =>
            have hsame := h.others .SOURCE_CURRENT (by decide)
            exact (hpoint _ (by rwa [InProgress, hsame] at ho)).1
      · exact Or.inr ⟨hsweep, fun o _ => ⟨hsweep.1, Nat.zero_le _, fun h => absurd h (by decide)⟩⟩
  | SOURCE_CURRENT =>
      have hsweep := chooseSweep_current s
      exact Or.inr ⟨hsweep, fun o _ => ⟨hsweep.1, Nat.zero_le _, fun h => absurd h (by decide)⟩⟩

theorem CommittedPoint.countInv {s s' : State} {o : OperationType} (h : CommittedPoint s s' o)
    (hs : CountInv s) : CountInv s' := by
  refine ⟨by rw [h.completed]; exact hs.counts, ?_⟩
  simp only [h.sweepIs, h.inProgress, h.autoCalV, h.pointer]
  exact hs.phase

/-- A point adds a run to those that are complete when it is the last one. -/
theorem RecordedPoint.forall_completed {s s' : State} {o : OperationType} {mean : ℚ}
    (h : RecordedPoint s s' o mean) {P : Completed → Prop} (hs : ∀ c ∈ s.completed, P c)
    (hnew : Over s → P (newCompleted s o)) : ∀ c ∈ s'.completed, P c := by
  intro c hc
  by_cases hlast : Over s
  · rw [h.last hlast] at hc
    rcases List.mem_append.1 hc with hc | hc
    · exact hs c hc
    · rw [List.mem_singleton.1 hc]
      exact hnew hlast
  · rw [h.next hlast] at hc
    exact hs c hc

theorem RecordedPoint.countInv {s s' : State} {o : OperationType} {mean : ℚ}
    (h : RecordedPoint s s' o mean) (hs : CountInv s) (ho : InProgress s o) : CountInv s' := by
  rcases hs.phase with ⟨hsweep, hpoint⟩ | ⟨hsweep, hpoint⟩
  · -- the voltage object is alone, and completes with its 21st point
    obtain ⟨rfl, hv, hle⟩ := hpoint o ho
    have hover : Over s ↔ 21 ≤ s.autoCalArrayPointer + 1 := over_iff hsweep hv
    refine ⟨h.forall_completed hs.counts fun hlast => Or.inl ?_,
      Or.inl ⟨(h.sweepIs _).2 hsweep, ?_⟩⟩
    · have hcount := hover.1 hlast
      show s.autoCalArrayPointer + 1 = 21
      omega
    · intro o' ho'
      obtain ⟨hold, hnot⟩ := (h.inProgress o').1 ho'
      obtain ⟨rfl, -⟩ := hpoint o' hold
      have hcount : ¬ 21 ≤ s.autoCalArrayPointer + 1 := fun hge => hnot ⟨rfl, hover.2 hge⟩
      rw [h.autoCalV, h.pointer, Sweep.point_succ, hv, hsweep.2.2]
      exact ⟨rfl, rfl, by omega⟩
  · -- the 33rd point completes a run, the 34th a run that was left over by another one
    obtain ⟨hv, hle, halone⟩ := hpoint o ho
    have hover : Over s ↔ 33 ≤ s.autoCalArrayPointer + 1 := over_iff hsweep hv
    refine ⟨h.forall_completed hs.counts fun hlast => ?_,
      Or.inr ⟨(h.sweepIs _).2 hsweep, ?_⟩⟩
    · have hcount := hover.1 hlast
      have hcase : s.autoCalArrayPointer + 1 = 33 ∨ s.autoCalArrayPointer + 1 = 34 := by omega
      cases o with
      | SOURCE_VOLTAGE => exact Or.inr hcase
      | SOURCE_CURRENT => exact hcase
    · intro o' ho'
      obtain ⟨hold, hnot⟩ := (h.inProgress o').1 ho'
      rw [h.autoCalV, h.pointer, Sweep.point_succ, hv, hsweep.2.2]
      refine ⟨rfl, ?_, ?_⟩
      · by_contra hgt
        have hpointer : s.autoCalArrayPointer = 33 := by omega
        exact hnot ⟨halone hpointer o' hold, hover.2 (by omega)⟩
      · -- at the 33rd point the object `o` has just completed, so only the other one is left
        intro hpointer o'' ho''
        obtain ⟨-, hnot''⟩ := (h.inProgress o'').1 ho''
        have hne : o' ≠ o := fun heq => hnot ⟨heq, hover.2 (by omega)⟩
        have hne'' : o'' ≠ o := fun heq => hnot'' ⟨heq, hover.2 (by omega)⟩
        cases o <;> cases o' <;> cases o'' <;> simp at hne hne'' ⊢

theorem step_countInv (s : State) (e : Event) (hs : CountInv s) : CountInv (step s e) := by
  cases e with
  | startAutoCal o millis =>
      by_cases ho : InProgress s o
      · rw [step, startAutoCal_of_inProgress s o millis ho]
        rcases hs.phase with ⟨-, hpoint⟩ | ⟨hsweep, -⟩
        · obtain ⟨rfl, -⟩ := hpoint o ho
          rw [chooseSweep_voltage]
          exact hs
        · rw [chooseSweep_of_current hsweep]
          exact hs
      · exact (startAutoCal_of_idle s o millis ho).countInv hs
  | autoCalADCfromDAC o millis mean =>
      apply autoCalADCfromDAC_keeps (J := fun s₁ => CountInv s₁ ∧ InProgress s₁ o) hs
        (fun _ h => h.1)
      · intro ho s₁ hcommit
        exact ⟨hcommit.countInv hs, (hcommit.inProgress o).2 ho⟩
      · exact fun ho _ => ⟨hs, ho⟩
      · intro _ s₁ s' h hrecord
        exact hrecord.countInv h.1 h.2

/-- In every interleaving, a run that completes does so with one of the numbers of points that the
address map has to leave room for. -/
theorem completed_counts (millis : ℕ) (set_adc meas_adc : OperationType → ℕ → ℚ)
    (points : OperationType → ℕ) (es : List Event) :
    ∀ c ∈ (exec step (boot millis set_adc meas_adc points) es).completed,
      AutoCalCount c.object c.adc_cal_points :=
  (always_of_step step_countInv (boot_countInv millis set_adc meas_adc points) es).exec.counts

end AutoCal
end PoorMansSmu
