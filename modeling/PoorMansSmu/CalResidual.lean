import PoorMansSmu.AutoCalRuns
import PoorMansSmu.Compensation

/-!
# CalResidual — the error that an automatic calibration leaves

A run notes, for each value of its sweep, what the measurement shows once the output has settled, and
from then on `adc_nonlinear_compensation` corrects the readings by what was noted.  The correction is
looked up by the reading and not by the value behind it, so some error stays.

- `Settled`              : the readings come from a measurement that shows `p x` for a value `x`;
- `Noting`               : what is noted during a run, and once it has completed;
- `residual_le`          : the error left when the error of the measurement changes slowly;
- `residual_of_straight` : the error left when it is one of gain and offset.
-/

namespace PoorMansSmu
namespace CalResidual

open AutoCal Compensation Interpolation Run EepromMap

/-! ## Runs with settled readings -/

/-- A run of `o` can be started, with its own sweep. -/
structure Ready (s : State) (o : OperationType) : Prop where
  idle : Idle s
  done1 : s.autoCalDone1 = false
  sweepIs : o = .SOURCE_VOLTAGE → SweepIs s o

/-- The other object is not started during the run, and a reading is noted when its value has been
committed before, and settled. -/
def Settled (p : ℚ → ℚ) (o : OperationType) (s : State) : Event → Prop
  | .startAutoCal o' _ => o' = o ∧ InProgress s o
  | .autoCalADCfromDAC o' millis mean =>
      o' = o → InProgress s o → RecordDue s millis →
        s.autoCalDone1 = true ∧
          s.committed.map (fun c => p (c.value_micro / 1000)) = some mean

instance (p : ℚ → ℚ) (o : OperationType) (s : State) : ∀ e, Decidable (Settled p o s e)
  | .startAutoCal _ _ => inferInstanceAs (Decidable (_ ∧ _))
  | .autoCalADCfromDAC _ _ _ => inferInstanceAs (Decidable (_ → _ → _ → _ ∧ _))

/-- The first `n` points are noted. -/
def Noted (p : ℚ → ℚ) (o : OperationType) (c : CalibrationObject) (n : ℕ) : Prop :=
  ∀ i < n, c.set_adc i = (sweep o).point i ∧ c.meas_adc i = p ((sweep o).point i)

/-- The points before the pointer are noted, and the one at the pointer is committed once the flag is
set; a run that has completed leaves the whole table. -/
structure Noting (p : ℚ → ℚ) (o : OperationType) (s : State) : Prop where
  sweepIs : SweepIs s o
  alone : ∀ o', InProgress s o' → o' = o
  value : InProgress s o → s.autoCalV = (sweep o).point s.autoCalArrayPointer
  pointer : InProgress s o → s.autoCalArrayPointer < (sweep o).count
  noted : InProgress s o → Noted p o (s.objects o) s.autoCalArrayPointer
  current : InProgress s o → s.autoCalDone1 = true →
    (s.objects o).set_adc s.autoCalArrayPointer = (sweep o).point s.autoCalArrayPointer ∧
      s.committed.map Commit.value_micro =
        some (truncate ((sweep o).point s.autoCalArrayPointer * 1000))
  table : ¬ InProgress s o →
    (s.objects o).useCalibratedValues = true ∧ (s.objects o).adc_cal_points = (sweep o).count ∧
      Noted p o (s.objects o) (sweep o).count

/-- The values of a sweep are whole numbers. -/
theorem truncate_point (o : OperationType) (n : ℕ) :
    (truncate ((sweep o).point n * 1000) : ℚ) / 1000 = (sweep o).point n := by
  have hwhole : ∃ k : ℤ, (sweep o).point n = k := by
    cases o with
    | SOURCE_VOLTAGE => exact ⟨-10000 + 1000 * n, by simp [sweep, Sweep.point]⟩
    | SOURCE_CURRENT => exact ⟨-400 + 25 * n, by simp [sweep, Sweep.point]⟩
  obtain ⟨k, hk⟩ := hwhole
  have hcast : (k : ℚ) * 1000 = ((k * 1000 : ℤ) : ℚ) := by push_cast; ring
  have htruncate : truncate ((k * 1000 : ℤ) : ℚ) = k * 1000 := by
    rw [truncate, Int.floor_intCast, Int.ceil_intCast, ite_self]
  rw [hk, hcast, htruncate]
  push_cast
  ring

theorem count_pos (o : OperationType) : 0 < (sweep o).count := by
  cases o <;> decide

section Steps

variable {p : ℚ → ℚ} {o : OperationType} {s : State}

theorem Ready.noting (h : Ready s o) (millis : ℕ) : Noting p o (startAutoCal s o millis) := by
  have hstarted := startAutoCal_of_idle s o millis (h.idle o)
  have hsweep : SweepIs (chooseSweep s o) o := by
    cases o with
    | SOURCE_VOLTAGE => exact (chooseSweep_voltage s).symm ▸ h.sweepIs rfl
    | SOURCE_CURRENT => exact chooseSweep_current s
  constructor
  case sweepIs => exact (hstarted.sweepIs o).2 hsweep
  case alone => exact fun o' ho' => hstarted.eq_of_idle h.idle ho'
  case value =>
    intro _
    rw [hstarted.autoCalV, hstarted.pointer, Sweep.point_zero]
    exact hsweep.1
  case pointer =>
    intro _
    rw [hstarted.pointer]
    exact count_pos o
  case noted =>
    intro _ i hi
    rw [hstarted.pointer] at hi
    exact absurd hi (Nat.not_lt_zero i)
  case current =>
    intro _ hdone
    rw [hstarted.done1, h.done1] at hdone
    cases hdone
  case table => exact fun hidle => absurd hstarted.own hidle

variable (h : Noting p o s)

include h

theorem Noting.commit (ho : InProgress s o) : Noting p o (commitPoint s o) := by
  have hcommit := commitPoint_committed s o
  have hmeas : ((commitPoint s o).objects o).meas_adc = (s.objects o).meas_adc := by
    simp [commitPoint]
  constructor
  case sweepIs => exact (hcommit.sweepIs o).2 h.sweepIs
  case alone => exact fun o' ho' => h.alone o' ((hcommit.inProgress o').1 ho')
  case value =>
    intro _
    rw [hcommit.autoCalV, hcommit.pointer]
    exact h.value ho
  case pointer =>
    intro _
    rw [hcommit.pointer]
    exact h.pointer ho
  case noted =>
    intro _ i hi
    rw [hcommit.pointer] at hi
    rw [hcommit.set_adc, hmeas, Function.update_of_ne hi.ne]
    exact h.noted ho i hi
  case current =>
    intro _ _
    rw [hcommit.pointer, hcommit.set_adc, hcommit.committed, Function.update_self, h.value ho]
    exact ⟨rfl, rfl⟩
  case table => exact fun hidle => absurd ((hcommit.inProgress o).2 ho) hidle

/-- One more point is noted. -/
theorem Noting.noted_succ (ho : InProgress s o) (hdone : s.autoCalDone1 = true) {mean : ℚ}
    (hmean : s.committed.map (fun c => p (c.value_micro / 1000)) = some mean) :
    Noted p o { s.objects o with
      meas_adc := Function.update (s.objects o).meas_adc s.autoCalArrayPointer mean }
      (s.autoCalArrayPointer + 1) := by
  obtain ⟨hset, hcommitted⟩ := h.current ho hdone
  obtain ⟨c, hc, hvalue⟩ := Option.map_eq_some_iff.1 hcommitted
  rw [hc, Option.map_some, hvalue, truncate_point] at hmean
  intro i hi
  dsimp only
  rcases Nat.lt_succ_iff_lt_or_eq.1 hi with hlt | rfl
  · rw [Function.update_of_ne hlt.ne]
    exact h.noted ho i hlt
  · rw [Function.update_self]
    exact ⟨hset, (Option.some.inj hmean).symm⟩

theorem Noting.record (ho : InProgress s o) (hdone : s.autoCalDone1 = true) {mean : ℚ}
    (hmean : s.committed.map (fun c => p (c.value_micro / 1000)) = some mean) (timer : ℤ) :
    Noting p o (recordPoint s o mean timer) := by
  have hrecord := recordPoint_recorded s o mean timer
  have hnoted := h.noted_succ ho hdone hmean
  have hover : Over s ↔ (sweep o).count ≤ s.autoCalArrayPointer + 1 :=
    over_iff h.sweepIs (h.value ho)
  have hpointer := h.pointer ho
  have hgoes : InProgress (recordPoint s o mean timer) o → ¬ Over s := fun ho' hlast =>
    ((hrecord.inProgress o).1 ho').2 ⟨rfl, hlast⟩
  constructor
  case sweepIs => exact (hrecord.sweepIs o).2 h.sweepIs
  case alone => exact fun o' ho' => h.alone o' ((hrecord.inProgress o').1 ho').1
  case value =>
    intro _
    rw [hrecord.autoCalV, hrecord.pointer, Sweep.point_succ, h.value ho, h.sweepIs.2.2]
  case pointer =>
    intro ho'
    have hnot := mt hover.2 (hgoes ho')
    rw [hrecord.pointer]
    omega
  case noted =>
    intro ho'
    have hnot : ¬ s.autoCalV + s.stepValueCal > s.maxValueCal := hgoes ho'
    rw [hrecord.pointer]
    simp only [recordPoint, if_neg hnot, Function.update_self]
    exact hnoted
  case current =>
    intro ho' hdone'
    rw [hrecord.done1 (hgoes ho')] at hdone'
    cases hdone'
  case table =>
    intro hidle
    have hlast : s.autoCalV + s.stepValueCal > s.maxValueCal := by
      by_contra hnot
      exact hidle ((hrecord.inProgress o).2 ⟨ho, fun h => hnot h.2⟩)
    have hcount : s.autoCalArrayPointer + 1 = (sweep o).count := by
      have hle := hover.1 hlast
      omega
    rw [← hcount]
    simp only [recordPoint, if_pos hlast, Function.update_self]
    exact ⟨trivial, trivial, hnoted⟩

theorem Noting.step {e : Event} (hok : Settled p o s e) : Noting p o (AutoCal.step s e) := by
  cases e with
  | startAutoCal o' millis =>
      obtain ⟨rfl, ho⟩ := hok
      rw [AutoCal.step, startAutoCal_of_inProgress s o' millis ho]
      cases o' with
      | SOURCE_VOLTAGE => exact (chooseSweep_voltage s).symm ▸ h
      | SOURCE_CURRENT => exact (chooseSweep_of_current h.sweepIs .SOURCE_CURRENT).symm ▸ h
  | autoCalADCfromDAC o' millis mean =>
      rw [AutoCal.step]
      by_cases ho' : InProgress s o'
      · obtain rfl := h.alone o' ho'
        have hbusy : ¬ (s.objects o').autoCalInProgress = false := by simpa [InProgress] using ho'
        rw [autoCalADCfromDAC, if_neg hbusy]
        -- a call does not commit a value and note its reading at once
        by_cases hcommit : CommitDue s millis
        · have hnot : ¬ RecordDue (commitPoint s o') millis := by
            intro hdue
            have hdone := (hok rfl ho' hdue).1
            rw [hcommit.1] at hdone
            cases hdone
          simp only [if_pos hcommit, if_neg hnot]
          exact h.commit ho'
        · simp only [if_neg hcommit]
          split_ifs with hdue
          · obtain ⟨hdone, hmean⟩ := hok rfl ho' hdue
            exact h.record ho' hdone hmean _
          · exact h
      · rw [autoCalADCfromDAC_of_idle s o' millis mean ho']
        exact h

end Steps

theorem noting_run {p : ℚ → ℚ} {o : OperationType} {s : State} (hready : Ready s o) {millis : ℕ}
    {es : List Event} (hsettled : Guarded step (Settled p o) (startAutoCal s o millis) es) :
    Noting p o (exec step (startAutoCal s o millis) es) :=
  (always_of_guarded (fun _ _ h hok => h.step hok) (hready.noting millis) hsettled).exec

/-! ## What the compensation makes of a reading -/

section Tables

variable {p : ℚ → ℚ} {o : OperationType} {c : CalibrationObject}
  (hon : c.useCalibratedValues = true) (hpoints : c.adc_cal_points = (sweep o).count)
  (hnoted : Noted p o c (sweep o).count)

theorem step_pos (o : OperationType) : 0 < (sweep o).stepValue := by
  cases o <;> norm_num [sweep]

/-- The last value of a sweep is its end. -/
theorem point_last (o : OperationType) :
    (sweep o).point ((sweep o).count - 1) = (sweep o).maxValue := by
  cases o <;> norm_num [sweep, Sweep.point]

include hon hpoints hnoted

/-- A reading within the sweep is corrected by a value between the errors noted beside it. -/
theorem compensated_of_noted {r : ℚ} (hlow : (sweep o).minValue < r)
    (hhigh : r ≤ (sweep o).maxValue) :
    ∃ x, x < r ∧ r ≤ x + (sweep o).stepValue ∧ compensated c r =
      r + between x (x - p x) (x + (sweep o).stepValue)
        (x + (sweep o).stepValue - p (x + (sweep o).stepValue)) r := by
  have hcount := count_pos o
  have hsets {i : ℕ} (hi : i < (sweep o).count) := hnoted i hi
  have hascending : Ascending c.set_adc c.adc_cal_points := by
    intro i hi
    rw [hpoints] at hi
    rw [(hsets (by omega)).1, (hsets (by omega)).1, Sweep.point_succ]
    exact lt_add_of_pos_right _ (step_pos o)
  have hfirst : c.set_adc 0 < r := by
    rw [(hsets hcount).1, Sweep.point_zero]
    exact hlow
  have hlast : r ≤ c.set_adc ((sweep o).count - 1) := by
    rw [(hsets (by omega)).1, point_last]
    exact hhigh
  obtain ⟨j, hj, hbrackets⟩ := exists_brackets hfirst hlast
  have hcompensated := compensated_eq hon hascending (by omega) hbrackets
  rw [correction, adjFactor, adjFactor, (hsets (by omega)).1, (hsets (by omega)).2,
    (hsets (by omega)).1, (hsets (by omega)).2, Sweep.point_succ] at hcompensated
  rw [Brackets, (hsets (by omega)).1, (hsets (by omega)).1, Sweep.point_succ] at hbrackets
  exact ⟨(sweep o).point j, hbrackets.1, hbrackets.2, hcompensated⟩

end Tables

section Residual

variable {p : ℚ → ℚ} {o : OperationType} {s : State} {millis : ℕ} {es : List Event}

/-- After a run, a reading in the sweep is off from the value behind it by `L` times what it was off
before and half a step, when the error of the measurement changes by `L` at most for each unit. -/
theorem residual_le {L : ℚ} (hready : Ready s o)
    (hsettled : Guarded step (Settled p o) (startAutoCal s o millis) es)
    (herror : ∀ x y, |(x - p x) - (y - p y)| ≤ L * |x - y|) :
    let s' := exec step (startAutoCal s o millis) es
    ¬ InProgress s' o → ∀ v, (sweep o).minValue < p v → p v ≤ (sweep o).maxValue →
      |compensated (s'.objects o) (p v) - v| ≤ L * (|p v - v| + (sweep o).stepValue / 2) := by
  intro s' hidle v hlow hhigh
  obtain ⟨hon, hpoints, hnoted⟩ := (noting_run hready hsettled).table hidle
  obtain ⟨x, hx, hx', hcompensated⟩ := compensated_of_noted hon hpoints hnoted hlow hhigh
  have hchord := abs_sub_chord_le (f := fun x => x - p x) herror hx hx' v
  have herr : compensated (s'.objects o) (p v) - v =
      -((v - p v) - between x (x - p x) (x + (sweep o).stepValue)
        (x + (sweep o).stepValue - p (x + (sweep o).stepValue)) (p v)) := by
    rw [hcompensated]
    ring
  rw [herr, abs_neg, abs_sub_comm (p v) v]
  rwa [add_sub_cancel_left] at hchord

/-- A measurement that shows one percent and 5 mV too much. -/
def onePercentHigh (x : ℚ) : ℚ := x + (1 / 100 * x + 5)

/-- The calls of a run of `o` that come in time for its points. -/
def calls (p : ℚ → ℚ) (o : OperationType) (start : ℕ) : List Event :=
  (List.range (sweep o).count).flatMap fun n =>
    [.autoCalADCfromDAC o (start + 5001 * n + 501) 0,
      .autoCalADCfromDAC o (start + 5001 * (n + 1)) (p ((sweep o).point n))]

theorem settled_calls :
    Guarded step (Settled onePercentHigh .SOURCE_VOLTAGE) (startAutoCal blank .SOURCE_VOLTAGE 10)
      (calls onePercentHigh .SOURCE_VOLTAGE 10) := by
  decide +kernel

theorem idle_calls :
    ¬ InProgress (exec step (startAutoCal blank .SOURCE_VOLTAGE 10)
      (calls onePercentHigh .SOURCE_VOLTAGE 10)) .SOURCE_VOLTAGE := by
  decide +kernel

theorem ready_blank : Ready blank .SOURCE_VOLTAGE :=
  ⟨by decide +kernel, rfl, fun _ => ⟨rfl, rfl, rfl⟩⟩

/-- At 500 mV it is 10 mV off without the table. -/
theorem residual_le_onePercentHigh :
    let s' := exec step (startAutoCal blank .SOURCE_VOLTAGE 10)
      (calls onePercentHigh .SOURCE_VOLTAGE 10)
    |compensated (s'.objects .SOURCE_VOLTAGE) (onePercentHigh 500) - 500| ≤
      1 / 100 * (|onePercentHigh 500 - 500| + 1000 / 2) := by
  have herror (x y : ℚ) :
      |(x - onePercentHigh x) - (y - onePercentHigh y)| ≤ 1 / 100 * |x - y| := by
    have hdiff : (x - onePercentHigh x) - (y - onePercentHigh y) = -(1 / 100 * (x - y)) := by
      unfold onePercentHigh
      ring
    rw [hdiff, abs_neg, abs_mul, abs_of_pos (by norm_num : (0 : ℚ) < 1 / 100)]
  exact residual_le ready_blank settled_calls herror idle_calls 500 (by decide +kernel)
    (by decide +kernel)

/-- Gain and offset errors of the measurement are squared by a run: what is left of an error is its
product with the gain error. -/
theorem residual_of_straight {g b : ℚ} (hready : Ready s o)
    (hsettled : Guarded step (Settled p o) (startAutoCal s o millis) es)
    (hstraight : ∀ x, p x = x + (g * x + b)) :
    let s' := exec step (startAutoCal s o millis) es
    ¬ InProgress s' o → ∀ v, (sweep o).minValue < p v → p v ≤ (sweep o).maxValue →
      compensated (s'.objects o) (p v) - v = -g * (p v - v) := by
  intro s' hidle v hlow hhigh
  obtain ⟨hon, hpoints, hnoted⟩ := (noting_run hready hsettled).table hidle
  obtain ⟨x, hx, hx', hcompensated⟩ := compensated_of_noted hon hpoints hnoted hlow hhigh
  have hne : x ≠ x + (sweep o).stepValue := (lt_add_of_pos_right x (step_pos o)).ne
  have hline : between x (x - p x) (x + (sweep o).stepValue)
      (x + (sweep o).stepValue - p (x + (sweep o).stepValue)) (p v) = -(g * p v + b) := by
    rw [between_eq_iff hne, hstraight x, hstraight (x + (sweep o).stepValue)]
    ring
  rw [hcompensated, hline, hstraight v]
  ring

/-- Of the 10 mV a tenth of a millivolt is left. -/
theorem residual_of_straight_onePercentHigh :
    let s' := exec step (startAutoCal blank .SOURCE_VOLTAGE 10)
      (calls onePercentHigh .SOURCE_VOLTAGE 10)
    compensated (s'.objects .SOURCE_VOLTAGE) (onePercentHigh 500) - 500 =
      -(1 / 100) * (onePercentHigh 500 - 500) :=
  residual_of_straight ready_blank settled_calls (fun _ => rfl) idle_calls 500
    (by decide +kernel) (by decide +kernel)

end Residual

end CalResidual
end PoorMansSmu
