import PoorMansSmu.CalTables
import PoorMansSmu.Lib.Interpolation
import Mathlib.Data.Finset.Max
import Mathlib.Data.Finset.Range
import Mathlib.Data.Prod.Lex
import Mathlib.Tactic.LinearCombination

/-!
# Compensation — what the nonlinear table makes of a reading

`adc_nonlinear_compensation` looks for the interval of `set_adc` a reading is in, and adds what lies
between the corrections at its ends.

- `compensation_interpolates` : the function that comes to, for every table;
- `loop_closes_iff`           : when the reading of each point is brought to the value set there;
- `closes_only_right`         : that this is so for no table but those whose readings were right.

The table is searched for the reading among the values set, not among the readings.
-/

namespace PoorMansSmu
namespace Compensation

open AutoCal CalTables Interpolation

/-! ## The function -/

/-- The value returned. -/
def compensated (c : CalibrationObject) (v : ℚ) : ℚ := (adc_nonlinear_compensation c v).1

/-- The correction at a point, `adj_factor_low` and `adj_factor_high` in the source. -/
def adjFactor (c : CalibrationObject) (i : ℕ) : ℚ := c.set_adc i - c.meas_adc i

/-- Division that notices a divisor of zero. -/
def checkedDiv (a b : ℚ) : Option ℚ := if b = 0 then none else some (a / b)

/-- `compensationLoop`, with every division checked. -/
def checkedLoop (c : CalibrationObject) (v : ℚ) : (n i : ℕ) → Option ℚ
  | 0, _ => some v
  | n + 1, i =>
      if v > c.set_adc i ∧ v ≤ c.set_adc (i + 1) then
        let adj_factor_diff := adjFactor c (i + 1) - adjFactor c i
        (checkedDiv (v - c.set_adc i) (c.set_adc (i + 1) - c.set_adc i)).map fun part =>
          v + (adjFactor c i + adj_factor_diff * part)
      else checkedLoop c v n (i + 1)

def checkedCompensation (c : CalibrationObject) (v : ℚ) : Option ℚ :=
  if c.useCalibratedValues = false then some v else checkedLoop c v (c.adc_cal_points - 1) 0

/-- The correction for a reading in interval `j`. -/
def correction (c : CalibrationObject) (j : ℕ) (v : ℚ) : ℚ :=
  between (c.set_adc j) (adjFactor c j) (c.set_adc (j + 1)) (adjFactor c (j + 1)) v

theorem compensationLoop_eq (c : CalibrationObject) (v : ℚ) (n i : ℕ) :
    (compensationLoop c v n i).1 =
      ((lookup c.set_adc v n i).map fun j => v + correction c j v).getD v := by
  induction n generalizing i with
  | zero => rfl
  | succ n ih =>
      rw [compensationLoop, lookup]
      by_cases hlow : v > c.set_adc i
      · by_cases hhigh : v ≤ c.set_adc (i + 1)
        · -- the loop stops at the interval that `lookup` finds
          rw [if_pos hlow, if_pos hhigh, if_pos ⟨hlow, hhigh⟩]
          rfl
        · rw [if_pos hlow, if_neg hhigh, if_neg fun h => hhigh h.2]
          exact ih (i + 1)
      · rw [if_neg hlow, if_neg fun h => hlow h.1]
        exact ih (i + 1)

/-- The search makes sure that the divisor is positive. -/
theorem checkedLoop_eq (c : CalibrationObject) (v : ℚ) (n i : ℕ) :
    checkedLoop c v n i = some (compensationLoop c v n i).1 := by
  induction n generalizing i with
  | zero => rfl
  | succ n ih =>
      rw [compensationLoop_eq, checkedLoop, lookup]
      by_cases hv : v > c.set_adc i ∧ v ≤ c.set_adc (i + 1)
      · have hrange : c.set_adc (i + 1) - c.set_adc i ≠ 0 :=
          sub_ne_zero.2 (hv.1.trans_le hv.2).ne'
        rw [if_pos hv, if_pos (show Brackets c.set_adc v i from hv), checkedDiv, if_neg hrange]
        rfl
      · rw [if_neg hv, if_neg (show ¬ Brackets c.set_adc v i from hv), ih,
          ← compensationLoop_eq]

theorem checkedCompensation_eq (c : CalibrationObject) (v : ℚ) :
    checkedCompensation c v = some (compensated c v) := by
  unfold checkedCompensation compensated adc_nonlinear_compensation
  split_ifs
  · rfl
  · exact checkedLoop_eq c v _ 0

section Compensated

variable {c : CalibrationObject} {v : ℚ}

/-- The value of one interval of the table. -/
theorem compensated_of_lookup (hon : c.useCalibratedValues = true) {j : ℕ}
    (hj : lookup c.set_adc v (c.adc_cal_points - 1) 0 = some j) :
    compensated c v = v + correction c j v := by
  rw [compensated, adc_nonlinear_compensation, if_neg (by simp [hon]), compensationLoop_eq, hj]
  rfl

/-- Outside the table, or with the table off, a reading stays as it is. -/
theorem compensated_of_not_brackets
    (h : c.useCalibratedValues = false ∨
      ∀ j, j + 1 < c.adc_cal_points → ¬ Brackets c.set_adc v j) : compensated c v = v := by
  rw [compensated, adc_nonlinear_compensation]
  rcases h with hoff | hnone
  · rw [if_pos hoff]
  · split_ifs
    · rfl
    · have hlookup : lookup c.set_adc v (c.adc_cal_points - 1) 0 = none := by
        apply lookup_eq_none_iff.2
        intro j _ hj
        exact hnone j (by omega)
      rw [compensationLoop_eq, hlookup]
      rfl

/-- Either a reading stays as it is, or an interval brackets it and gives the correction. -/
theorem compensated_cases (c : CalibrationObject) (v : ℚ) :
    ((c.useCalibratedValues = false ∨ ∀ j, j + 1 < c.adc_cal_points → ¬ Brackets c.set_adc v j) ∧
        compensated c v = v) ∨
      ∃ j, j + 1 < c.adc_cal_points ∧ Brackets c.set_adc v j ∧
        compensated c v = v + correction c j v := by
  cases hon : c.useCalibratedValues with
  | false => exact Or.inl ⟨Or.inl rfl, compensated_of_not_brackets (Or.inl hon)⟩
  | true =>
      rcases hlookup : lookup c.set_adc v (c.adc_cal_points - 1) 0 with _ | j
      · have hnone : ∀ j, j + 1 < c.adc_cal_points → ¬ Brackets c.set_adc v j := by
          intro j hj
          exact lookup_eq_none_iff.1 hlookup j (Nat.zero_le j) (by omega)
        exact Or.inl ⟨Or.inr hnone, compensated_of_not_brackets (Or.inr hnone)⟩
      · obtain ⟨-, hj, hbrackets, -⟩ := lookup_eq_some hlookup
        exact Or.inr ⟨j, by omega, hbrackets, compensated_of_lookup hon hlookup⟩

end Compensated

/-! ## What the function is -/

/-- For every table and every reading. -/
structure Interpolates (c : CalibrationObject) : Prop where
  /-- No division by zero. -/
  divides : ∀ v, checkedCompensation c v = some (compensated c v)
  /-- A reading in an interval gets a correction between those at the ends of one. -/
  bracketed : c.useCalibratedValues = true →
    ∀ v, (∃ j, j + 1 < c.adc_cal_points ∧ Brackets c.set_adc v j) →
      ∃ j, j + 1 < c.adc_cal_points ∧ Brackets c.set_adc v j ∧
        min (adjFactor c j) (adjFactor c (j + 1)) ≤ compensated c v - v ∧
        compensated c v - v ≤ max (adjFactor c j) (adjFactor c (j + 1))
  /-- Any other reading stays as it is. -/
  otherwise : ∀ v,
    (c.useCalibratedValues = false ∨ ∀ j, j + 1 < c.adc_cal_points → ¬ Brackets c.set_adc v j) →
      compensated c v = v
  /-- The largest correction of the table bounds that of a reading. -/
  bounded : ∀ v, compensated c v = v ∨
    ∃ j < c.adc_cal_points, |compensated c v - v| ≤ |c.set_adc j - c.meas_adc j|
  /-- When the values set ascend, the function is a straight line on each interval, and the lines
  meet at the knots. -/
  pieces : c.useCalibratedValues = true → Ascending c.set_adc c.adc_cal_points →
    ∀ i, i + 1 < c.adc_cal_points → ∃ a b : ℚ,
      (∀ v, c.set_adc i < v → v ≤ c.set_adc (i + 1) → compensated c v = a * v + b) ∧
      a * c.set_adc i + b = 2 * c.set_adc i - c.meas_adc i ∧
      a * c.set_adc (i + 1) + b = 2 * c.set_adc (i + 1) - c.meas_adc (i + 1)
  outside : Ascending c.set_adc c.adc_cal_points →
    ∀ v, v ≤ c.set_adc 0 ∨ c.set_adc (c.adc_cal_points - 1) < v → compensated c v = v

/-- With values set that ascend, the interval found is the one the reading is in. -/
theorem compensated_eq {c : CalibrationObject} (hon : c.useCalibratedValues = true)
    (hset : Ascending c.set_adc c.adc_cal_points) {i : ℕ} (hi : i + 1 < c.adc_cal_points) {v : ℚ}
    (hv : Brackets c.set_adc v i) : compensated c v = v + correction c i v :=
  compensated_of_lookup hon (hset.lookup_eq hi hv)

theorem compensation_interpolates (c : CalibrationObject) : Interpolates c where
  divides := checkedCompensation_eq c
  bracketed := by
    rintro hon v ⟨j₀, hj₀, hv⟩
    rcases compensated_cases c v with ⟨hoff | hnone, -⟩ | ⟨j, hj, hbrackets, heq⟩
    · exact absurd hon (by simp [hoff])
    · exact absurd hv (hnone j₀ hj₀)
    · -- the interval found need not be `j₀` if the values set do not ascend
      refine ⟨j, hj, hbrackets, ?_⟩
      rw [heq, add_sub_cancel_left]
      exact between_mem hbrackets.1 hbrackets.2
  otherwise := fun _ => compensated_of_not_brackets
  bounded := by
    intro v
    rcases compensated_cases c v with ⟨-, heq⟩ | ⟨j, hj, hbrackets, heq⟩
    · exact Or.inl heq
    · have hle : |compensated c v - v| ≤ max |adjFactor c j| |adjFactor c (j + 1)| := by
        rw [heq, add_sub_cancel_left]
        exact abs_between_le hbrackets.1 hbrackets.2
      rcases le_max_iff.1 hle with hleft | hright
      · exact Or.inr ⟨j, by omega, hleft⟩
      · exact Or.inr ⟨j + 1, hj, hright⟩
  pieces := by
    intro hon hset i hi
    have hne : c.set_adc i ≠ c.set_adc (i + 1) := (hset i (by omega)).ne
    -- the line through the knots, with the values set added to the corrections
    let line := between (c.set_adc i) (c.set_adc i + adjFactor c i) (c.set_adc (i + 1))
      (c.set_adc (i + 1) + adjFactor c (i + 1))
    have hline (v : ℚ) : ∃ a b : ℚ, ∀ w, line w = a * w + b := ⟨_, _, fun w => between_affine⟩
    obtain ⟨a, b, hab⟩ := hline 0
    refine ⟨a, b, ?_, ?_, ?_⟩
    · intro v hlow hhigh
      rw [compensated_eq hon hset hi ⟨hlow, hhigh⟩, correction, add_between hne]
      exact hab v
    · rw [← hab]
      refine between_left.trans ?_
      rw [adjFactor]
      ring
    · rw [← hab]
      refine (between_right hne).trans ?_
      rw [adjFactor]
      ring
  outside := by
    intro hset v hv
    apply compensated_of_not_brackets
    right
    intro j hj hbrackets
    -- no interval reaches below the first knot or above the last one
    rcases hv with hlow | hhigh
    · exact absurd (hbrackets.1.trans_le hlow) (not_lt.2 (hset.le (Nat.zero_le j) (by omega)))
    · exact absurd (hhigh.trans_le hbrackets.2) (not_lt.2 (hset.le (by omega) (by omega)))

/-- A table in use. -/
def tableOf (points : ℕ) (set_adc meas_adc : ℕ → ℚ) : CalibrationObject where
  autoCalInProgress := false
  autoCalDone := true
  useCalibratedValues := true
  set_adc := set_adc
  meas_adc := meas_adc
  adc_cal_points := points
  run := 0
  setRun := fun _ => 0

/-- Readings one millivolt high at 0, 10 and 20 mV. -/
def oneHigh : CalibrationObject := tableOf 3 (fun i => 10 * i) (fun i => 10 * i + 1)

/-- A reading beyond the table gets no correction, though all corrections of the table are the
same. -/
theorem not_always_bracketed :
    ¬ ∀ (c : CalibrationObject) (v : ℚ), ∃ j, j + 1 < c.adc_cal_points ∧
      min (adjFactor c j) (adjFactor c (j + 1)) ≤ compensated c v - v ∧
      compensated c v - v ≤ max (adjFactor c j) (adjFactor c (j + 1)) := by
  intro h
  obtain ⟨j, -, -, hhigh⟩ := h oneHigh 100
  have hsame : compensated oneHigh 100 = 100 := by
    decide +kernel
  have hfactor (i : ℕ) : adjFactor oneHigh i = -1 := by
    change (10 * i : ℚ) - (10 * i + 1) = -1
    ring
  rw [hsame, hfactor, hfactor, sub_self, max_self] at hhigh
  exact absurd hhigh (by norm_num)

/-! ## Closing the loop -/

/-- The error noted at point `i` is on the line between those at the ends of the interval its
reading is in. -/
def OnLine (c : CalibrationObject) (i : ℕ) : Prop :=
  ∃ j, j + 1 < c.adc_cal_points ∧ Brackets c.set_adc (c.meas_adc i) j ∧
    (adjFactor c i - adjFactor c j) * (c.set_adc (j + 1) - c.set_adc j) =
      (adjFactor c (j + 1) - adjFactor c j) * (c.meas_adc i - c.set_adc j)

/-- The reading of a point comes back to the value set exactly when it was right, or its error is on
the line. -/
theorem compensated_meas_iff {c : CalibrationObject} (hon : c.useCalibratedValues = true)
    (hset : Ascending c.set_adc c.adc_cal_points) {i : ℕ} (hi : i < c.adc_cal_points) :
    compensated c (c.meas_adc i) = c.set_adc i ↔
      c.set_adc i = c.meas_adc i ∨ OnLine c i := by
  have hback : c.meas_adc i + adjFactor c i = c.set_adc i := by
    rw [adjFactor]
    ring
  constructor
  · intro hclosed
    rcases compensated_cases c (c.meas_adc i) with ⟨-, heq⟩ | ⟨j, hj, hbrackets, heq⟩
    · -- without a correction the reading was right
      exact Or.inl (hclosed.symm.trans heq)
    · have hne : c.set_adc j ≠ c.set_adc (j + 1) := (hset j (by omega)).ne
      have hcorrection : correction c j (c.meas_adc i) = adjFactor c i := by
        linarith
      exact Or.inr ⟨j, hj, hbrackets, (between_eq_iff hne).1 hcorrection⟩
  · rintro (hright | ⟨j, hj, hbrackets, hline⟩)
    · -- a point without error: either the first knot, or the right end of an interval
      rw [← hright]
      rcases Nat.eq_zero_or_pos i with rfl | hpos
      · exact (compensation_interpolates c).outside hset _ (Or.inl le_rfl)
      · obtain ⟨k, rfl⟩ := Nat.exists_eq_add_of_le' hpos
        have hlt := hset k (by omega)
        have hzero : adjFactor c (k + 1) = 0 := by
          rw [adjFactor, hright, sub_self]
        rw [compensated_eq hon hset hi ⟨hlt, le_rfl⟩, correction, between_right hlt.ne, hzero,
          add_zero]
    · have hne : c.set_adc j ≠ c.set_adc (j + 1) := (hset j (by omega)).ne
      rw [compensated_eq hon hset hj hbrackets, correction, (between_eq_iff hne).2 hline, hback]

/-- The calibration closes the loop exactly when this holds at all points. -/
theorem loop_closes_iff (c : CalibrationObject) (hon : c.useCalibratedValues = true)
    (hset : Ascending c.set_adc c.adc_cal_points) :
    (∀ i < c.adc_cal_points, compensated c (c.meas_adc i) = c.set_adc i) ↔
      ∀ i < c.adc_cal_points, c.set_adc i = c.meas_adc i ∨ OnLine c i := by
  constructor
  · intro h i hi
    exact (compensated_meas_iff hon hset hi).1 (h i hi)
  · intro h i hi
    exact (compensated_meas_iff hon hset hi).2 (h i hi)

/-- Readings that were right. -/
def accurate : CalibrationObject :=
  tableOf 4 (fun i => 10 * i - 5 / (i + 1)) fun i => 10 * i - 5 / (i + 1)

theorem loop_closes_accurate :
    accurate.adc_cal_points = 4 ∧
      ∀ i < accurate.adc_cal_points,
        compensated accurate (accurate.meas_adc i) = accurate.set_adc i :=
  ⟨rfl, (loop_closes_iff accurate rfl (by decide +kernel)).2 fun _ _ => Or.inl rfl⟩

/-- Readings that are all one millivolt high: the last one lies beyond the values set. -/
theorem loop_not_closed :
    ¬ ∀ c : CalibrationObject, c.useCalibratedValues = true →
      Ascending c.set_adc c.adc_cal_points → Ascending c.meas_adc c.adc_cal_points →
        ∀ i < c.adc_cal_points, compensated c (c.meas_adc i) = c.set_adc i := by
  intro h
  have hlast := h oneHigh rfl (by decide +kernel) (by decide +kernel) 2 (by decide)
  revert hlast
  decide +kernel

/-! ## Tables that close it -/

/-- Among the first points there is one with the least `f`, and with the least `g` of those. -/
theorem exists_lex_least {n k : ℕ} (hk : k < n) (f : ℕ → ℚ) (g : ℕ → ℤ) :
    ∃ i < n, ∀ j < n, f i < f j ∨ f i = f j ∧ g i ≤ g j := by
  obtain ⟨i, hi, hleast⟩ := (Finset.range n).exists_min_image (fun i => toLex (f i, g i))
    ⟨k, Finset.mem_range.2 hk⟩
  refine ⟨i, Finset.mem_range.1 hi, fun j hj => ?_⟩
  exact Prod.Lex.le_iff.1 (hleast j (Finset.mem_range.2 hj))

section Closing

variable {c : CalibrationObject} (hset : Ascending c.set_adc c.adc_cal_points)
  (hline : ∀ i < c.adc_cal_points, c.set_adc i = c.meas_adc i ∨ OnLine c i)

/-- The correction of a point on the line, as a weighted mean of those at the ends. -/
theorem OnLine.weighted {i : ℕ} (h : OnLine c i) :
    ∃ j, j + 1 < c.adc_cal_points ∧ Brackets c.set_adc (c.meas_adc i) j ∧
      (adjFactor c i - adjFactor c j) * (c.set_adc (j + 1) - c.meas_adc i) +
        (adjFactor c i - adjFactor c (j + 1)) * (c.meas_adc i - c.set_adc j) = 0 := by
  obtain ⟨j, hj, hbrackets, hon⟩ := h
  refine ⟨j, hj, hbrackets, ?_⟩
  linear_combination hon

include hset hline

/-- No reading was too high.  Of those that are highest above their points the last would lie in an
interval that ends at a later point, where the reading is not as high. -/
theorem meas_le_set : ∀ i < c.adc_cal_points, c.meas_adc i ≤ c.set_adc i := by
  intro k hk
  obtain ⟨i, hi, hleast⟩ := exists_lex_least hk (adjFactor c) fun i => -i
  have hge : ∀ j < c.adc_cal_points, adjFactor c i ≤ adjFactor c j := fun j hj =>
    (hleast j hj).elim le_of_lt fun h => h.1.le
  suffices hright : 0 ≤ adjFactor c i from sub_nonneg.1 (hright.trans (hge k hk))
  by_contra hhigh
  rw [not_le] at hhigh
  rcases hline i hi with heq | hon
  · rw [adjFactor, heq, sub_self] at hhigh
    exact lt_irrefl _ hhigh
  · obtain ⟨j, hj, ⟨hlow, hup⟩, hweighted⟩ := hon.weighted
    have habove : c.set_adc i < c.set_adc (j + 1) := (sub_neg.1 hhigh).trans_le hup
    have hlater : i < j + 1 := by
      by_contra hnot
      exact absurd habove (not_lt.2 (hset.le (not_lt.1 hnot) hi))
    have hend : adjFactor c i < adjFactor c (j + 1) :=
      (hleast (j + 1) hj).resolve_right fun h => absurd h.2 (by omega)
    have hfirst := mul_nonpos_of_nonpos_of_nonneg (sub_nonpos.2 (hge j (by omega)))
      (sub_nonneg.2 hup)
    have hsecond := mul_neg_of_neg_of_pos (sub_neg.2 hend) (sub_pos.2 hlow)
    linarith

/-- And none was too low, by the first one of the lowest. -/
theorem set_le_meas : ∀ i < c.adc_cal_points, c.set_adc i ≤ c.meas_adc i := by
  intro k hk
  obtain ⟨i, hi, hgreatest⟩ := exists_lex_least hk (fun i => -adjFactor c i) fun i => i
  have hle : ∀ j < c.adc_cal_points, adjFactor c j ≤ adjFactor c i := fun j hj =>
    neg_le_neg_iff.1 ((hgreatest j hj).elim le_of_lt fun h => h.1.le)
  suffices hright : adjFactor c i ≤ 0 from sub_nonpos.1 ((hle k hk).trans hright)
  by_contra hlow
  rw [not_le] at hlow
  rcases hline i hi with heq | hon
  · rw [adjFactor, heq, sub_self] at hlow
    exact lt_irrefl _ hlow
  · obtain ⟨j, hj, ⟨hstart, hend⟩, hweighted⟩ := hon.weighted
    have hbefore : ∀ m < c.adc_cal_points, c.set_adc m < c.set_adc i →
        adjFactor c m < adjFactor c i := by
      intro m hm hless
      refine neg_lt_neg_iff.1 ((hgreatest m hm).resolve_right fun h => ?_)
      exact absurd hless (not_lt.2 (hset.le (Int.ofNat_le.1 h.2) hm))
    have hbelow : c.meas_adc i < c.set_adc i := sub_pos.1 hlow
    have hfirst' := hbefore j (by omega) (hstart.trans hbelow)
    have hsecond := mul_nonneg (sub_nonneg.2 (hle (j + 1) hj)) (sub_nonneg.2 hstart.le)
    rcases hend.lt_or_eq with hinside | hat
    · have hstrict := mul_pos (sub_pos.2 hfirst') (sub_pos.2 hinside)
      linarith
    · -- a reading at the end of the interval has the correction of the point there
      have hnext := hbefore (j + 1) hj (hat ▸ hbelow)
      have hstrict := mul_pos (sub_pos.2 hnext) (sub_pos.2 hstart)
      rw [hat, sub_self, mul_zero, zero_add, ← hat] at hweighted
      linarith

end Closing

/-- The calibration closes the loop for no table but those in which every reading was right, for
which nothing is corrected at the points. -/
theorem closes_only_right (c : CalibrationObject) (hon : c.useCalibratedValues = true)
    (hset : Ascending c.set_adc c.adc_cal_points) :
    (∀ i < c.adc_cal_points, compensated c (c.meas_adc i) = c.set_adc i) ↔
      ∀ i < c.adc_cal_points, c.meas_adc i = c.set_adc i := by
  constructor
  · intro h i hi
    have hline : ∀ i < c.adc_cal_points, c.set_adc i = c.meas_adc i ∨ OnLine c i :=
      fun i hi => (compensated_meas_iff hon hset hi).1 (h i hi)
    exact le_antisymm (meas_le_set hset hline i hi) (set_le_meas hset hline i hi)
  · intro h i hi
    exact (compensated_meas_iff hon hset hi).2 (Or.inl (h i hi).symm)

/-- Readings that are right at the ends, and half a millivolt high in between. -/
def bent : CalibrationObject :=
  tableOf 3 (fun i => 10 * i) fun i => if i = 1 then 21 / 2 else 10 * i

theorem closes_only_right_bent :
    ¬ ∀ i < bent.adc_cal_points, compensated bent (bent.meas_adc i) = bent.set_adc i :=
  (closes_only_right bent rfl (by decide +kernel)).not.2 (by decide +kernel)

end Compensation
end PoorMansSmu
