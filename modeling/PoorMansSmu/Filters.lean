import Mathlib.Algebra.Order.Ring.Rat
import Mathlib.Logic.Function.Basic
import Mathlib.Tactic.Ring

/-!
# Filters — the average shown of the measurements

`FiltersClass` keeps the last samples in `meanRaws`, newest first, and their mean.  There is one
object for the voltage and one for the current.

The mean is linear in the samples: a filter fed with differences holds the difference of two filters
(`Less`).
-/

namespace PoorMansSmu
namespace Filters

def FILTER_MAX_LENGTH : ℕ := 1000

/-- The sizes a filter can have. -/
abbrev FilterSize : Type := {n : ℕ // 1 ≤ n ∧ n ≤ FILTER_MAX_LENGTH}

/-- The state of a filter; the defaults are those of `init`. -/
structure FiltersClass where
  meanRaws : ℕ → ℚ := fun _ => 0
  mean_samples : ℕ := 0
  filterSize : FilterSize := ⟨5, by decide⟩
  mean : ℚ := 0

/-- The loop that moves the entries below `n + 1` up by one, from the last one on. -/
def shift (meanRaws : ℕ → ℚ) : ℕ → (ℕ → ℚ)
  | 0 => meanRaws
  | i + 1 => shift (Function.update meanRaws (i + 1) (meanRaws i)) i

/-- The loop that adds up the first `n` entries. -/
def total (meanRaws : ℕ → ℚ) (n : ℕ) : ℚ :=
  (List.range n).foldl (fun tot i => tot + meanRaws i) 0

namespace FiltersClass

def setFilterSize (f : FiltersClass) (size : ℤ) : FiltersClass :=
  if hlow : size < 1 then { f with filterSize := ⟨1, by decide⟩ }
  else if hhigh : size ≤ FILTER_MAX_LENGTH then
    { f with filterSize := ⟨size.toNat, by omega, by omega⟩ }
  else f

/-- `updateMean`; what it returns is the mean after the call. -/
def updateMean (f : FiltersClass) (v : ℚ) (moving : Bool) : FiltersClass :=
  let fz := f.filterSize.val
  -- a filter that is not moving is filled up first; the mean stays until then
  if !moving ∧ f.mean_samples < fz then
    { f with
      meanRaws := Function.update f.meanRaws f.mean_samples v
      mean_samples := f.mean_samples + 1 }
  else
    let meanRaws := Function.update (shift f.meanRaws (fz - 1)) 0 v
    { f with
      meanRaws := meanRaws
      mean_samples := if moving then f.mean_samples else 0
      mean := total meanRaws fz / fz }

/-- A size that a filter has can be given to any other one. -/
theorem setFilterSize_filterSize (f : FiltersClass) (size : FilterSize) :
    (f.setFilterSize size.val).filterSize = size := by
  obtain ⟨n, hlow, hhigh⟩ := size
  have hnot : ¬ (n : ℤ) < 1 := by omega
  have hmem : (n : ℤ) ≤ FILTER_MAX_LENGTH := by omega
  simp only [setFilterSize, dif_neg hnot, dif_pos hmem]
  rfl

@[simp] theorem updateMean_filterSize (f : FiltersClass) (v : ℚ) (moving : Bool) :
    (f.updateMean v moving).filterSize = f.filterSize := by
  unfold updateMean
  by_cases hfill : !moving ∧ f.mean_samples < f.filterSize.val
  · simp only [if_pos hfill]
  · simp only [if_neg hfill]

end FiltersClass

/-! ## Loops -/

/-- After the loop, entries 1 to `n` are those that stood one place below. -/
theorem shift_apply (meanRaws : ℕ → ℚ) (n i : ℕ) :
    shift meanRaws n i = if 1 ≤ i ∧ i ≤ n then meanRaws (i - 1) else meanRaws i := by
  induction n generalizing meanRaws with
  | zero =>
      have hnot : ¬ (1 ≤ i ∧ i ≤ 0) := by omega
      rw [if_neg hnot]
      rfl
  | succ n ih =>
      rw [shift, ih]
      -- one round moves entry `n` to place `n + 1`; the others come in the rounds after it
      rcases lt_trichotomy i (n + 1) with hlt | heq | hgt
      · have hlast : i ≠ n + 1 := by omega
        have hbelow : i - 1 ≠ n + 1 := by omega
        have hsame : (1 ≤ i ∧ i ≤ n) ↔ (1 ≤ i ∧ i ≤ n + 1) := by omega
        rw [Function.update_of_ne hlast, Function.update_of_ne hbelow]
        exact if_congr hsame rfl rfl
      · subst heq
        have hnot : ¬ (1 ≤ n + 1 ∧ n + 1 ≤ n) := by omega
        have hmem : 1 ≤ n + 1 ∧ n + 1 ≤ n + 1 := by omega
        rw [if_neg hnot, if_pos hmem, Function.update_self]
        rfl
      · have hlast : i ≠ n + 1 := by omega
        have hnot : ¬ (1 ≤ i ∧ i ≤ n) := by omega
        have hnot' : ¬ (1 ≤ i ∧ i ≤ n + 1) := by omega
        rw [if_neg hnot, if_neg hnot', Function.update_of_ne hlast]

theorem total_succ (meanRaws : ℕ → ℚ) (n : ℕ) :
    total meanRaws (n + 1) = total meanRaws n + meanRaws n := by
  simp [total, List.range_succ]

/-- Totals are linear. -/
theorem total_sub {f g d : ℕ → ℚ} (h : ∀ i, f i = g i - d i) (n : ℕ) :
    total f n = total g n - total d n := by
  induction n with
  | zero => simp [total]
  | succ n ih =>
      rw [total_succ, total_succ, total_succ, ih, h n]
      ring

/-! ## Filters fed with differences -/

/-- `f` is the filter `g` less the filter `d`. -/
structure Less (f g d : FiltersClass) : Prop where
  meanRaws : ∀ i, f.meanRaws i = g.meanRaws i - d.meanRaws i
  mean : f.mean = g.mean - d.mean
  mean_samples : g.mean_samples = f.mean_samples ∧ d.mean_samples = f.mean_samples
  filterSize : g.filterSize = f.filterSize ∧ d.filterSize = f.filterSize

/-- The filter that makes no difference. -/
def zeroOf (f : FiltersClass) : FiltersClass :=
  { f with meanRaws := fun _ => 0, mean := 0 }

theorem less_zeroOf (f : FiltersClass) : Less f f (zeroOf f) where
  meanRaws _ := (sub_zero _).symm
  mean := (sub_zero _).symm
  mean_samples := ⟨rfl, rfl⟩
  filterSize := ⟨rfl, rfl⟩

theorem update_sub {f g d : ℕ → ℚ} (h : ∀ i, f i = g i - d i) (k : ℕ) (x o : ℚ) (i : ℕ) :
    Function.update f k (x - o) i = Function.update g k x i - Function.update d k o i := by
  by_cases hik : i = k
  · subst hik
    simp only [Function.update_self]
  · rw [Function.update_of_ne hik, Function.update_of_ne hik, Function.update_of_ne hik, h i]

theorem shift_sub {f g d : ℕ → ℚ} (h : ∀ i, f i = g i - d i) (n i : ℕ) :
    shift f n i = shift g n i - shift d n i := by
  rw [shift_apply, shift_apply, shift_apply]
  split_ifs
  · exact h (i - 1)
  · exact h i

/-- A sample lowered by `o` keeps the relation when the difference gets `o`. -/
theorem Less.updateMean {f g d : FiltersClass} (h : Less f g d) (x o : ℚ) (moving : Bool) :
    Less (f.updateMean (x - o) moving) (g.updateMean x moving) (d.updateMean o moving) := by
  obtain ⟨hraws, hmean, ⟨hsamples, hsamples'⟩, hsize, hsize'⟩ := h
  simp only [FiltersClass.updateMean, hsamples, hsamples', hsize, hsize']
  split_ifs
  · -- the sample is only stored
    exact ⟨update_sub hraws _ x o, hmean, ⟨rfl, rfl⟩, rfl, rfl⟩
  all_goals
    have hmoved := update_sub (shift_sub hraws (f.filterSize.val - 1)) 0 x o
    refine ⟨hmoved, ?_, ⟨rfl, rfl⟩, rfl, rfl⟩
    simp only [total_sub hmoved]
    rw [sub_div]

/-- The means agree exactly when the difference has mean zero. -/
theorem Less.mean_eq_iff {f g d : FiltersClass} (h : Less f g d) : f.mean = g.mean ↔ d.mean = 0 := by
  rw [h.mean]
  exact sub_eq_self

end Filters
end PoorMansSmu
