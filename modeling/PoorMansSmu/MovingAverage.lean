import PoorMansSmu.Filters
import PoorMansSmu.Lib.Run
import Mathlib.Data.List.DropRight
import Mathlib.Data.List.GetD

/-!
# MovingAverage — what a filter holds after enough moving samples

`updateMean` moves the first `filterSize` entries up by one and puts the sample in front of them.  So
the first entries are the newest samples, followed by what the filter held before, and whatever an
earlier size has left there is gone after `filterSize` samples (`mean_of_last_samples`).
-/

namespace PoorMansSmu
namespace MovingAverage

open Run Filters

/-- `updateMean` with `moving` set. -/
def movingStep (f : FiltersClass) (v : ℚ) : FiltersClass := f.updateMean v true

/-- The filter holds the samples `newest`, the newest one first, and behind them the entries `old` it
began with; nothing from `filterSize` on has changed. -/
structure Window (old : ℕ → ℚ) (size : FilterSize) (newest : List ℚ) (f : FiltersClass) : Prop where
  filterSize : f.filterSize = size
  inside : ∀ i < size.val, f.meanRaws i = newest.getD i (old (i - newest.length))
  outside : ∀ i, size.val ≤ i → f.meanRaws i = old i

theorem window_setFilterSize (f : FiltersClass) (size : FilterSize) :
    Window f.meanRaws size [] (f.setFilterSize size.val) := by
  have hraws : (f.setFilterSize size.val).meanRaws = f.meanRaws := by
    unfold FiltersClass.setFilterSize
    split_ifs <;> rfl
  refine ⟨f.setFilterSize_filterSize size, ?_, ?_⟩
  · intro i hi
    rw [hraws]
    rfl
  · intro i hi
    rw [hraws]

/-! ## One sample -/

theorem movingStep_meanRaws (f : FiltersClass) (v : ℚ) (i : ℕ) :
    (movingStep f v).meanRaws i =
      if i = 0 then v else if i < f.filterSize.val then f.meanRaws (i - 1) else f.meanRaws i := by
  have hpos : 1 ≤ f.filterSize.val := f.filterSize.property.1
  have hraws : (movingStep f v).meanRaws =
      Function.update (shift f.meanRaws (f.filterSize.val - 1)) 0 v := rfl
  rw [hraws]
  by_cases hzero : i = 0
  · subst hzero
    rw [if_pos rfl, Function.update_self]
  · have hsame : (1 ≤ i ∧ i ≤ f.filterSize.val - 1) ↔ i < f.filterSize.val := by omega
    rw [if_neg hzero, Function.update_of_ne hzero, shift_apply]
    exact if_congr hsame rfl rfl

theorem movingStep_mean (f : FiltersClass) (v : ℚ) :
    (movingStep f v).mean =
      total (movingStep f v).meanRaws f.filterSize.val / f.filterSize.val := rfl

theorem Window.movingStep {old : ℕ → ℚ} {size : FilterSize} {newest : List ℚ} {f : FiltersClass}
    (h : Window old size newest f) (v : ℚ) :
    Window old size (v :: newest) (movingStep f v) := by
  have hsize : f.filterSize.val = size.val := congrArg Subtype.val h.filterSize
  refine ⟨?_, ?_, ?_⟩
  · exact (f.updateMean_filterSize v true).trans h.filterSize
  · intro i hi
    rw [movingStep_meanRaws, hsize]
    cases i with
    | zero => rfl
    | succ i =>
        -- the entry comes from one place below, where the list is one shorter
        have hbelow := h.inside i (by omega)
        rw [if_neg (Nat.succ_ne_zero i), if_pos hi, Nat.add_sub_cancel, hbelow,
          List.getD_cons_succ, List.length_cons, Nat.add_sub_add_right]
  · intro i hi
    have hpos : 1 ≤ size.val := size.property.1
    have hzero : i ≠ 0 := by omega
    have hbeyond : ¬ i < f.filterSize.val := by omega
    rw [movingStep_meanRaws, if_neg hzero, if_neg hbeyond, h.outside i hi]

theorem Window.exec {old : ℕ → ℚ} {size : FilterSize} {newest : List ℚ} {f : FiltersClass}
    (h : Window old size newest f) (samples : List ℚ) :
    Window old size (samples.reverse ++ newest) (Run.exec MovingAverage.movingStep f samples) := by
  induction samples generalizing newest f with
  | nil => exact h
  | cons v samples ih =>
      have hrest := ih (h.movingStep v)
      rwa [exec_cons, List.reverse_cons, List.append_assoc, List.singleton_append]

/-! ## The mean -/

/-- Entries that are those of a list add up to its sum. -/
theorem total_eq_sum {f : ℕ → ℚ} (l : List ℚ) (h : ∀ i (hi : i < l.length), f i = l[i]) :
    total f l.length = l.sum := by
  induction l using List.reverseRecOn with
  | nil => rfl
  | append_singleton l x ih =>
      have hlast : f l.length = x := by
        have hat := h l.length (by simp)
        simpa using hat
      have hinit : ∀ i (hi : i < l.length), f i = l[i] := by
        intro i hi
        have hat := h i (by simp only [List.length_append]; omega)
        rwa [List.getElem_append_left hi] at hat
      rw [List.length_append, List.length_singleton, total_succ, ih hinit, hlast, List.sum_append,
        List.sum_singleton]

/-- The mean kept is the one of the entries kept, once a sample has come. -/
theorem exec_mean (f : FiltersClass) {samples : List ℚ} (hne : samples ≠ []) :
    (Run.exec movingStep f samples).mean =
      total (Run.exec movingStep f samples).meanRaws (Run.exec movingStep f samples).filterSize.val /
        (Run.exec movingStep f samples).filterSize.val := by
  rcases List.eq_nil_or_concat' samples with rfl | ⟨before, v, rfl⟩
  · exact absurd rfl hne
  · -- the last sample leaves the size as it is
    have hsize : (movingStep (Run.exec movingStep f before) v).filterSize =
        (Run.exec movingStep f before).filterSize :=
      FiltersClass.updateMean_filterSize _ v true
    rw [exec_append, exec_cons, exec_nil, movingStep_mean, hsize]

/-- Whatever the filter held and whatever size it had: after a size has been set and at least as many
moving samples have come, the filter is filled by the last of them. -/
theorem mean_of_last_samples (f : FiltersClass) {s : ℕ} (hlow : 1 ≤ s) (hhigh : s ≤ 1000)
    {samples : List ℚ} (hm : s ≤ samples.length) :
    (Run.exec movingStep (f.setFilterSize s) samples).mean = (samples.rtake s).sum / s ∧
    (∀ i < s, samples.reverse[i]? =
      some ((Run.exec movingStep (f.setFilterSize s) samples).meanRaws i)) ∧
    ∀ i, s ≤ i → (Run.exec movingStep (f.setFilterSize s) samples).meanRaws i = f.meanRaws i := by
  have hwindow := (window_setFilterSize f ⟨s, hlow, hhigh⟩).exec samples
  rw [List.append_nil] at hwindow
  set g := Run.exec movingStep (f.setFilterSize s) samples with hg
  have hlength : s ≤ samples.reverse.length := by rwa [List.length_reverse]
  have hinside : ∀ i (hi : i < s), g.meanRaws i = samples.reverse[i] := by
    intro i hi
    have hentry := hwindow.inside i hi
    rwa [List.getD_eq_getElem _ _ (by omega)] at hentry
  have hsize : g.filterSize.val = s := congrArg Subtype.val hwindow.filterSize
  refine ⟨?_, ?_, hwindow.outside⟩
  · have hne : samples ≠ [] := by
      rintro rfl
      rw [List.length_nil] at hm
      omega
    -- the last samples in reverse are the first entries
    have htake : (samples.reverse.take s).length = s := List.length_take_of_le hlength
    have htotal := total_eq_sum (f := g.meanRaws) (samples.reverse.take s) (by
      intro i hi
      rw [List.getElem_take]
      exact hinside i (by omega))
    rw [htake] at htotal
    have hsum : (samples.reverse.take s).sum = (samples.rtake s).sum := by
      rw [List.rtake_eq_reverse_take_reverse, List.sum_reverse]
    rw [exec_mean (f.setFilterSize s) hne, ← hg, hsize, htotal, hsum]
  · intro i hi
    rw [hinside i hi, List.getElem?_eq_getElem]

/-- Three samples for a filter of two that was left full of other ones. -/
theorem mean_of_last_samples_two :
    (Run.exec movingStep
      (FiltersClass.setFilterSize { meanRaws := fun i => i, filterSize := ⟨4, by decide⟩ } (2 : ℕ))
      [10, 20, 40]).mean = 30 := by
  have hm : 2 ≤ ([10, 20, 40] : List ℚ).length := by decide
  have hmean := (mean_of_last_samples { meanRaws := fun i => i, filterSize := ⟨4, by decide⟩ }
    (by decide) (by decide) hm).1
  have hsum : (([10, 20, 40] : List ℚ).rtake 2).sum / (2 : ℕ) = 30 := by decide +kernel
  exact hmean.trans hsum

end MovingAverage
end PoorMansSmu
