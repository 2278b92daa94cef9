import PoorMansSmu.Lib.Bins
import PoorMansSmu.StatsBlocks

/-!
# Histogram — how many block means each bin counts

`renderHistogram` divides the span from `minimum` to `maximum` into `noOfBins` bins and counts the
means of the stored blocks.  Its last bin does not end at `maximum`, where the greatest mean would
fall out of it, but at `maximum * 2`, "to make sure last bin is large enough".

Twice the maximum is larger than the maximum only if the maximum is positive.  Otherwise a mean in
the last part of the span may be in no bin at all, and `partitions_iff` says which.
-/

namespace PoorMansSmu
namespace Histogram

open Bins Extremes Run Stats

/-! ## renderHistogram -/

def noOfBins : ℕ := 21

def binLimits (minimum maximum : ℚ) (i : ℕ) : ℚ :=
  if i < noOfBins then minimum + (maximum - minimum) / noOfBins * i
  else maximum * 2  -- make sure last bin is large enough...

structure Counts where
  bins : ℕ → ℕ := fun _ => 0
  binMax : ℕ := 0

/-- The body of the loop over the bins. -/
def countIn (limits : ℕ → ℚ) (value : ℚ) (c : Counts) (i : ℕ) : Counts :=
  if value ≥ limits i ∧ value < limits (i + 1) then
    { bins := Function.update c.bins i (c.bins i + 1)
      binMax := if c.bins i + 1 ≥ c.binMax then c.bins i + 1 else c.binMax }
  else c

/-- The body of the loop over the trend points. -/
def count (limits : ℕ → ℚ) (c : Counts) (value : ℚ) : Counts :=
  if value = undefinedValue then c
  else (List.range noOfBins).foldl (countIn limits value) c

/-- The counts of the histogram; the rest of the function draws them. -/
def renderHistogram (s : StatsClass) : Counts :=
  ((List.range nrOfTrendPoints).map s.value).foldl (count (binLimits s.minimum s.maximum)) {}

/-- The height of the bar of a bin, out of 100. -/
def top (c : Counts) (i : ℕ) : ℚ :=
  if c.binMax > 0 then (c.bins i : ℚ) / c.binMax * 100 else 0

/-! ## Counting -/

/-- The trend values that are set. -/
def defined (s : StatsClass) : List ℚ :=
  ((List.range nrOfTrendPoints).map s.value).filter (· ≠ undefinedValue)

theorem countIn_bins (limits : ℕ → ℚ) (value : ℚ) (c : Counts) (i : ℕ) :
    (countIn limits value c i).bins =
      if InBin limits i value then Function.update c.bins i (c.bins i + 1) else c.bins := by
  by_cases h : limits i ≤ value ∧ value < limits (i + 1)
  · have hin : InBin limits i value := h
    simp only [countIn, ge_iff_le, if_pos h, if_pos hin]
  · have hout : ¬InBin limits i value := h
    simp only [countIn, ge_iff_le, if_neg h, if_neg hout]

/-- A value that is set is tallied. -/
theorem count_bins (limits : ℕ → ℚ) (c : Counts) {value : ℚ} (h : value ≠ undefinedValue) :
    (count limits c value).bins = tally limits noOfBins c.bins value := by
  rw [count, if_neg h]
  refine (List.foldl_hom Counts.bins fun d i => ?_).symm
  exact (countIn_bins limits value d i).symm

/-- The histogram tallies the trend values that are set. -/
theorem renderHistogram_bins (s : StatsClass) :
    (renderHistogram s).bins =
      (defined s).foldl (tally (binLimits s.minimum s.maximum) noOfBins) fun _ => 0 := by
  rw [defined, List.foldl_filter]
  refine (List.foldl_hom Counts.bins fun c value => ?_).symm
  by_cases h : value = undefinedValue
  · simp only [h, count, if_true, ne_eq, not_true, decide_false, Bool.false_eq_true, if_false]
  · simp only [count_bins _ _ h, ne_eq, h, not_false_eq_true, decide_true, if_true]

/-- `binMax` is not below any bin. -/
def Dominates (c : Counts) : Prop := ∀ i, c.bins i ≤ c.binMax

theorem Dominates.countIn {c : Counts} (h : Dominates c) (limits : ℕ → ℚ) (value : ℚ) (i : ℕ) :
    Dominates (countIn limits value c i) := by
  unfold Histogram.countIn
  split_ifs with hin hmax
  · intro j
    rcases eq_or_ne j i with rfl | hj
    · exact (Function.update_self ..).le
    · simp only [Function.update_of_ne hj]
      exact (h j).trans hmax
  · intro j
    rcases eq_or_ne j i with rfl | hj
    · simp only [Function.update_self]
      omega
    · simp only [Function.update_of_ne hj]
      exact h j
  · exact h

theorem dominates_renderHistogram (s : StatsClass) : Dominates (renderHistogram s) := by
  unfold renderHistogram
  refine List.foldlRecOn _ _ (fun i => Nat.le_refl 0) fun c h value _ => ?_
  unfold count
  split_ifs with hvalue
  · exact h
  · exact List.foldlRecOn _ _ h fun d hd i _ => hd.countIn _ value i

/-- Every bar has room in the histogram. -/
theorem top_le (s : StatsClass) (i : ℕ) : top (renderHistogram s) i ≤ 100 := by
  unfold top
  split_ifs with hpos
  · have hmax : (0 : ℚ) < (renderHistogram s).binMax := Nat.cast_pos.2 hpos
    have hle : ((renderHistogram s).bins i : ℚ) ≤ (renderHistogram s).binMax :=
      Nat.cast_le.2 (dominates_renderHistogram s i)
    have hratio := (div_le_one hmax).2 hle
    linarith
  · norm_num

/-! ## The bins of a value -/

/-- The lower limit of the last bin. -/
def lastLimit (minimum maximum : ℚ) : ℚ := minimum + (maximum - minimum) / noOfBins * 20

/-- The value is below the last bin, or below its end. -/
def HasBin (minimum maximum value : ℚ) : Prop :=
  value < lastLimit minimum maximum ∨ value < maximum * 2

instance (minimum maximum value : ℚ) : Decidable (HasBin minimum maximum value) :=
  inferInstanceAs (Decidable (_ ∨ _))

section Limits

variable (minimum maximum : ℚ)

theorem binLimits_of_lt {i : ℕ} (h : i < noOfBins) :
    binLimits minimum maximum i = minimum + (maximum - minimum) / noOfBins * i :=
  if_pos h

theorem binLimits_zero : binLimits minimum maximum 0 = minimum := by
  rw [binLimits_of_lt minimum maximum (by decide), Nat.cast_zero, mul_zero, add_zero]

theorem binLimits_last : binLimits minimum maximum 20 = lastLimit minimum maximum := by
  rw [binLimits_of_lt minimum maximum (by decide)]
  rfl

/-- The step from one of the first limits to the next is the same for all of them. -/
theorem binLimits_succ {i : ℕ} (h : i < 20) :
    binLimits minimum maximum (i + 1) =
      binLimits minimum maximum i + (maximum - minimum) / noOfBins := by
  have hbins : noOfBins = 21 := rfl
  rw [binLimits_of_lt minimum maximum (by omega), binLimits_of_lt minimum maximum (by omega)]
  push_cast
  ring

variable {minimum maximum} {value : ℚ}

/-- The bins before the last one share the values below it. -/
theorem hits_first (h : minimum ≤ value) :
    hits (binLimits minimum maximum) 20 value =
      if value < lastLimit minimum maximum then 1 else 0 := by
  have hbins : (0 : ℚ) < noOfBins := by norm_num [noOfBins]
  rcases le_total minimum maximum with horder | horder
  · -- the first limits rise from the minimum to the last bin
    have hstep : 0 ≤ (maximum - minimum) / noOfBins :=
      div_nonneg (sub_nonneg.2 horder) hbins.le
    rw [hits_of_monotone, binLimits_zero, binLimits_last]
    · simp only [h, true_and]
    · intro i hi
      rw [binLimits_succ _ _ hi]
      exact le_add_of_nonneg_right hstep
  · -- no span: the last bin begins at the minimum, or below it
    have hstep : (maximum - minimum) / noOfBins ≤ 0 :=
      div_nonpos_of_nonpos_of_nonneg (sub_nonpos.2 horder) hbins.le
    have hlast : lastLimit minimum maximum ≤ value := by
      refine le_trans ?_ h
      exact add_le_of_nonpos_right (mul_nonpos_of_nonpos_of_nonneg hstep (by norm_num))
    rw [if_neg (not_lt_of_ge hlast), hits_of_antitone]
    intro i hi
    rw [binLimits_succ _ _ hi]
    exact add_le_of_nonpos_right hstep

/-- A value that is not below the minimum is in one bin exactly if it is below the last bin or below
the end of it. -/
theorem hits_eq_one_iff (h : minimum ≤ value) :
    hits (binLimits minimum maximum) noOfBins value = 1 ↔ HasBin minimum maximum value := by
  have hend : binLimits minimum maximum 21 = maximum * 2 := rfl
  have hbins : noOfBins = 20 + 1 := rfl
  rw [hbins, hits_succ, hits_first h]
  simp only [HasBin, InBin, binLimits_last, hend]
  rcases lt_or_ge value (lastLimit minimum maximum) with hlast | hlast
  · -- in one of the first bins, and not in the last one
    simp only [hlast, not_le_of_gt hlast, false_and, true_or, if_true, if_false]
  · simp only [not_lt_of_ge hlast, hlast, true_and, false_or, if_false, zero_add]
    split_ifs with hvalue
    · exact iff_of_true rfl hvalue
    · exact iff_of_false not_false hvalue

/-- A value up to a positive maximum has a bin. -/
theorem hasBin_of_pos (hpos : 0 < maximum) (h : value ≤ maximum) :
    HasBin minimum maximum value := by
  right
  linarith

end Limits

/-! ## Stored blocks -/

/-- The trend points hold the blocks; a point whose block is empty is not set. -/
def Stores (s : StatsClass) (blocks : ℕ → List ℚ) : Prop :=
  ∀ pos < nrOfTrendPoints, s.point pos = if blocks pos = [] then unset else summary (blocks pos)

theorem updateMinMax_minimum (s : StatsClass) :
    s.updateMinMax.minimum = minLoop fun i => (s.valueExt i).1 := by
  rw [StatsClass.updateMinMax]

theorem updateMinMax_maximum (s : StatsClass) :
    s.updateMinMax.maximum = maxLoop fun i => (s.valueExt i).2 := by
  rw [StatsClass.updateMinMax]

theorem minLoop_le (entry : ℕ → ℚ) {i : ℕ} (hi : i < nrOfTrendPoints) :
    minLoop entry ≤ entry i := by
  have hlow := (isLeast_insert_scanLeast (· ≠ undefinedValue) undefinedValue
    ((List.range nrOfTrendPoints).map entry)).2
  rw [minLoop_eq]
  apply hlow
  by_cases h : entry i = undefinedValue
  · exact Or.inl h
  · exact Or.inr ⟨List.mem_map_of_mem (List.mem_range.2 hi), h⟩

theorem le_maxLoop (entry : ℕ → ℚ) {i : ℕ} (hi : i < nrOfTrendPoints)
    (hset : entry i ≠ undefinedValue) : entry i ≤ maxLoop entry := by
  have hhigh := (isGreatest_insert_scanGreatest (· ≠ undefinedValue) (-undefinedValue)
    ((List.range nrOfTrendPoints).map entry)).2
  rw [maxLoop_eq]
  exact hhigh (Or.inr ⟨List.mem_map_of_mem (List.mem_range.2 hi), hset⟩)

section Stores

variable {s : StatsClass} {blocks : ℕ → List ℚ} (h : Stores s blocks) {pos : ℕ}
  (hpos : pos < nrOfTrendPoints)

include h hpos

theorem Stores.point (hne : blocks pos ≠ []) : s.point pos = summary (blocks pos) := by
  rw [h pos hpos, if_neg hne]

theorem Stores.value (hne : blocks pos ≠ []) : s.value pos = mean (blocks pos) :=
  congrArg Prod.fst (h.point hpos hne)

theorem Stores.valueExt (hne : blocks pos ≠ []) : s.valueExt pos = (summary (blocks pos)).2 :=
  congrArg Prod.snd (h.point hpos hne)

/-- A trend value that is set is the mean of a block. -/
theorem Stores.value_ne_iff :
    s.value pos ≠ undefinedValue ↔ blocks pos ≠ [] ∧ mean (blocks pos) ≠ undefinedValue := by
  have hvalue : s.value pos = (s.point pos).1 := rfl
  rw [hvalue, h pos hpos]
  by_cases hempty : blocks pos = []
  · simp [hempty, unset]
  · simp [hempty, summary]

/-- Even if no sample of it counts for the minimum, a block has no mean below the minimum. -/
theorem Stores.minimum_le (hne : blocks pos ≠ []) : s.updateMinMax.minimum ≤ s.value pos := by
  have hlow := minLoop_le (fun i => (s.valueExt i).1) hpos
  rw [← updateMinMax_minimum, h.valueExt hpos hne] at hlow
  rw [h.value hpos hne]
  exact hlow.trans (summary_mean_mem hne).1

/-- A block whose samples count for the maximum has no mean above it. -/
theorem Stores.le_maximum (hne : blocks pos ≠ [])
    (hsamples : ∀ x ∈ blocks pos, x < undefinedValue) : s.value pos ≤ s.updateMinMax.maximum := by
  have hgreatest := (isGreatest_summary hne).1
  have hset : (s.valueExt pos).2 ≠ undefinedValue := by
    rw [h.valueExt hpos hne]
    exact (hsamples _ hgreatest).ne
  have hhigh := le_maxLoop (fun i => (s.valueExt i).2) hpos hset
  rw [← updateMinMax_maximum, h.valueExt hpos hne] at hhigh
  rw [h.value hpos hne]
  exact (summary_mean_mem hne).2.trans hhigh

end Stores

/-! ## Partition -/

/-- Every trend value that is set is counted in exactly one bin, and the counts add up to the number
of these values. -/
structure Partitions (s : StatsClass) : Prop where
  each : ∀ pos < nrOfTrendPoints, s.value pos ≠ undefinedValue → ∀ c : Counts,
    ∃ i < noOfBins, (count (binLimits s.minimum s.maximum) c (s.value pos)).bins =
      Function.update c.bins i (c.bins i + 1)
  total : ∑ i ∈ Finset.range noOfBins, (renderHistogram s).bins i = (defined s).length

theorem mem_defined_iff (s : StatsClass) (value : ℚ) :
    value ∈ defined s ↔ ∃ pos < nrOfTrendPoints, s.value pos = value ∧ value ≠ undefinedValue := by
  simp only [defined, List.mem_filter, List.mem_map, List.mem_range, decide_eq_true_eq]
  constructor
  · rintro ⟨⟨pos, hpos, hvalue⟩, hne⟩
    exact ⟨pos, hpos, hvalue, hne⟩
  · rintro ⟨pos, hpos, hvalue, hne⟩
    exact ⟨⟨pos, hpos, hvalue⟩, hne⟩

/-- The histogram is a partition exactly if every value that is set is in one bin. -/
theorem partitions_iff_hits (s : StatsClass) :
    Partitions s ↔
      ∀ value ∈ defined s, hits (binLimits s.minimum s.maximum) noOfBins value = 1 := by
  constructor
  · intro h value hvalue
    obtain ⟨pos, hpos, rfl, hne⟩ := (mem_defined_iff s value).1 hvalue
    have honce := h.each pos hpos hne {}
    rw [count_bins _ _ hne] at honce
    exact (exists_update_iff _ _ _ _).1 honce
  · intro h
    constructor
    case each =>
      intro pos hpos hne c
      rw [count_bins _ _ hne]
      exact (exists_update_iff _ _ _ _).2 (h _ ((mem_defined_iff s _).2 ⟨pos, hpos, rfl, hne⟩))
    case total =>
      have hones : (defined s).map (hits (binLimits s.minimum s.maximum) noOfBins) =
          (defined s).map fun _ => 1 := List.map_congr_left h
      rw [renderHistogram_bins, sum_tallies, hones, Finset.sum_const_zero, zero_add,
        List.map_const', List.sum_replicate, nsmul_one, Nat.cast_id]

/-- As long as no sample reaches the mark for "not set", a positive maximum is enough. -/
theorem partitions_of_pos {s : StatsClass} {blocks : ℕ → List ℚ} (h : Stores s blocks)
    (hsamples : ∀ pos < nrOfTrendPoints, ∀ x ∈ blocks pos, x < undefinedValue)
    (hpos : 0 < s.updateMinMax.maximum) : Partitions s.updateMinMax := by
  apply (partitions_iff_hits _).2
  intro value hvalue
  obtain ⟨pos, hlt, rfl, hdefined⟩ := (mem_defined_iff _ _).1 hvalue
  obtain ⟨hne, -⟩ := (h.value_ne_iff hlt).1 hdefined
  apply (hits_eq_one_iff (h.minimum_le hlt hne)).2
  exact hasBin_of_pos hpos (h.le_maximum hlt hne (hsamples pos hlt))

/-- The histogram counts every mean once exactly if every mean lies below the last bin or below
twice the maximum. -/
theorem partitions_iff (s : StatsClass) (blocks : ℕ → List ℚ) (h : Stores s blocks) :
    Partitions s.updateMinMax ↔
      ∀ pos < nrOfTrendPoints, blocks pos ≠ [] → mean (blocks pos) ≠ undefinedValue →
        HasBin s.updateMinMax.minimum s.updateMinMax.maximum (mean (blocks pos)) := by
  rw [partitions_iff_hits]
  constructor
  · intro hhits pos hpos hne hset
    have hdefined := (h.value_ne_iff hpos).2 ⟨hne, hset⟩
    have hone := hhits _ ((mem_defined_iff _ _).2 ⟨pos, hpos, rfl, hdefined⟩)
    have hbin := (hits_eq_one_iff (h.minimum_le hpos hne)).1 hone
    rwa [h.value hpos hne] at hbin
  · intro hbins value hvalue
    obtain ⟨pos, hpos, rfl, hdefined⟩ := (mem_defined_iff _ _).1 hvalue
    obtain ⟨hne, hset⟩ := (h.value_ne_iff hpos).1 hdefined
    apply (hits_eq_one_iff (h.minimum_le hpos hne)).2
    have hbin := hbins pos hpos hne hset
    rwa [← h.value hpos hne] at hbin

/-! ## Runs -/

inductive Event
  | addSample (rawValue_ : ℚ)
  | setNrOfSamplesBeforeStore (n : ℤ)
  | clearBuffer
  | renderTrend

def step (s : StatsClass) : Event → StatsClass
  | .addSample rawValue_ => s.addSample rawValue_
  | .setNrOfSamplesBeforeStore n => s.setNrOfSamplesBeforeStore n
  | .clearBuffer => s.clearBuffer
  | .renderTrend => s.renderTrend

/-- The trend points hold some blocks, and the next block will have a sample. -/
structure Stored (s : StatsClass) : Prop where
  blocks : ∃ blocks, Stores s blocks
  size : 1 ≤ s.maxSamplesBeforeStore

/-- A block goes to the trend point `endPtr`. -/
theorem Stores.storeBlock {s : StatsClass} {blocks : ℕ → List ℚ} (h : Stores s blocks)
    (hsize : 1 ≤ s.maxSamplesBeforeStore) :
    Stores s.storeBlock (Function.update blocks s.endPtr
      ((List.range s.maxSamplesBeforeStore).map s.prelimBuffer)) := by
  have hlength : ((List.range s.maxSamplesBeforeStore).map s.prelimBuffer).length =
      s.maxSamplesBeforeStore := by
    rw [List.length_map, List.length_range]
  have hpoint := point_storeBlock hlength (by rwa [hlength]) (by rw [hlength])
  intro pos hpos
  rw [hpoint]
  rcases eq_or_ne pos s.endPtr with rfl | hother
  · have hne : (List.range s.maxSamplesBeforeStore).map s.prelimBuffer ≠ [] := by
      apply List.length_pos_iff.1
      rwa [hlength]
    rw [Function.update_self, Function.update_self, if_neg hne]
  · rw [Function.update_of_ne hother, Function.update_of_ne hother]
    exact h pos hpos

theorem stored_init (prelimBuffer value : ℕ → ℚ) (valueExt : ℕ → ℚ × ℚ) :
    Stored (boot prelimBuffer value valueExt).init where
  blocks := by
    refine ⟨fun _ => [], fun pos hpos => ?_⟩
    simp only [StatsClass.init, StatsClass.clearBuffer, StatsClass.point, hpos, if_true, unset]
  size := Nat.succ_pos 4

/-- Whatever happens, the trend points hold blocks. -/
theorem step_stored (s : StatsClass) (e : Event) (h : Stored s) : Stored (step s e) := by
  obtain ⟨⟨blocks, hblocks⟩, hsize⟩ := h
  cases e with
  | addSample x =>
      have hbuffered : Stores (s.bufferSample x) blocks := hblocks
      rcases lt_or_ge (s.prelimSamplesCounter + 1) s.maxSamplesBeforeStore with hshort | hfull
      · have hwait : step s (.addSample x) = s.bufferSample x := addSample_of_lt hshort x
        rw [hwait]
        exact ⟨⟨blocks, hbuffered⟩, hsize⟩
      · have hcomplete : step s (.addSample x) = (s.bufferSample x).completeBlock :=
          addSample_of_ge hfull x
        rw [hcomplete, completeBlock_eq]
        exact ⟨⟨_, hbuffered.storeBlock hsize⟩, hsize⟩
  | setNrOfSamplesBeforeStore n =>
      exact ⟨⟨blocks, hblocks⟩, (StatsBlocks.setNrOfSamplesBeforeStore_size s n).1⟩
  | clearBuffer =>
      refine ⟨⟨fun _ => [], fun pos hpos => ?_⟩, hsize⟩
      simp only [step, StatsClass.clearBuffer, StatsClass.point, hpos, if_true, unset]
  | renderTrend => exact ⟨⟨blocks, hblocks⟩, hsize⟩

/-- In every state of every run the trend points hold blocks, so `partitions_iff` is about all of
them. -/
theorem always_stored (prelimBuffer value : ℕ → ℚ) (valueExt : ℕ → ℚ × ℚ) (es : List Event) :
    Always step Stored (boot prelimBuffer value valueExt).init es :=
  always_of_step step_stored (stored_init prelimBuffer value valueExt) es

instance (s : StatsClass) (blocks : ℕ → List ℚ) : Decidable (Stores s blocks) :=
  inferInstanceAs (Decidable (∀ pos < nrOfTrendPoints, _))

/-- Six samples, stored as blocks of two. -/
def paired : StatsClass :=
  exec step (boot (fun _ => 0) (fun _ => 0) fun _ => (0, 0)).init
    (.setNrOfSamplesBeforeStore 2 :: [1, 3, -6, 8, 40, 2].map .addSample)

def pairs (pos : ℕ) : List ℚ :=
  if pos = 0 then [1, 3] else if pos = 1 then [-6, 8] else if pos = 2 then [40, 2] else []

/-- The means 2, 1 and 21 of three blocks are counted. -/
theorem partitions_iff_pairs : Stores paired pairs ∧ Partitions paired.updateMinMax := by
  have hstores : Stores paired pairs := by decide +kernel
  exact ⟨hstores, (partitions_iff _ _ hstores).2 (by decide +kernel)⟩

/-- A single sample, stored as a block. -/
def sampled (x : ℚ) : StatsClass :=
  exec step (boot (fun _ => 0) (fun _ => 0) fun _ => (0, 0)).init
    [.setNrOfSamplesBeforeStore 1, .addSample x]

def sampledBlock (x : ℚ) (pos : ℕ) : List ℚ := if pos = 0 then [x] else []

/-- The mean of one negative sample is in no bin. -/
theorem negative_not_counted :
    Stores (sampled (-5)) (sampledBlock (-5)) ∧ defined (sampled (-5)).updateMinMax = [-5] ∧
      ¬Partitions (sampled (-5)).updateMinMax := by
  refine ⟨by decide +kernel, by decide +kernel, fun h => ?_⟩
  exact absurd h.total (by decide +kernel)

end Histogram
end PoorMansSmu
