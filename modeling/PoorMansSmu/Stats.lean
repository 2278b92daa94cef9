import PoorMansSmu.Lib.Extremes
import PoorMansSmu.Lib.RingBuffer
import PoorMansSmu.Lib.Run
import PoorMansSmu.Operations
import Mathlib.Algebra.Order.BigOperators.Group.List
import Mathlib.Algebra.BigOperators.Group.List.Lemmas
import Mathlib.Tactic.Linarith
import Mathlib.Tactic.FieldSimp
import Mathlib.Tactic.SplitIfs

/-!
# Stats — extremes and means of the last blocks of samples

`StatsClass` collects `maxSamplesBeforeStore` samples in a preliminary buffer, and then stores their
mean, minimum and maximum in a ring of 75 trend points.  A number that no sample reaches marks the
points that are not set.  With every block the extremes over all points are computed anew.

The result is `figures_window`: with blocks of a fixed size, the figures shown are those of the last
75 blocks, or of all blocks while there are fewer.
-/

namespace PoorMansSmu
namespace Stats

open RingBuffer Extremes Run

/-! ## StatsClass -/

/-- `MAX_FULL_SAMPLES` -/
def nrOfTrendPoints : ℕ := 75

def MAX_PRELIMBUFFER_SIZE : ℕ := 1000

/-- Just a way to indicate that a value is not set. -/
def undefinedValue : ℚ := 1000000

structure StatsClass where
  prelimBuffer : ℕ → ℚ
  maxSamplesBeforeStore : ℕ := 5
  endPtr : ℕ := 0
  value : ℕ → ℚ
  /-- Minimum and maximum of each block. -/
  valueExt : ℕ → ℚ × ℚ
  prelimSamplesCounter : ℕ := 0
  rawValue : ℚ := 0
  minimum : ℚ := 0
  maximum : ℚ := 0
  minimumMean : ℚ := 0
  maximumMean : ℚ := 0
  span : ℚ := 0

/-- The loop of `addSample` over the preliminary samples, from sample `i` on with `n` to go:
minimum, maximum and total. -/
def prelimLoop (prelimBuffer : ℕ → ℚ) : (n i : ℕ) → (lo hi tot : ℚ) → ℚ × ℚ × ℚ
  | 0, _, lo, hi, tot => (lo, hi, tot)
  | n + 1, i, lo, hi, tot =>
      let tot := tot + prelimBuffer i
      let lo := if prelimBuffer i ≤ lo then prelimBuffer i else lo
      let hi := if prelimBuffer i > hi then prelimBuffer i else hi
      prelimLoop prelimBuffer n (i + 1) lo hi tot

/-- The loops of `updateMinMax` that look for a minimum. -/
def minLoop (entry : ℕ → ℚ) : ℚ :=
  (List.range nrOfTrendPoints).foldl
    (fun m i => if entry i ≤ m ∧ entry i ≠ undefinedValue then entry i else m) undefinedValue

/-- The loops of `updateMinMax` that look for a maximum. -/
def maxLoop (entry : ℕ → ℚ) : ℚ :=
  (List.range nrOfTrendPoints).foldl
    (fun m i => if entry i ≥ m ∧ entry i ≠ undefinedValue then entry i else m) (-undefinedValue)

namespace StatsClass

def clearBuffer (s : StatsClass) : StatsClass :=
  { s with
    value := fun pos => if pos < nrOfTrendPoints then undefinedValue else s.value pos
    valueExt := fun pos =>
      if pos < nrOfTrendPoints then (undefinedValue, undefinedValue) else s.valueExt pos }

def init (s : StatsClass) : StatsClass := s.clearBuffer

def updateMinMax (s : StatsClass) : StatsClass :=
  { s with
    minimumMean := minLoop s.value
    maximumMean := maxLoop s.value
    minimum := minLoop fun i => (s.valueExt i).1
    maximum := maxLoop fun i => (s.valueExt i).2 }

/-- Store the preliminary samples as the trend point `endPtr`. -/
def storeBlock (s : StatsClass) : StatsClass :=
  let first := s.prelimBuffer 0
  let (lo, hi, tot) := prelimLoop s.prelimBuffer (s.maxSamplesBeforeStore - 1) 1 first first first
  { s with
    valueExt := Function.update s.valueExt s.endPtr (lo, hi)
    value := Function.update s.value s.endPtr (tot / s.maxSamplesBeforeStore) }

/-- A sample goes to the preliminary buffer. -/
def bufferSample (s : StatsClass) (rawValue_ : ℚ) : StatsClass :=
  { s with
    rawValue := rawValue_
    prelimBuffer := Function.update s.prelimBuffer s.prelimSamplesCounter rawValue_
    prelimSamplesCounter := s.prelimSamplesCounter + 1 }

/-- What follows when the preliminary buffer is full. -/
def completeBlock (s : StatsClass) : StatsClass :=
  let s := { s.storeBlock with prelimSamplesCounter := 0 }.updateMinMax
  let s := { s with span := s.maximum - s.minimum }
  let endPtr := s.endPtr + 1
  { s with endPtr := if endPtr > nrOfTrendPoints - 1 then 0 else endPtr }

def addSample (s : StatsClass) (rawValue_ : ℚ) : StatsClass :=
  let s := s.bufferSample rawValue_
  if s.prelimSamplesCounter < s.maxSamplesBeforeStore then s else s.completeBlock

def setNrOfSamplesBeforeStore (s : StatsClass) (n : ℤ) : StatsClass :=
  let n := if n < 1 then 1 else n
  let n := if n > MAX_PRELIMBUFFER_SIZE then (MAX_PRELIMBUFFER_SIZE : ℤ) else n
  { s with maxSamplesBeforeStore := n.toNat }

/-- Drawing the trend leaves the extremes cut to thousandths. -/
def renderTrend (s : StatsClass) : StatsClass :=
  { s with
    maximum := truncate (s.maximum * 1000) / 1000
    minimum := truncate (s.minimum * 1000) / 1000 }

/-- A trend point: mean, minimum and maximum. -/
def point (s : StatsClass) (i : ℕ) : ℚ × ℚ × ℚ := (s.value i, s.valueExt i)

end StatsClass

/-- The object at power-up; what stands in its arrays may be anything. -/
def boot (prelimBuffer value : ℕ → ℚ) (valueExt : ℕ → ℚ × ℚ) : StatsClass :=
  { prelimBuffer, value, valueExt }

/-! ## Blocks -/

def mean (b : List ℚ) : ℚ := b.sum / b.length

/-- What the trend point of a block is to hold. -/
def summary (b : List ℚ) : ℚ × ℚ × ℚ := (mean b, b.min?.getD 0, b.max?.getD 0)

section Summary

variable {b : List ℚ} (hb : b ≠ [])

include hb

theorem isLeast_summary : IsLeast {x | x ∈ b} (summary b).2.1 := by
  obtain ⟨m, hm⟩ := Option.isSome_iff_exists.1 (List.isSome_min?_of_ne_nil hb)
  have hleast := List.min?_eq_some_iff.1 hm
  rw [summary, hm]
  exact hleast

theorem isGreatest_summary : IsGreatest {x | x ∈ b} (summary b).2.2 := by
  obtain ⟨m, hm⟩ := Option.isSome_iff_exists.1 (List.isSome_max?_of_ne_nil hb)
  have hgreatest := List.max?_eq_some_iff.1 hm
  rw [summary, hm]
  exact hgreatest

/-- The mean lies between the extremes. -/
theorem summary_mean_mem : (summary b).2.1 ≤ mean b ∧ mean b ≤ (summary b).2.2 := by
  have hlow := (isLeast_summary hb).2
  have hhigh := (isGreatest_summary hb).2
  have hlength : (0 : ℚ) < b.length := Nat.cast_pos.2 (List.length_pos_iff.2 hb)
  have hge := b.card_nsmul_le_sum (summary b).2.1 fun x hx => hlow hx
  have hle := b.sum_le_card_nsmul (summary b).2.2 fun x hx => hhigh hx
  rw [nsmul_eq_mul] at hge hle
  unfold mean
  constructor
  · rw [le_div_iff₀ hlength, mul_comm]
    exact hge
  · rw [div_le_iff₀ hlength, mul_comm]
    exact hle

end Summary

/-- Minimum, maximum and total of some samples. -/
structure Extent (b : List ℚ) (r : ℚ × ℚ × ℚ) : Prop where
  least : IsLeast {x | x ∈ b} r.1
  greatest : IsGreatest {x | x ∈ b} r.2.1
  total : r.2.2 = b.sum

/-- One round of the loop takes one more sample into account. -/
theorem Extent.concat {b : List ℚ} {lo hi tot : ℚ} (h : Extent b (lo, hi, tot)) (x : ℚ) :
    Extent (b ++ [x]) (if x ≤ lo then x else lo, if x > hi then x else hi, tot + x) where
  least := by
    have hmin := isLeast_concat h.least x
    rwa [min_def] at hmin
  greatest := by
    have hmax := isGreatest_concat h.greatest x
    rw [max_comm, max_def_lt] at hmax
    exact hmax
  total := by
    rw [List.sum_append, List.sum_singleton, ← h.total]

theorem prelimLoop_extent (prelimBuffer : ℕ → ℚ) (n i : ℕ) {lo hi tot : ℚ}
    (h : Extent ((List.range i).map prelimBuffer) (lo, hi, tot)) :
    Extent ((List.range (i + n)).map prelimBuffer) (prelimLoop prelimBuffer n i lo hi tot) := by
  induction n generalizing i lo hi tot with
  | zero => exact h
  | succ n ih =>
      have hnext := h.concat (prelimBuffer i)
      rw [← List.map_singleton, ← List.map_append, ← List.range_succ] at hnext
      have hrest := ih (i + 1) hnext
      rw [Nat.succ_add_eq_add_succ] at hrest
      exact hrest

/-- A block that is stored as a trend point is summarised there. -/
theorem point_storeBlock {s : StatsClass} {b : List ℚ}
    (hlength : b.length = s.maxSamplesBeforeStore) (hpos : 1 ≤ b.length)
    (hbuffer : (List.range b.length).map s.prelimBuffer = b) :
    s.storeBlock.point = Function.update s.point s.endPtr (summary b) := by
  have hne : b ≠ [] := List.length_pos_iff.1 hpos
  -- the loop starts from the first sample and takes the others into account
  have hfirst : Extent ((List.range 1).map s.prelimBuffer)
      (s.prelimBuffer 0, s.prelimBuffer 0, s.prelimBuffer 0) := by
    constructor <;> simp
  have hextent := prelimLoop_extent s.prelimBuffer (s.maxSamplesBeforeStore - 1) 1 hfirst
  rw [← hlength, Nat.add_sub_cancel' hpos, hbuffer] at hextent
  have hlo := hextent.least.unique (isLeast_summary hne)
  have hhi := hextent.greatest.unique (isGreatest_summary hne)
  funext i
  simp only [StatsClass.storeBlock, StatsClass.point, ← hlength, hlo, hhi, hextent.total]
  -- other points stay as they are
  by_cases hi : i = s.endPtr
  · subst hi
    simp [summary, mean]
  · simp only [Function.update_of_ne hi, StatsClass.point]

theorem addSample_of_lt {s : StatsClass} (h : s.prelimSamplesCounter + 1 < s.maxSamplesBeforeStore)
    (x : ℚ) : s.addSample x = s.bufferSample x :=
  if_pos h

theorem addSample_of_ge {s : StatsClass} (h : s.maxSamplesBeforeStore ≤ s.prelimSamplesCounter + 1)
    (x : ℚ) : s.addSample x = (s.bufferSample x).completeBlock :=
  if_neg (Nat.not_lt_of_le h)

/-- Completing a block leaves the buffer and the block size as they are. -/
theorem completeBlock_eq (s : StatsClass) :
    s.completeBlock = { s with
      value := s.storeBlock.value
      valueExt := s.storeBlock.valueExt
      prelimSamplesCounter := 0
      minimumMean := minLoop s.storeBlock.value
      maximumMean := maxLoop s.storeBlock.value
      minimum := minLoop fun i => (s.storeBlock.valueExt i).1
      maximum := maxLoop fun i => (s.storeBlock.valueExt i).2
      span := (maxLoop fun i => (s.storeBlock.valueExt i).2) -
        minLoop fun i => (s.storeBlock.valueExt i).1
      endPtr := if s.endPtr + 1 > nrOfTrendPoints - 1 then 0 else s.endPtr + 1 } := by
  have hframe : s.storeBlock =
      { s with value := s.storeBlock.value, valueExt := s.storeBlock.valueExt } := rfl
  unfold StatsClass.completeBlock
  rw [hframe]
  simp only [StatsClass.updateMinMax]
  congr 1

/-! ## Collecting -/

/-- A trend point that is not set. -/
def unset : ℚ × ℚ × ℚ := (undefinedValue, undefinedValue, undefinedValue)

/-- The figures are those of the trend points. -/
structure UpToDate (s : StatsClass) : Prop where
  minimumMean : s.minimumMean = minLoop fun i => (s.point i).1
  maximumMean : s.maximumMean = maxLoop fun i => (s.point i).1
  minimum : s.minimum = minLoop fun i => (s.point i).2.1
  maximum : s.maximum = maxLoop fun i => (s.point i).2.2
  span : s.span = s.maximum - s.minimum

/-- After the blocks `bs`, with the samples `rest` waiting for the next one. -/
structure Collected (s : StatsClass) (size : ℕ) (bs : List (List ℚ)) (rest : List ℚ) : Prop where
  blockSize : s.maxSamplesBeforeStore = size
  full : ∀ b ∈ bs, b.length = size
  waiting : rest.length < size
  counter : s.prelimSamplesCounter = rest.length
  buffer : (List.range rest.length).map s.prelimBuffer = rest
  endPtr : s.endPtr = bs.length % nrOfTrendPoints
  holds : Holds nrOfTrendPoints s.point (bs.map summary)
  empty : ∀ i, bs.length ≤ i → i < nrOfTrendPoints → s.point i = unset

/-- A sample that is waiting is the last one in the buffer. -/
theorem buffer_concat {buffer : ℕ → ℚ} {rest : List ℚ}
    (h : (List.range rest.length).map buffer = rest) (x : ℚ) :
    (List.range (rest ++ [x]).length).map (Function.update buffer rest.length x) = rest ++ [x] := by
  have hold : (List.range rest.length).map (Function.update buffer rest.length x) = rest := by
    calc
      _ = (List.range rest.length).map buffer := by
            refine List.map_congr_left fun i hi => ?_
            rw [Function.update_of_ne (Nat.ne_of_lt (List.mem_range.1 hi))]
      _ = rest := h
  rw [List.length_append, List.length_singleton, List.range_succ, List.map_append, hold,
    List.map_singleton, Function.update_self]

section AddSample

variable {s : StatsClass} {size : ℕ} {bs : List (List ℚ)} {rest : List ℚ}
  (h : Collected s size bs rest) (x : ℚ)

include h

/-- A sample that does not complete the block waits. -/
theorem Collected.wait (hshort : rest.length + 1 < size) :
    Collected (s.addSample x) size bs (rest ++ [x]) := by
  have hcounter := h.counter
  have hsize := h.blockSize
  rw [addSample_of_lt (by omega)]
  exact { h with
    waiting := by rwa [List.length_append, List.length_singleton]
    counter := by
      rw [List.length_append, List.length_singleton, ← hcounter]
      rfl
    buffer := by
      rw [StatsClass.bufferSample, hcounter]
      exact buffer_concat h.buffer x }

/-- A sample that completes the block stores it. -/
theorem Collected.complete (hfull : rest.length + 1 = size) :
    Collected (s.addSample x) size (bs ++ [rest ++ [x]]) [] ∧ UpToDate (s.addSample x) := by
  have hcounter := h.counter
  have hsize := h.blockSize
  have hlength : (rest ++ [x]).length = size := by
    rw [List.length_append, List.length_singleton]
    exact hfull
  have hpoint : (s.bufferSample x).storeBlock.point =
      Function.update s.point s.endPtr (summary (rest ++ [x])) := by
    refine point_storeBlock (s := s.bufferSample x) (b := rest ++ [x])
      (hlength.trans hsize.symm) (by omega) ?_
    rw [StatsClass.bufferSample, hcounter]
    exact buffer_concat h.buffer x
  rw [addSample_of_ge (by omega), completeBlock_eq]
  have hslots : nrOfTrendPoints = 75 := rfl
  have hptr := h.endPtr
  refine ⟨?_, by constructor <;> simp only [StatsClass.point]⟩
  constructor
  case blockSize => exact hsize
  case full =>
    intro b hb
    rcases List.mem_append.1 hb with hold | hnew
    · exact h.full b hold
    · rw [List.mem_singleton.1 hnew]
      exact hlength
  case waiting => exact Nat.lt_of_lt_of_le (Nat.succ_pos _) hfull.le
  case counter => rfl
  case buffer => rfl
  case endPtr =>
    rw [List.length_append, List.length_singleton]
    simp only [StatsClass.bufferSample, hptr, hslots]
    split_ifs <;> omega
  case holds =>
    have hpush := h.holds.push (summary (rest ++ [x]))
    rw [List.length_map, ← hptr, ← hpoint] at hpush
    rw [List.map_append, List.map_singleton]
    exact hpush
  case empty =>
    intro i hi hslot
    rw [List.length_append, List.length_singleton] at hi
    -- before the ring has gone round, points are set in the order of their numbers
    have hother : i ≠ s.endPtr := by
      rw [hptr, Nat.mod_eq_of_lt (by omega)]
      omega
    have hsame : (s.bufferSample x).storeBlock.point i = s.point i := by
      rw [hpoint, Function.update_of_ne hother]
    exact hsame.trans (h.empty i (by omega) hslot)

end AddSample

/-! ## Runs -/

inductive Event
  | addSample (rawValue_ : ℚ)
  | renderTrend

def step (s : StatsClass) : Event → StatsClass
  | .addSample rawValue_ => s.addSample rawValue_
  | .renderTrend => s.renderTrend

def Event.sample? : Event → Option ℚ
  | .addSample rawValue_ => some rawValue_
  | .renderTrend => none

def samples (es : List Event) : List ℚ := es.filterMap Event.sample?

theorem samples_concat_addSample (es : List Event) (x : ℚ) :
    samples (es ++ [.addSample x]) = samples es ++ [x] :=
  List.filterMap_append

theorem samples_concat_renderTrend (es : List Event) :
    samples (es ++ [.renderTrend]) = samples es :=
  List.filterMap_append.trans (List.append_nil _)

/-- After `init`, with the given number of samples in a block. -/
def start (prelimBuffer value : ℕ → ℚ) (valueExt : ℕ → ℚ × ℚ) (size : ℕ) : StatsClass :=
  (boot prelimBuffer value valueExt).init.setNrOfSamplesBeforeStore size

/-- The last of the samples that fill some blocks is the last of the last block. -/
theorem flatten_concat {size : ℕ} (hpos : 1 ≤ size) {bs : List (List ℚ)}
    (hfull : ∀ b ∈ bs, b.length = size) {xs : List ℚ} {x : ℚ} (h : xs ++ [x] = bs.flatten) :
    ∃ bs' b, bs = bs' ++ [b ++ [x]] ∧ xs = bs'.flatten ++ b := by
  rcases List.eq_nil_or_concat' bs with rfl | ⟨bs', c, rfl⟩
  · exact absurd h (by simp)
  · have hc := hfull c (by simp)
    rcases List.eq_nil_or_concat' c with rfl | ⟨b, y, rfl⟩
    · rw [List.length_nil] at hc
      omega
    · rw [List.flatten_append, List.flatten_singleton, ← List.append_assoc] at h
      obtain ⟨hxs, hlast⟩ := List.append_inj' h rfl
      obtain rfl := List.singleton_inj.1 hlast
      exact ⟨bs', b, rfl, hxs⟩

section Runs

variable (prelimBuffer value : ℕ → ℚ) (valueExt : ℕ → ℚ × ℚ) {size : ℕ}
  (hpos : 1 ≤ size) (hmax : size ≤ MAX_PRELIMBUFFER_SIZE)

include hpos hmax

theorem collected_start : Collected (start prelimBuffer value valueExt size) size [] [] where
  blockSize := by
    have hlow : ¬(size : ℤ) < 1 := by omega
    have hhigh : ¬(size : ℤ) > MAX_PRELIMBUFFER_SIZE := by omega
    simp only [start, StatsClass.setNrOfSamplesBeforeStore, if_neg hlow, if_neg hhigh,
      Int.toNat_natCast]
  full := by
    intro b hb
    exact absurd hb List.not_mem_nil
  waiting := hpos
  counter := rfl
  buffer := rfl
  endPtr := rfl
  holds := holds_nil _
  empty := by
    intro i _ hi
    have hvalue : (start prelimBuffer value valueExt size).value i = undefinedValue := if_pos hi
    have hext : (start prelimBuffer value valueExt size).valueExt i =
        (undefinedValue, undefinedValue) := if_pos hi
    rw [StatsClass.point, hvalue, hext]
    rfl

/-- Whatever is drawn in between, the samples are collected in blocks.  The induction is on the
last event: it either completes the last block or is the last one that waits. -/
theorem collected_run (es : List Event) (bs : List (List ℚ)) (rest : List ℚ)
    (hfull : ∀ b ∈ bs, b.length = size) (hrest : rest.length < size)
    (hsamples : samples es = bs.flatten ++ rest) :
    Collected (exec step (start prelimBuffer value valueExt size) es) size bs rest := by
  induction es using List.reverseRecOn generalizing bs rest with
  | nil =>
      obtain ⟨hflatten, rfl⟩ := List.append_eq_nil_iff.1 hsamples.symm
      have hbs : bs = [] := by
        refine List.eq_nil_iff_forall_not_mem.2 fun b hb => ?_
        have hlength := hfull b hb
        rw [List.flatten_eq_nil_iff.1 hflatten b hb, List.length_nil] at hlength
        omega
      subst hbs
      exact collected_start prelimBuffer value valueExt hpos hmax
  | append_singleton es e ih =>
      rw [exec_append]
      cases e with
      | renderTrend =>
          rw [samples_concat_renderTrend] at hsamples
          exact { ih bs rest hfull hrest hsamples with }
      | addSample x =>
          rw [samples_concat_addSample] at hsamples
          rcases List.eq_nil_or_concat' rest with rfl | ⟨rest', x', rfl⟩
          · -- none waits: the sample is the last one of the last block
            rw [List.append_nil] at hsamples
            obtain ⟨bs', b, rfl, hbefore⟩ := flatten_concat hpos hfull hsamples
            have hb := hfull (b ++ [x]) (by simp)
            rw [List.length_append, List.length_singleton] at hb
            have hwaiting := ih bs' b (fun c hc => hfull c (by simp [hc])) (by omega) hbefore
            exact (hwaiting.complete x hb).1
          · -- the sample is the last one that waits
            rw [List.length_append, List.length_singleton] at hrest
            rw [← List.append_assoc] at hsamples
            obtain ⟨hbefore, hlast⟩ := List.append_inj' hsamples rfl
            obtain rfl := List.singleton_inj.1 hlast
            exact (ih bs rest' hfull (by omega) hbefore).wait x hrest

end Runs

/-! ## The figures of the last blocks -/

theorem minLoop_eq (entry : ℕ → ℚ) :
    minLoop entry = scanLeast (· ≠ undefinedValue) undefinedValue
      ((List.range nrOfTrendPoints).map entry) := by
  rw [minLoop, scanLeast, List.foldl_map]

theorem maxLoop_eq (entry : ℕ → ℚ) :
    maxLoop entry = scanGreatest (· ≠ undefinedValue) (-undefinedValue)
      ((List.range nrOfTrendPoints).map entry) := by
  rw [maxLoop, scanGreatest, List.foldl_map]

/-- The blocks that are still among the trend points. -/
def lastBlocks (bs : List (List ℚ)) : List (List ℚ) := bs.drop (bs.length - nrOfTrendPoints)

/-- The entries that are set are those of the last blocks. -/
theorem Collected.entries {s : StatsClass} {size : ℕ} {bs : List (List ℚ)} {rest : List ℚ}
    (h : Collected s size bs rest) {entry : ℚ × ℚ × ℚ → ℚ} (hunset : entry unset = undefinedValue)
    (hset : ∀ b ∈ bs, entry (summary b) ≠ undefinedValue) :
    {x | x ∈ (List.range nrOfTrendPoints).map (fun i => entry (s.point i)) ∧ x ≠ undefinedValue} =
      (fun b => entry (summary b)) '' {b | b ∈ lastBlocks bs} := by
  have hlast := h.holds.mem_last_iff
  simp only [List.length_map, ← List.map_drop] at hlast
  ext x
  constructor
  · rintro ⟨hx, hne⟩
    obtain ⟨i, hi, rfl⟩ := List.mem_map.1 hx
    rw [List.mem_range] at hi
    -- a point that is set belongs to a block
    have hused : i < bs.length := by
      by_contra hge
      exact hne (by rw [h.empty i (Nat.le_of_not_lt hge) hi, hunset])
    obtain ⟨b, hb, hpoint⟩ := List.mem_map.1 ((hlast (s.point i)).1 ⟨i, lt_min hused hi, rfl⟩)
    exact ⟨b, hb, congrArg entry hpoint⟩
  · rintro ⟨b, hb, rfl⟩
    obtain ⟨i, hi, hpoint⟩ := (hlast (summary b)).2 (List.mem_map_of_mem hb)
    constructor
    · change entry (summary b) ∈ _
      rw [← hpoint]
      exact List.mem_map_of_mem (List.mem_range.2 (lt_of_lt_of_le hi (min_le_right _ _)))
    · exact hset b (List.mem_of_mem_drop hb)

/-- The figures describe the blocks `last`. -/
structure Describes (s : StatsClass) (last : List (List ℚ)) : Prop where
  minimum : IsLeast {x | ∃ b ∈ last, x ∈ b} s.minimum
  maximum : IsGreatest {x | ∃ b ∈ last, x ∈ b} s.maximum
  minimumMean : IsLeast {x | ∃ b ∈ last, mean b = x} s.minimumMean
  maximumMean : IsGreatest {x | ∃ b ∈ last, mean b = x} s.maximumMean
  span : s.span = s.maximum - s.minimum
  order : s.minimum ≤ s.minimumMean ∧ s.minimumMean ≤ s.maximumMean ∧ s.maximumMean ≤ s.maximum

section Describes

variable {s : StatsClass} {size : ℕ} {bs : List (List ℚ)} {rest : List ℚ}
  (h : Collected s size bs rest) (hne : bs ≠ [])

include h hne

/-- The two loops find the extremes of an entry over the last blocks. -/
theorem Collected.loops (entry : ℚ × ℚ × ℚ → ℚ) (hunset : entry unset = undefinedValue)
    (hset : ∀ b ∈ bs, |entry (summary b)| < undefinedValue) :
    IsLeast ((fun b => entry (summary b)) '' {b | b ∈ lastBlocks bs})
        (minLoop fun i => entry (s.point i)) ∧
      IsGreatest ((fun b => entry (summary b)) '' {b | b ∈ lastBlocks bs})
        (maxLoop fun i => entry (s.point i)) := by
  have hentries := h.entries hunset fun b hb => ne_of_lt (lt_of_abs_lt (hset b hb))
  have hlength : 0 < bs.length := List.length_pos_iff.2 hne
  have hslots : nrOfTrendPoints = 75 := rfl
  -- a block is among the points, and its entry lies between the starting values of the loops
  obtain ⟨b, hb⟩ : ∃ b, b ∈ lastBlocks bs := by
    refine List.exists_mem_of_length_pos ?_
    rw [lastBlocks, List.length_drop]
    omega
  have hmagnitude := hset b (List.mem_of_mem_drop hb)
  have hentry : entry (summary b) ∈ {x | x ∈ (List.range nrOfTrendPoints).map
      (fun i => entry (s.point i)) ∧ x ≠ undefinedValue} := by
    rw [hentries]
    exact Set.mem_image_of_mem _ hb
  rw [← hentries, minLoop_eq, maxLoop_eq]
  constructor
  · exact isLeast_scanLeast ⟨_, hentry.1, hentry.2, lt_of_abs_lt hmagnitude⟩
  · exact isGreatest_scanGreatest ⟨_, hentry.1, hentry.2, neg_lt_of_abs_lt hmagnitude⟩

/-- The figures of the trend points describe the last blocks. -/
theorem Collected.describes (hnew : UpToDate s)
    (hmagnitude : ∀ b ∈ bs, ∀ x ∈ b, |x| < undefinedValue) : Describes s (lastBlocks bs) := by
  have hblock : ∀ b ∈ bs, b ≠ [] := by
    rintro b hb rfl
    have hlength := h.full [] hb
    have hwaiting := h.waiting
    rw [List.length_nil] at hlength
    omega
  have hlow : ∀ b ∈ bs, |(summary b).2.1| < undefinedValue := fun b hb =>
    hmagnitude b hb _ (isLeast_summary (hblock b hb)).1
  have hhigh : ∀ b ∈ bs, |(summary b).2.2| < undefinedValue := fun b hb =>
    hmagnitude b hb _ (isGreatest_summary (hblock b hb)).1
  have hmean : ∀ b ∈ bs, |mean b| < undefinedValue := by
    intro b hb
    obtain ⟨hge, hle⟩ := summary_mean_mem (hblock b hb)
    apply abs_lt.2
    constructor
    · exact (neg_lt_of_abs_lt (hlow b hb)).trans_le hge
    · exact hle.trans_lt (lt_of_abs_lt (hhigh b hb))
  have hin : ∀ b ∈ lastBlocks bs, b ≠ [] := fun b hb => hblock b (List.mem_of_mem_drop hb)
  have hsamples : {x | ∃ b ∈ lastBlocks bs, x ∈ b} =
      ⋃ b ∈ {b | b ∈ lastBlocks bs}, {x | x ∈ b} := by
    ext x
    simp
  -- the extremes of the means and of the blocks' own extremes
  obtain ⟨hleastMean, hgreatestMean⟩ := h.loops hne (fun p => p.1) rfl hmean
  obtain ⟨hleast, -⟩ := h.loops hne (fun p => p.2.1) rfl hlow
  obtain ⟨-, hgreatest⟩ := h.loops hne (fun p => p.2.2) rfl hhigh
  rw [← hnew.minimumMean] at hleastMean
  rw [← hnew.maximumMean] at hgreatestMean
  rw [← hnew.minimum] at hleast
  rw [← hnew.maximum] at hgreatest
  refine ⟨?_, ?_, hleastMean, hgreatestMean, hnew.span, ?_, ?_, ?_⟩
  · rw [hsamples]
    exact isLeast_groups (fun b hb => isLeast_summary (hin b hb)) hleast
  · rw [hsamples]
    exact isGreatest_groups (fun b hb => isGreatest_summary (hin b hb)) hgreatest
  · obtain ⟨b, hb, heq⟩ := hleastMean.1
    have hle := hleast.2 (Set.mem_image_of_mem _ hb)
    exact hle.trans ((summary_mean_mem (hin b hb)).1.trans heq.le)
  · exact hleastMean.2 hgreatestMean.1
  · obtain ⟨b, hb, heq⟩ := hgreatestMean.1
    have hle := hgreatest.2 (Set.mem_image_of_mem _ hb)
    exact heq.ge.trans ((summary_mean_mem (hin b hb)).2.trans hle)

end Describes

/-- With every block that is completed, the figures describe the last 75 blocks. -/
theorem figures_window (prelimBuffer value : ℕ → ℚ) (valueExt : ℕ → ℚ × ℚ) {size : ℕ}
    (hpos : 1 ≤ size) (hmax : size ≤ MAX_PRELIMBUFFER_SIZE) (es : List Event) (x : ℚ)
    (bs : List (List ℚ)) (hfull : ∀ b ∈ bs, b.length = size)
    (hsamples : samples (es ++ [.addSample x]) = bs.flatten)
    (hmagnitude : ∀ y ∈ samples (es ++ [.addSample x]), |y| < undefinedValue) :
    Describes (exec step (start prelimBuffer value valueExt size) (es ++ [.addSample x]))
      (lastBlocks bs) := by
  rw [hsamples] at hmagnitude
  rw [samples_concat_addSample] at hsamples
  obtain ⟨bs', b, rfl, hbefore⟩ := flatten_concat hpos hfull hsamples
  have hb := hfull (b ++ [x]) (by simp)
  rw [List.length_append, List.length_singleton] at hb
  have hwaiting := collected_run prelimBuffer value valueExt hpos hmax es bs' b
    (fun c hc => hfull c (by simp [hc])) (by omega) hbefore
  obtain ⟨hcollected, hnew⟩ := hwaiting.complete x hb
  rw [exec_append]
  refine hcollected.describes (by simp) hnew fun c hc y hy => ?_
  exact hmagnitude y (List.mem_flatten.2 ⟨c, hc, hy⟩)

/-- Blocks of two samples, with the trend drawn in the middle of the second one. -/
theorem figures_window_pairs :
    Describes (exec step (start (fun _ => 0) (fun _ => 0) (fun _ => (0, 0)) 2)
      ([.addSample 1, .addSample 3, .addSample 5, .renderTrend] ++ [.addSample 2]))
      [[1, 3], [5, 2]] :=
  figures_window (fun _ => 0) (fun _ => 0) (fun _ => (0, 0)) (by decide) (by decide)
    [.addSample 1, .addSample 3, .addSample 5, .renderTrend] 2 [[1, 3], [5, 2]] (by decide) rfl
    (by decide +kernel)

end Stats
end PoorMansSmu
