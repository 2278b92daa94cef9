import PoorMansSmu.MovingAverage

/-!
# BlockAverage — the filter that does not move

Without `moving`, `updateMean` fills the first `filterSize` entries and leaves the mean alone.  The
call that finds them full begins again with none, and goes on to the code of the moving average: that
moves the entries up by one, drops the last one and puts the sample in front.

So a mean comes with every `filterSize + 1` samples, of all of these but the last one that was
filled in (`updateMean_publishes`).  It is never the mean of `filterSize` samples that follow one
another (`averages_blocks_iff`).
-/

namespace PoorMansSmu
namespace BlockAverage

open Filters MovingAverage Run

/-- A filter that does not move, and the samples since its mean last changed, newest first. -/
structure Collecting where
  f : FiltersClass
  since : List ℚ := []

/-- The call goes on to calculate the mean. -/
def Publishes (f : FiltersClass) : Prop := ¬ f.mean_samples < f.filterSize.val

instance (f : FiltersClass) : Decidable (Publishes f) := inferInstanceAs (Decidable (¬ _))

def step (c : Collecting) (v : ℚ) : Collecting :=
  { f := c.f.updateMean v false
    since := if Publishes c.f then [] else v :: c.since }

/-- A filter of some size that has collected nothing; what it holds from before may be anything. -/
def start (meanRaws : ℕ → ℚ) (mean : ℚ) (filterSize : FilterSize) : Collecting :=
  { f := { meanRaws := meanRaws, filterSize := filterSize, mean := mean } }

/-- The call changes the mean just when it completes `filterSize` samples, and then to the average of
these. -/
structure AveragesBlock (c : Collecting) (v : ℚ) : Prop where
  publishes : Publishes c.f ↔ (v :: c.since).length = c.f.filterSize.val
  mean : (c.f.updateMean v false).mean =
    if Publishes c.f then (v :: c.since).sum / c.f.filterSize.val else c.f.mean

/-! ## One call -/

section Call

variable {f : FiltersClass}

theorem updateMean_collect (h : f.mean_samples < f.filterSize.val) (v : ℚ) :
    f.updateMean v false =
      { f with
        meanRaws := Function.update f.meanRaws f.mean_samples v
        mean_samples := f.mean_samples + 1 } :=
  if_pos ⟨rfl, h⟩

/-- The mean is calculated as for a filter that moves. -/
theorem updateMean_publish (h : Publishes f) (v : ℚ) :
    f.updateMean v false = { movingStep f v with mean_samples := 0 } :=
  if_neg fun hfill => h hfill.2

end Call

/-- The filter holds the samples it has collected, the oldest one first. -/
structure Collected (c : Collecting) : Prop where
  count : c.f.mean_samples = c.since.length
  room : c.since.length ≤ c.f.filterSize.val
  stored : ∀ i < c.since.length, c.since.reverse[i]? = some (c.f.meanRaws i)

section Collected

variable {c : Collecting}

theorem collected_start (meanRaws : ℕ → ℚ) (mean : ℚ) (filterSize : FilterSize) :
    Collected (start meanRaws mean filterSize) where
  count := rfl
  room := Nat.zero_le _
  stored := fun i hi => absurd hi (Nat.not_lt_zero i)

theorem Collected.publishes_iff (h : Collected c) :
    Publishes c.f ↔ c.since.length = c.f.filterSize.val := by
  have hroom := h.room
  unfold Publishes
  rw [h.count]
  omega

theorem Collected.step (h : Collected c) (v : ℚ) : Collected (step c v) := by
  unfold BlockAverage.step
  by_cases hpublishes : Publishes c.f
  · rw [if_pos hpublishes, updateMean_publish hpublishes]
    exact ⟨rfl, Nat.zero_le _, fun i hi => absurd hi (Nat.not_lt_zero i)⟩
  · have hfill : c.f.mean_samples < c.f.filterSize.val := not_not.1 hpublishes
    have hcount := h.count
    rw [if_neg hpublishes, updateMean_collect hfill]
    refine ⟨congrArg (· + 1) hcount, ?_, ?_⟩
    · rw [hcount] at hfill
      exact hfill
    · intro i hi
      have hreverse : c.since.reverse.length = c.since.length := List.length_reverse
      dsimp only
      rw [List.reverse_cons, hcount]
      rcases Nat.lt_succ_iff_lt_or_eq.1 hi with hlt | rfl
      · rw [List.getElem?_append_left (by omega), Function.update_of_ne (Nat.ne_of_lt hlt)]
        exact h.stored i hlt
      · rw [Function.update_self, ← hreverse, List.getElem?_concat_length]

/-- The last sample collected, the first one of the list, is not in the mean. -/
theorem Collected.mean_eq (h : Collected c) (hpublishes : Publishes c.f) (v : ℚ) :
    (c.f.updateMean v false).mean = (v + c.since.tail.sum) / c.f.filterSize.val := by
  have hfull := h.publishes_iff.1 hpublishes
  have hpos : 1 ≤ c.f.filterSize.val := c.f.filterSize.property.1
  have hlength : (v :: c.since.tail.reverse).length = c.f.filterSize.val := by
    rw [List.length_cons, List.length_reverse, List.length_tail]
    omega
  have hentries : ∀ i (hi : i < (v :: c.since.tail.reverse).length),
      (movingStep c.f v).meanRaws i = (v :: c.since.tail.reverse)[i] := by
    intro i hi
    rw [movingStep_meanRaws]
    cases i with
    | zero => rfl
    | succ i =>
        have hstored := h.stored i (by omega)
        have htail : c.since.tail.length = c.since.length - 1 := List.length_tail
        have hsince : c.since.reverse = c.since.tail.reverse ++ c.since.head?.toList := by
          cases c.since with
          | nil => rfl
          | cons y ys => exact List.reverse_cons
        rw [hsince, List.getElem?_append_left (by rw [List.length_reverse]; omega),
          List.getElem?_eq_some_iff] at hstored
        rcases hstored with ⟨hlt, hstored⟩
        rw [if_neg (Nat.succ_ne_zero i), if_pos (by omega), Nat.add_sub_cancel,
          List.getElem_cons_succ, hstored]
  have htotal := total_eq_sum (v :: c.since.tail.reverse) hentries
  rw [updateMean_publish hpublishes]
  show (movingStep c.f v).mean = _
  rw [movingStep_mean, ← hlength, htotal, List.sum_cons, List.sum_reverse]

end Collected

/-! ## Runs -/

/-- In every run: a call changes the mean just when `filterSize` samples have come before it since
the last change.  The new mean is that of these samples and the one of the call, but for the last of
the former. -/
theorem updateMean_publishes (meanRaws : ℕ → ℚ) (mean : ℚ) (filterSize : FilterSize)
    (samples : List ℚ) :
    Guarded step
      (fun c v =>
        (Publishes c.f ↔ c.since.length = c.f.filterSize.val) ∧
          (c.f.updateMean v false).mean =
            if Publishes c.f then (v + c.since.tail.sum) / c.f.filterSize.val else c.f.mean)
      (start meanRaws mean filterSize) samples := by
  refine guarded_of_step (I := Collected) (fun _ v hc => hc.step v) ?_
    (collected_start meanRaws mean filterSize) samples
  intro c v hc
  refine ⟨hc.publishes_iff, ?_⟩
  by_cases hpublishes : Publishes c.f
  · rw [if_pos hpublishes]
    exact hc.mean_eq hpublishes v
  · rw [if_neg hpublishes, updateMean_collect (not_not.1 hpublishes)]

/-- The calls are as they should be until `filterSize` samples have come. -/
theorem Collected.averages_iff {c : Collecting} (h : Collected c)
    (hroom : c.since.length < c.f.filterSize.val) (samples : List ℚ) :
    Guarded BlockAverage.step AveragesBlock c samples ↔
      c.since.length + samples.length < c.f.filterSize.val := by
  induction samples generalizing c with
  | nil => exact iff_of_true trivial hroom
  | cons v samples ih =>
      have hnot : ¬ Publishes c.f := fun hpublishes => by
        have hfull := h.publishes_iff.1 hpublishes
        omega
      rw [guarded_cons, List.length_cons]
      by_cases hlast : c.since.length + 1 = c.f.filterSize.val
      · -- the mean should change with this sample
        refine iff_of_false (fun hboth => hnot (hboth.1.publishes.2 hlast)) ?_
        omega
      · have hstep : BlockAverage.step c v =
            { f := c.f.updateMean v false, since := v :: c.since } := by
          rw [BlockAverage.step, if_neg hnot]
        have hnext := ih (h.step v)
        rw [hstep, List.length_cons, FiltersClass.updateMean_filterSize] at hnext
        have haverages : AveragesBlock c v := by
          refine ⟨iff_of_false hnot hlast, ?_⟩
          rw [if_neg hnot, updateMean_collect (not_not.1 hnot)]
        rw [hstep, hnext (by omega)]
        constructor
        · rintro ⟨-, hfew⟩
          omega
        · intro hfew
          exact ⟨haverages, by omega⟩

/-- Every call changes the mean just when it completes `filterSize` samples, to the average of these,
exactly in the runs that are too short to complete them once. -/
theorem averages_blocks_iff (meanRaws : ℕ → ℚ) (mean : ℚ) (filterSize : FilterSize)
    (samples : List ℚ) :
    Guarded step AveragesBlock (start meanRaws mean filterSize) samples ↔
      samples.length < filterSize.val := by
  have hnone : (start meanRaws mean filterSize).since.length = 0 := rfl
  have h := (collected_start meanRaws mean filterSize).averages_iff filterSize.property.1 samples
  rwa [hnone, Nat.zero_add] at h

/-- A filter of two: the mean stays with the second sample, and with the third one it is that of the
first and the third. -/
theorem not_averages_blocks :
    (Run.exec step (start (fun _ => 0) 0 ⟨2, by decide⟩) [10, 20]).f.mean = 0 ∧
      (Run.exec step (start (fun _ => 0) 0 ⟨2, by decide⟩) [10, 20, 60]).f.mean = 35 ∧
      ¬ Guarded step AveragesBlock (start (fun _ => 0) 0 ⟨2, by decide⟩) [10, 20] := by
  refine ⟨by decide +kernel, by decide +kernel, ?_⟩
  rintro ⟨-, haverages, -⟩
  exact absurd (haverages.publishes.2 rfl) (by decide +kernel)

end BlockAverage
end PoorMansSmu
