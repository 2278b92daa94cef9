import PoorMansSmu.Lib.Extremes
import PoorMansSmu.Logger
import Mathlib.Algebra.Order.BigOperators.Group.Finset
import Mathlib.Algebra.BigOperators.Ring.Finset

/-!
# ViewLimits — least and greatest entry of the logger's view

`getLastSamples` looks for the greatest entry from -10000 on and for the least one from 10000 on, which
is 10 V in the millivolts that are logged.  The limits are those of the entries exactly when these do
not all lie on the far side of one of the two values (`limits_shown_iff`).
-/

namespace PoorMansSmu
namespace ViewLimits

open Extremes Logger

/-! ## The samples behind the entries -/

/-- Where the walk of `getLastSamples` stands after `n` steps back from `scrollAddress`. -/
def position (l : LoggerClass) (n : ℕ) : ℕ :=
  if n ≤ l.scrollAddress then l.scrollAddress - n
  else if l.full then maxSize - 1 - (n - l.scrollAddress - 1) % maxSize
  else 0

/-- There are `n` records before `scrollAddress`: a full ring is walked round and round. -/
def Reaches (l : LoggerClass) (n : ℕ) : Prop :=
  l.full = true ∨ n ≤ l.scrollAddress

/-- The mean of the `samplesPr` records that belong to entry `i`. -/
def groupMean (l : LoggerClass) (samplesPr i : ℕ) : ℚ :=
  (∑ s ∈ Finset.range samplesPr, (l.adrP (position l (i * samplesPr + s + 1))).value) / samplesPr

/-- The means of the groups that are in the log whole, among the first `n`. -/
def groupMeans (l : LoggerClass) (samplesPr n : ℕ) : Set ℚ :=
  {v | ∃ i < n, Reaches l ((i + 1) * samplesPr) ∧ groupMean l samplesPr i = v}

/-! ## What the view shows -/

/-- The values of the entries of a view that are not padding. -/
def entries (view : ℕ → LogDataWithTimeStamp) (bufferSize : ℕ) : Set ℚ :=
  {v | ∃ i < bufferSize, view i ≠ padding ∧ (view i).value = v}

/-- Limits widened on both sides alike until they are 0.020 apart. -/
def widened (lo hi : ℚ) : ℚ × ℚ :=
  if hi - lo < 0.020 then (lo - (0.020 - (hi - lo)) / 2, hi + (0.020 - (hi - lo)) / 2) else (lo, hi)

/-- The limits are the least and the greatest entry of the view, widened. -/
def LimitsShown (view : ℕ → LogDataWithTimeStamp) (bufferSize : ℕ) (l : LoggerClass) : Prop :=
  ∃ lo hi, IsLeast (entries view bufferSize) lo ∧ IsGreatest (entries view bufferSize) hi ∧
    (l.loggerMinValue, l.loggerMaxValue) = widened lo hi

/-- Widening keeps the middle. -/
theorem widened_add (lo hi : ℚ) : (widened lo hi).1 + (widened lo hi).2 = lo + hi := by
  unfold widened
  split_ifs
  · ring
  · rfl

theorem getLastSamples_limits (l : LoggerClass) (buffer : ℕ → LogDataWithTimeStamp)
    (bufferSize samplesPr : ℕ) :
    ((l.getLastSamples buffer bufferSize samplesPr).2.loggerMinValue,
      (l.getLastSamples buffer bufferSize samplesPr).2.loggerMaxValue) =
    widened (l.fillEntries buffer bufferSize samplesPr).loggerMinValue
      (l.fillEntries buffer bufferSize samplesPr).loggerMaxValue := by
  simp only [LoggerClass.getLastSamples, widened]
  split_ifs
  · rfl
  · rw [zero_div, add_zero, sub_zero]

/-! ## The walk -/

section Walk

variable {l : LoggerClass} {w : View} {n : ℕ}

/-- The walk has made `n` steps. -/
structure Walked (l : LoggerClass) (n : ℕ) (w : View) : Prop where
  lastSampleAdr : w.lastSampleAdr = position l n
  fillEmpty : w.fillEmpty = true ↔ ¬ Reaches l n

/-- In a full ring the walk goes from slot 0 to the last slot. -/
theorem fetch_of_full (hfull : l.full = true) (i : ℕ) (w : View) :
    l.fetch i w =
      let adr := if w.lastSampleAdr = 0 then maxSize - 1 else w.lastSampleAdr - 1
      { w with
        lastSampleAdr := adr
        mean := w.mean + (l.adrP adr).value
        reads := adr :: w.reads } := by
  by_cases hzero : w.lastSampleAdr = 0
  · simp [LoggerClass.fetch, hfull, hzero]
  · simp [LoggerClass.fetch, hfull, hzero]

/-- In one that is not full it stays at slot 0, and the entry becomes padding. -/
theorem fetch_of_not_full (hfull : l.full = false) (i : ℕ) (w : View) :
    l.fetch i w =
      { w with
        lastSampleAdr := w.lastSampleAdr - 1
        fillEmpty := w.fillEmpty || (w.lastSampleAdr = 0 : Bool)
        buffer := if w.lastSampleAdr = 0 then Function.update w.buffer i padding else w.buffer
        mean := w.mean + (l.adrP (w.lastSampleAdr - 1)).value
        reads := (w.lastSampleAdr - 1) :: w.reads } := by
  by_cases hzero : w.lastSampleAdr = 0
  · simp [LoggerClass.fetch, hfull, hzero]
  · simp [LoggerClass.fetch, hfull, hzero]

theorem Walked.fetch (h : Walked l n w) (i : ℕ) : Walked l (n + 1) (l.fetch i w) := by
  have hadr := h.lastSampleAdr
  have hempty := h.fillEmpty
  cases hfull : l.full with
  | true =>
      simp only [position, Reaches, hfull, if_true, true_or, maxSize] at hadr hempty
      rw [fetch_of_full hfull]
      refine ⟨?_, ?_⟩
      · simp only [position, hfull, if_true, maxSize]
        split_ifs at hadr ⊢ <;> omega
      · simp only [Reaches, hfull, true_or]
        exact hempty
  | false =>
      simp only [position, Reaches, hfull, Bool.false_eq_true, if_false, false_or] at hadr hempty
      rw [fetch_of_not_full hfull]
      refine ⟨?_, ?_⟩
      · simp only [position, hfull, Bool.false_eq_true, if_false]
        split_ifs at hadr ⊢ <;> omega
      · simp only [Reaches, hfull, Bool.false_eq_true, false_or, Bool.or_eq_true, hempty,
          decide_eq_true_eq]
        split_ifs at hadr <;> omega

theorem fetch_mean (l : LoggerClass) (i : ℕ) (w : View) :
    (l.fetch i w).mean = w.mean + (l.adrP (l.fetch i w).lastSampleAdr).value := by
  unfold LoggerClass.fetch
  split_ifs <;> rfl

/-- Only entry `i` of the buffer can change, and only to padding, where the log has ended. -/
theorem fetch_buffer (l : LoggerClass) (i : ℕ) (w : View) :
    (l.fetch i w).buffer =
      if w.lastSampleAdr = 0 ∧ l.full = false then Function.update w.buffer i padding
      else w.buffer := by
  cases hfull : l.full with
  | true =>
      rw [fetch_of_full hfull]
      exact (if_neg fun hend => absurd hend.2 (by decide)).symm
  | false =>
      rw [fetch_of_not_full hfull]
      simp only [and_true]

theorem fetch_limits (l : LoggerClass) (i : ℕ) (w : View) :
    (l.fetch i w).loggerMaxValue = w.loggerMaxValue ∧
      (l.fetch i w).loggerMinValue = w.loggerMinValue := by
  unfold LoggerClass.fetch
  split_ifs <;> exact ⟨rfl, rfl⟩

/-- The inner loop for entry `i`, after `k` rounds. -/
structure Summed (l : LoggerClass) (i n k : ℕ) (w w' : View) : Prop where
  walked : Walked l (n + k) w'
  mean : w'.mean = w.mean + ∑ s ∈ Finset.range k, (l.adrP (position l (n + s + 1))).value
  others : ∀ j ≠ i, w'.buffer j = w.buffer j
  padded : 1 ≤ k → ¬ Reaches l (n + k) → w'.buffer i = padding
  limits : w'.loggerMaxValue = w.loggerMaxValue ∧ w'.loggerMinValue = w.loggerMinValue

theorem Walked.iterate (h : Walked l n w) (i k : ℕ) : Summed l i n k w ((l.fetch i)^[k] w) := by
  induction k with
  | zero =>
      exact ⟨h, by simp, fun _ _ => rfl, fun hpos => absurd hpos (by omega), rfl, rfl⟩
  | succ k ih =>
      rw [Function.iterate_succ_apply']
      set w' := (l.fetch i)^[k] w
      have hbuffer := fetch_buffer l i w'
      have hnext := ih.walked.fetch i
      refine ⟨hnext, ?_, ?_, ?_, ?_⟩
      · rw [fetch_mean, hnext.lastSampleAdr, ih.mean, Finset.sum_range_succ, add_assoc, add_assoc]
      · intro j hj
        rw [hbuffer, ← ih.others j hj]
        split_ifs
        · exact Function.update_of_ne hj _ _
        · rfl
      · intro _ hend
        -- the log has ended before this round or just now; both leave the walk at slot 0
        obtain ⟨hfull, hover⟩ := not_or.1 hend
        have hzero : w'.lastSampleAdr = 0 := by
          rw [ih.walked.lastSampleAdr, position]
          simp only [hfull, Bool.false_eq_true, if_false]
          split_ifs <;> omega
        rw [hbuffer, if_pos ⟨hzero, Bool.eq_false_iff.2 hfull⟩, Function.update_self]
      · obtain ⟨hmax, hmin⟩ := fetch_limits l i w'
        exact ⟨hmax.trans ih.limits.1, hmin.trans ih.limits.2⟩

end Walk

/-! ## The entries -/

section Fill

variable {l : LoggerClass} {samplesPr : ℕ}

/-- After `n` entries. -/
structure Filled (l : LoggerClass) (samplesPr n : ℕ) (w : View) : Prop where
  walked : Walked l (n * samplesPr) w
  inside : ∀ j < n, Reaches l ((j + 1) * samplesPr) →
    (w.buffer j).value = groupMean l samplesPr j
  beyond : ∀ j < n, ¬ Reaches l ((j + 1) * samplesPr) → w.buffer j = padding
  search : Search (-10000) 10000 (groupMeans l samplesPr n) w.loggerMaxValue w.loggerMinValue

theorem groupMeans_succ (l : LoggerClass) (samplesPr n : ℕ) :
    groupMeans l samplesPr (n + 1) =
      {v | Reaches l ((n + 1) * samplesPr) ∧ groupMean l samplesPr n = v} ∪
        groupMeans l samplesPr n := by
  ext v
  constructor
  · rintro ⟨i, hi, hin, hv⟩
    rcases Nat.lt_succ_iff_lt_or_eq.1 hi with hlt | rfl
    · exact Or.inr ⟨i, hlt, hin, hv⟩
    · exact Or.inl ⟨hin, hv⟩
  · rintro (⟨hin, hv⟩ | ⟨i, hi, hin, hv⟩)
    · exact ⟨n, Nat.lt_succ_self n, hin, hv⟩
    · exact ⟨i, by omega, hin, hv⟩

theorem groupMeans_succ_of_reaches {n : ℕ} (hin : Reaches l ((n + 1) * samplesPr)) :
    groupMeans l samplesPr (n + 1) =
      insert (groupMean l samplesPr n) (groupMeans l samplesPr n) := by
  rw [groupMeans_succ]
  ext v
  simp [hin, eq_comm]

theorem groupMeans_succ_of_not {n : ℕ} (hover : ¬ Reaches l ((n + 1) * samplesPr)) :
    groupMeans l samplesPr (n + 1) = groupMeans l samplesPr n := by
  rw [groupMeans_succ]
  ext v
  simp [hover]

theorem filled_start (l : LoggerClass) (samplesPr : ℕ) (buffer : ℕ → LogDataWithTimeStamp) :
    Filled l samplesPr 0 { lastSampleAdr := l.scrollAddress, buffer := buffer } := by
  have hnone : groupMeans l samplesPr 0 = ∅ := by
    ext v
    simp [groupMeans]
  refine ⟨⟨?_, ?_⟩, ?_, ?_, ?_⟩
  · simp [position]
  · simp [Reaches]
  · exact fun j hj => absurd hj (Nat.not_lt_zero j)
  · exact fun j hj => absurd hj (Nat.not_lt_zero j)
  · rw [hnone]
    exact search_empty _ _

/-- The samples of one more entry have been summed up. -/
theorem Filled.summed {n : ℕ} {w : View} (h : Filled l samplesPr n w) :
    Summed l n (n * samplesPr) samplesPr { w with mean := 0 }
      ((l.fetch n)^[samplesPr] { w with mean := 0 }) := by
  have hwalked : Walked l (n * samplesPr) { w with mean := 0 } :=
    ⟨h.walked.lastSampleAdr, h.walked.fillEmpty⟩
  exact hwalked.iterate n samplesPr

theorem Filled.walked_summed {n : ℕ} {w : View} (h : Filled l samplesPr n w) :
    Walked l ((n + 1) * samplesPr) ((l.fetch n)^[samplesPr] { w with mean := 0 }) := by
  have hcount : n * samplesPr + samplesPr = (n + 1) * samplesPr := by ring
  rw [← hcount]
  exact h.summed.walked

/-- All samples of the entry are in the log: it becomes their mean, and the search goes on with
it. -/
theorem Filled.fillEntry_of_reaches {n : ℕ} {w : View} (h : Filled l samplesPr n w)
    (hin : Reaches l ((n + 1) * samplesPr)) :
    Filled l samplesPr (n + 1) (l.fillEntry samplesPr w n) := by
  have hsum := h.summed
  have hend := h.walked_summed
  obtain ⟨hmax, hmin⟩ := hsum.limits
  have hmean : ((l.fetch n)^[samplesPr] { w with mean := 0 }).mean / samplesPr =
      groupMean l samplesPr n := by
    rw [hsum.mean, zero_add, groupMean]
  have hflag : ((l.fetch n)^[samplesPr] { w with mean := 0 }).fillEmpty = false :=
    Bool.eq_false_iff.2 fun ht => hend.fillEmpty.1 ht hin
  have hentry : l.fillEntry samplesPr w n =
      { (l.fetch n)^[samplesPr] { w with mean := 0 } with
        buffer := Function.update ((l.fetch n)^[samplesPr] { w with mean := 0 }).buffer n
          ⟨groupMean l samplesPr n,
            (l.adrP ((l.fetch n)^[samplesPr] { w with mean := 0 }).lastSampleAdr).timestamp⟩
        loggerMaxValue := max (groupMean l samplesPr n) w.loggerMaxValue
        loggerMinValue := min (groupMean l samplesPr n) w.loggerMinValue } := by
    simp only [LoggerClass.fillEntry, hflag, hmean, hmax, hmin, Bool.not_false, if_true, gt_iff_lt]
    rw [max_comm, max_def_lt, min_def_lt]
  rw [hentry]
  constructor
  case walked => exact ⟨hend.lastSampleAdr, hend.fillEmpty⟩
  case inside =>
    intro j hj hjin
    rcases Nat.lt_succ_iff_lt_or_eq.1 hj with hlt | rfl
    · rw [← h.inside j hlt hjin]
      exact congrArg _ ((Function.update_of_ne hlt.ne _ _).trans (hsum.others j hlt.ne))
    · exact congrArg _ (Function.update_self ..)
  case beyond =>
    intro j hj hover
    rcases Nat.lt_succ_iff_lt_or_eq.1 hj with hlt | rfl
    · rw [← h.beyond j hlt hover]
      exact (Function.update_of_ne hlt.ne _ _).trans (hsum.others j hlt.ne)
    · exact absurd hin hover
  case search =>
    rw [groupMeans_succ_of_reaches hin]
    exact h.search.insert _

/-- The log has ended before the entry was complete: it is padding, and the search stays. -/
theorem Filled.fillEntry_of_not {n : ℕ} {w : View} (h : Filled l samplesPr n w)
    (hpr : 1 ≤ samplesPr) (hin : ¬Reaches l ((n + 1) * samplesPr)) :
    Filled l samplesPr (n + 1) (l.fillEntry samplesPr w n) := by
  have hsum := h.summed
  have hend := h.walked_summed
  obtain ⟨hmax, hmin⟩ := hsum.limits
  have hflag : ((l.fetch n)^[samplesPr] { w with mean := 0 }).fillEmpty = true :=
    hend.fillEmpty.2 hin
  have hentry : l.fillEntry samplesPr w n = (l.fetch n)^[samplesPr] { w with mean := 0 } := by
    simp only [LoggerClass.fillEntry, hflag, Bool.not_true, Bool.false_eq_true, if_false]
  rw [hentry]
  constructor
  case walked => exact hend
  case inside =>
    intro j hj hjin
    rcases Nat.lt_succ_iff_lt_or_eq.1 hj with hlt | rfl
    · rw [← h.inside j hlt hjin]
      exact congrArg _ (hsum.others j hlt.ne)
    · exact absurd hjin hin
  case beyond =>
    intro j hj hover
    rcases Nat.lt_succ_iff_lt_or_eq.1 hj with hlt | rfl
    · exact (hsum.others j hlt.ne).trans (h.beyond j hlt hover)
    · have hcount : (j + 1) * samplesPr = j * samplesPr + samplesPr := by ring
      rw [hcount] at hin
      exact hsum.padded hpr hin
  case search =>
    rw [groupMeans_succ_of_not hin, hmax, hmin]
    exact h.search

theorem Filled.fillEntry {n : ℕ} {w : View} (h : Filled l samplesPr n w) (hpr : 1 ≤ samplesPr) :
    Filled l samplesPr (n + 1) (l.fillEntry samplesPr w n) := by
  by_cases hin : Reaches l ((n + 1) * samplesPr)
  · exact h.fillEntry_of_reaches hin
  · exact h.fillEntry_of_not hpr hin

theorem filled_fillEntries (l : LoggerClass) (buffer : ℕ → LogDataWithTimeStamp) (hpr : 1 ≤ samplesPr)
    (bufferSize : ℕ) :
    Filled l samplesPr bufferSize (l.fillEntries buffer bufferSize samplesPr) := by
  unfold LoggerClass.fillEntries
  induction bufferSize with
  | zero => exact filled_start l samplesPr buffer
  | succ n ih =>
      rw [List.range_succ, List.foldl_append, List.foldl_cons, List.foldl_nil]
      exact ih.fillEntry hpr

/-- What is logged is not mistaken for padding. -/
theorem groupMean_ne_padding (hpr : 1 ≤ samplesPr)
    (hrange : ∀ adr, |(l.adrP adr).value| ≤ 30000) (i : ℕ) :
    groupMean l samplesPr i ≠ padding.value := by
  have hpos : (0 : ℚ) < samplesPr := by exact_mod_cast hpr
  have hsum : -(30000 * samplesPr : ℚ) ≤
      ∑ s ∈ Finset.range samplesPr, (l.adrP (position l (i * samplesPr + s + 1))).value := by
    calc -(30000 * samplesPr : ℚ)
        = ∑ _s ∈ Finset.range samplesPr, (-30000 : ℚ) := by
          rw [Finset.sum_const, Finset.card_range, nsmul_eq_mul]
          ring
      _ ≤ _ := Finset.sum_le_sum fun s _ => (abs_le.1 (hrange _)).1
  have hlow : -30000 ≤ groupMean l samplesPr i := by
    rw [groupMean, le_div_iff₀ hpos]
    linarith
  intro heq
  rw [heq] at hlow
  exact absurd hlow (by norm_num [padding])

/-- The entries that are not padding are the means of the groups that are in the log. -/
theorem Filled.entries_eq {n : ℕ} {w : View} (h : Filled l samplesPr n w) (hpr : 1 ≤ samplesPr)
    (hrange : ∀ adr, |(l.adrP adr).value| ≤ 30000) :
    entries w.buffer n = groupMeans l samplesPr n := by
  ext v
  constructor
  · rintro ⟨i, hi, hpad, rfl⟩
    have hin : Reaches l ((i + 1) * samplesPr) := by
      by_contra hover
      exact hpad (h.beyond i hi hover)
    exact ⟨i, hi, hin, (h.inside i hi hin).symm⟩
  · rintro ⟨i, hi, hin, rfl⟩
    have hvalue := h.inside i hi hin
    refine ⟨i, hi, ?_, hvalue⟩
    intro hpad
    rw [hpad] at hvalue
    exact groupMean_ne_padding hpr hrange i hvalue.symm

end Fill

/-! ## The limits -/

/-- A search from fixed values finds the extremes of a set, or else one of the two values lies beyond
all of the set and moves the middle. -/
theorem widened_iff {S : Set ℚ} {lo hi : ℚ} (h : Search (-10000) 10000 S hi lo) :
    (∃ lo' hi', IsLeast S lo' ∧ IsGreatest S hi' ∧ widened lo hi = widened lo' hi') ↔
      (∃ x ∈ S, x ≤ 10000) ∧ ∃ x ∈ S, -10000 ≤ x := by
  obtain ⟨hhi, hlo⟩ := h
  constructor
  · rintro ⟨lo', hi', hleast, hgreatest, heq⟩
    have hmiddle : lo + hi = lo' + hi' := by
      rw [← widened_add, heq, widened_add]
    have hlo_le : lo ≤ lo' := hlo.2 (Or.inr hleast.1)
    have hle_hi : hi' ≤ hi := hhi.2 (Or.inr hgreatest.1)
    have horder : lo' ≤ hi' := hleast.2 hgreatest.1
    have hlo_start : lo ≤ 10000 := hlo.2 (Or.inl rfl)
    have hhi_start : -10000 ≤ hi := hhi.2 (Or.inl rfl)
    -- only one of the two values can lie beyond the set
    constructor
    · by_contra hnone
      have hbeyond : 10000 < lo' := lt_of_not_ge fun hle => hnone ⟨lo', hleast.1, hle⟩
      have hfound : hi = hi' := by
        rcases hhi.1 with hstart | hin
        · linarith
        · exact le_antisymm (hgreatest.2 hin) hle_hi
      linarith
    · by_contra hnone
      have hbeyond : hi' < -10000 := lt_of_not_ge fun hle => hnone ⟨hi', hgreatest.1, hle⟩
      have hfound : lo = lo' := by
        rcases hlo.1 with hstart | hin
        · linarith
        · exact le_antisymm hlo_le (hleast.2 hin)
      linarith
  · rintro ⟨hleast, hgreatest⟩
    exact ⟨lo, hi, (isLeast_insert_iff hlo).2 hleast, (isGreatest_insert_iff hhi).2 hgreatest, rfl⟩

/-- The limits are the extremes of the entries shown, exactly when one of the groups in the log has a
mean of -10000 or more and one a mean of 10000 or less. -/
theorem limits_shown_iff (l : LoggerClass) (buffer : ℕ → LogDataWithTimeStamp) (bufferSize : ℕ)
    {samplesPr : ℕ} (hpr : 1 ≤ samplesPr) (hrange : ∀ adr, |(l.adrP adr).value| ≤ 30000) :
    LimitsShown (l.getLastSamples buffer bufferSize samplesPr).1 bufferSize
        (l.getLastSamples buffer bufferSize samplesPr).2 ↔
      (∃ mean ∈ groupMeans l samplesPr bufferSize, mean ≤ 10000) ∧
      ∃ mean ∈ groupMeans l samplesPr bufferSize, -10000 ≤ mean := by
  have hfilled := filled_fillEntries l buffer hpr bufferSize
  have hentries := hfilled.entries_eq hpr hrange
  rw [LimitsShown, getLastSamples_limits, getLastSamples_fst, hentries]
  exact widened_iff hfilled.search

/-- Seven records that rise from -12.5 V to 11.5 V. -/
def rising : LoggerClass :=
  { adrP := fun adr => ⟨4000 * (adr % 7 : ℕ) - 12500, adr + 1⟩, scrollAddress := 7 }

/-- In groups of two, their view has the entries 9.5 V, 1.5 V and -6.5 V, and no fourth one. -/
theorem limits_shown_iff_rising :
    LimitsShown (rising.getLastSamples (fun _ => ⟨0, 0⟩) 4 2).1 4
      (rising.getLastSamples (fun _ => ⟨0, 0⟩) 4 2).2 := by
  have hrange : ∀ adr, |(rising.adrP adr).value| ≤ 30000 := by
    intro adr
    have hlow : (0 : ℚ) ≤ (adr % 7 : ℕ) := Nat.cast_nonneg _
    have hhigh : ((adr % 7 : ℕ) : ℚ) ≤ 6 := by
      exact_mod_cast Nat.le_of_lt_succ (Nat.mod_lt adr (by decide))
    rw [abs_le]
    constructor <;> simp only [rising] <;> linarith
  have hmiddle : (1500 : ℚ) ∈ groupMeans rising 2 4 := by
    refine ⟨1, by decide, Or.inr (by decide), ?_⟩
    norm_num [groupMean, position, rising, Finset.sum_range_succ]
  exact (limits_shown_iff rising (fun _ => ⟨0, 0⟩) 4 (by decide) hrange).2
    ⟨⟨1500, hmiddle, by norm_num⟩, ⟨1500, hmiddle, by norm_num⟩⟩

/-- One record of -20 V: the greatest value found is the -10 V that the search starts from. -/
theorem limits_of_low_record :
    let l : LoggerClass := { adrP := fun _ => ⟨-20000, 1⟩, scrollAddress := 1 }
    let out := l.getLastSamples (fun _ => ⟨0, 0⟩) 1 1
    entries out.1 1 = {-20000} ∧ out.2.loggerMaxValue = -10000 ∧ ¬ LimitsShown out.1 1 out.2 := by
  intro l out
  have hfirst : out.1 0 = ⟨-20000, 1⟩ := by decide +kernel
  have hmax : out.2.loggerMaxValue = -10000 := by decide +kernel
  have hentries : entries out.1 1 = {-20000} := by
    ext v
    constructor
    · rintro ⟨i, hi, -, rfl⟩
      obtain rfl : i = 0 := by omega
      rw [hfirst]
      rfl
    · rintro rfl
      refine ⟨0, by decide, ?_, ?_⟩
      · rw [hfirst]
        decide +kernel
      · rw [hfirst]
  refine ⟨hentries, hmax, ?_⟩
  rintro ⟨lo, hi, hlo, hhi, heq⟩
  rw [hentries] at hlo hhi
  obtain rfl : lo = -20000 := hlo.1
  obtain rfl : hi = -20000 := hhi.1
  have hwide := congrArg Prod.snd heq
  rw [hmax] at hwide
  exact absurd hwide (by norm_num [widened])

end ViewLimits
end PoorMansSmu
