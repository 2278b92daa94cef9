import Mathlib.Algebra.BigOperators.Group.Finset.Basic
import Mathlib.Algebra.BigOperators.Group.Finset.Piecewise
import Mathlib.Algebra.Ring.Nat
import Mathlib.Tactic.SplitIfs

/-!
# Bins — values counted in half-open bins

Bin `i` reaches from `limits i`, which belongs to it, to `limits (i + 1)`, which does not.  A value
is counted by a loop over the bins that raises every bin the value is in, so that it depends on the
limits whether it is counted once.

- `tally`              : the loop over the bins for one value;
- `hits`               : how many bins a value is in;
- `hits_of_monotone`   : between limits that do not decrease, a value is in one bin;
- `hits_of_antitone`   : between limits that do not increase, a value is in none;
- `exists_update_iff`  : the loop raises one bin by one exactly for a value that is in one bin;
- `sum_tallies`        : what the counts add up to.

Nothing here mentions a particular program.
-/

namespace PoorMansSmu
namespace Bins

open Finset

variable {α : Type*} [LinearOrder α] (limits : ℕ → α)

/-- The value `x` is in bin `i`. -/
def InBin (i : ℕ) (x : α) : Prop := limits i ≤ x ∧ x < limits (i + 1)

instance (i : ℕ) (x : α) : Decidable (InBin limits i x) := inferInstanceAs (Decidable (_ ∧ _))

/-- Raise every one of the first `n` bins that the value is in. -/
def tally (n : ℕ) (bins : ℕ → ℕ) (x : α) : ℕ → ℕ :=
  (List.range n).foldl
    (fun bins i => if InBin limits i x then Function.update bins i (bins i + 1) else bins) bins

/-- How many of the first `n` bins the value is in. -/
def hits (n : ℕ) (x : α) : ℕ := #{i ∈ range n | InBin limits i x}

section Hits

variable {limits} {n : ℕ}

theorem hits_succ (n : ℕ) (x : α) :
    hits limits (n + 1) x = hits limits n x + if InBin limits n x then 1 else 0 := by
  unfold hits
  rw [card_filter, card_filter, sum_range_succ]

theorem first_le (h : ∀ i < n, limits i ≤ limits (i + 1)) : limits 0 ≤ limits n := by
  induction n with
  | zero => exact le_rfl
  | succ n ih =>
      exact (ih fun i hi => h i (Nat.lt_succ_of_lt hi)).trans (h n (Nat.lt_succ_self n))

/-- Limits that do not decrease leave no gap and do not overlap. -/
theorem hits_of_monotone (h : ∀ i < n, limits i ≤ limits (i + 1)) (x : α) :
    hits limits n x = if limits 0 ≤ x ∧ x < limits n then 1 else 0 := by
  induction n with
  | zero =>
      have hempty : ¬(limits 0 ≤ x ∧ x < limits 0) := fun hx => not_lt_of_ge hx.1 hx.2
      rw [if_neg hempty]
      rfl
  | succ n ih =>
      have hbefore : ∀ i < n, limits i ≤ limits (i + 1) := fun i hi => h i (Nat.lt_succ_of_lt hi)
      have hlast := h n (Nat.lt_succ_self n)
      rw [hits_succ, ih hbefore]
      rcases lt_or_ge x (limits n) with hx | hx
      · -- below the last bin
        have hout : ¬InBin limits n x := fun hin => not_lt_of_ge hin.1 hx
        simp only [if_neg hout, hx, hx.trans_le hlast, and_true, add_zero]
      · have hfirst := first_le hbefore
        simp only [InBin, not_lt_of_ge hx, and_false, if_false, hx, hfirst.trans hx, true_and,
          zero_add]

/-- Limits that do not increase leave no room between them. -/
theorem hits_of_antitone (h : ∀ i < n, limits (i + 1) ≤ limits i) (x : α) :
    hits limits n x = 0 := by
  apply card_eq_zero.2
  apply filter_eq_empty_iff.2
  intro i hi hin
  exact not_lt_of_ge ((h i (mem_range.1 hi)).trans hin.1) hin.2

end Hits

section Tally

variable (n : ℕ) (bins : ℕ → ℕ) (x : α)

theorem tally_apply (j : ℕ) :
    tally limits n bins x j = bins j + if j < n ∧ InBin limits j x then 1 else 0 := by
  induction n with
  | zero => simp [tally]
  | succ n ih =>
      have hloop : tally limits (n + 1) bins x =
          if InBin limits n x then
            Function.update (tally limits n bins x) n (tally limits n bins x n + 1)
          else tally limits n bins x := by
        unfold tally
        rw [List.range_succ, List.foldl_append]
        rfl
      rw [hloop]
      by_cases hj : j = n
      · subst hj
        split_ifs <;> simp_all
      · have hrange : j < n + 1 ↔ j < n := by omega
        simp only [hrange, ← ih]
        split_ifs
        · exact Function.update_of_ne hj _ _
        · rfl

/-- One bin is raised, by one, exactly if the value is in one bin. -/
theorem exists_update_iff :
    (∃ i < n, tally limits n bins x = Function.update bins i (bins i + 1)) ↔
      hits limits n x = 1 := by
  unfold hits
  rw [card_eq_one]
  constructor
  · rintro ⟨i, hi, htally⟩
    refine ⟨i, ?_⟩
    ext j
    have hj := (tally_apply limits n bins x j).symm.trans (congrFun htally j)
    rw [mem_filter, mem_range, mem_singleton]
    by_cases heq : j = i
    · subst heq
      rw [Function.update_self] at hj
      split_ifs at hj with hin
      · exact iff_of_true hin rfl
      · omega
    · rw [Function.update_of_ne heq] at hj
      split_ifs at hj with hin
      · omega
      · exact iff_of_false hin heq
  · rintro ⟨i, hfilter⟩
    have hmem : ∀ j, j < n ∧ InBin limits j x ↔ j = i := by
      intro j
      rw [← mem_singleton, ← hfilter, mem_filter, mem_range]
    refine ⟨i, ((hmem i).2 rfl).1, ?_⟩
    funext j
    rw [tally_apply, if_congr (hmem j) rfl rfl]
    by_cases heq : j = i
    · subst heq
      rw [if_pos rfl, Function.update_self]
    · rw [if_neg heq, Function.update_of_ne heq, add_zero]

theorem sum_tally :
    ∑ i ∈ range n, tally limits n bins x i = ∑ i ∈ range n, bins i + hits limits n x := by
  unfold hits
  rw [card_filter, ← sum_add_distrib]
  refine sum_congr rfl fun i hi => ?_
  rw [tally_apply, if_congr (and_iff_right (mem_range.1 hi)) rfl rfl]

/-- All counts together are the bins that each of the values is in. -/
theorem sum_tallies (xs : List α) :
    ∑ i ∈ range n, xs.foldl (tally limits n) bins i =
      ∑ i ∈ range n, bins i + (xs.map (hits limits n)).sum := by
  induction xs generalizing bins with
  | nil => rfl
  | cons x xs ih =>
      rw [List.foldl_cons, ih, sum_tally, List.map_cons, List.sum_cons, add_assoc]

end Tally

end Bins
end PoorMansSmu
