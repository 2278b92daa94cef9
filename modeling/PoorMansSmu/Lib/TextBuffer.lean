import Mathlib.Data.Nat.Notation
import Mathlib.Logic.Basic
import Mathlib.Tactic.SplitIfs

/-!
# TextBuffer — strings with an end mark in arrays

A string stands in an array from cell 0 on, and behind it stands a mark that is not a character of it.

- `Holds` : an array holds a string;
- `read` : what a reader finds that looks for the mark in the first cells (`read_eq_some_iff`);
- `copy` : a copy of a fixed number of cells, filled up with marks behind a string that is shorter
  (`Holds.copy`, `Holds.copy_char`).

Nothing here mentions a particular program.
-/

namespace PoorMansSmu
namespace TextBuffer

variable {α : Type*} {mark : α} {mem src dst : ℕ → α} {s : List α} {n : ℕ}

/-- The array begins with the string and the mark. -/
structure Holds (mark : α) (mem : ℕ → α) (s : List α) : Prop where
  char : ∀ i (hi : i < s.length), mem i = s[i]
  not_mem : mark ∉ s
  atEnd : mem s.length = mark

section Functions

variable [DecidableEq α]

/-- The string in the first `n` cells, if the mark is there. -/
def read (mark : α) : (n : ℕ) → (mem : ℕ → α) → Option (List α)
  | 0, _ => none
  | n + 1, mem =>
      if mem 0 = mark then some []
      else (read mark n fun i => mem (i + 1)).map (mem 0 :: ·)

/-- `n` cells are copied; those behind the first mark become marks. -/
def copy (mark : α) (n : ℕ) (src dst : ℕ → α) : ℕ → α := fun i =>
  if i < n then if ∃ j < i, src j = mark then mark else src i else dst i

end Functions

theorem holds_nil_iff : Holds mark mem [] ↔ mem 0 = mark := by
  constructor
  · exact fun h => h.atEnd
  · exact fun h => ⟨fun i hi => absurd hi (Nat.not_lt_zero i), List.not_mem_nil, h⟩

theorem holds_cons_iff {c : α} :
    Holds mark mem (c :: s) ↔ mem 0 = c ∧ c ≠ mark ∧ Holds mark (fun i => mem (i + 1)) s := by
  constructor
  · intro h
    obtain ⟨hc, hs⟩ := not_or.1 (fun hor => h.not_mem (List.mem_cons.2 hor))
    refine ⟨h.char 0 (Nat.succ_pos _), fun heq => hc heq.symm, ?_, hs, h.atEnd⟩
    intro i hi
    exact h.char (i + 1) (Nat.succ_lt_succ hi)
  · rintro ⟨hzero, hc, hs⟩
    refine ⟨?_, ?_, hs.atEnd⟩
    · intro i hi
      cases i with
      | zero => exact hzero
      | succ i => exact hs.char i (Nat.lt_of_succ_lt_succ hi)
    · intro hmem
      rcases List.mem_cons.1 hmem with heq | hmem
      · exact hc heq.symm
      · exact hs.not_mem hmem

/-- No mark is in the cells of a string. -/
theorem Holds.ne_mark (h : Holds mark mem s) {i : ℕ} (hi : i < s.length) : mem i ≠ mark := by
  rw [h.char i hi]
  exact fun heq => h.not_mem (heq ▸ List.getElem_mem hi)

variable [DecidableEq α]

/-- A reader finds the string that is there, if it ends early enough. -/
theorem read_eq_some_iff : read mark n mem = some s ↔ s.length < n ∧ Holds mark mem s := by
  induction n generalizing mem s with
  | zero => exact iff_of_false (by simp [read]) fun h => Nat.not_lt_zero _ h.1
  | succ n ih =>
      rw [read]
      by_cases hzero : mem 0 = mark
      · -- the mark is read, and no string but the empty one ends here
        rw [if_pos hzero]
        cases s with
        | nil => exact iff_of_true rfl ⟨Nat.succ_pos n, holds_nil_iff.2 hzero⟩
        | cons c s =>
            refine iff_of_false (by simp) fun h => ?_
            obtain ⟨hc, hne, -⟩ := holds_cons_iff.1 h.2
            exact hne (hc.symm.trans hzero)
      · -- a character is read, and the rest from the next cell on
        rw [if_neg hzero, Option.map_eq_some_iff]
        cases s with
        | nil =>
            refine iff_of_false ?_ fun h => hzero (holds_nil_iff.1 h.2)
            rintro ⟨t, -, ht⟩
            exact absurd ht (List.cons_ne_nil _ _)
        | cons c s =>
            rw [holds_cons_iff, List.length_cons]
            constructor
            · rintro ⟨t, ht, heq⟩
              obtain ⟨rfl, rfl⟩ := List.cons.inj heq
              obtain ⟨hlt, hholds⟩ := ih.1 ht
              exact ⟨Nat.succ_lt_succ hlt, rfl, hzero, hholds⟩
            · rintro ⟨hlt, rfl, -, hholds⟩
              exact ⟨s, ih.2 ⟨Nat.lt_of_succ_lt_succ hlt, hholds⟩, rfl⟩

/-- A string that is shorter than the number of cells is copied whole. -/
theorem Holds.copy (h : Holds mark src s) (hlt : s.length < n) :
    Holds mark (TextBuffer.copy mark n src dst) s := by
  refine ⟨?_, h.not_mem, ?_⟩
  · intro i hi
    have hnone : ¬ ∃ j < i, src j = mark := by
      rintro ⟨j, hj, hmark⟩
      exact h.ne_mark (Nat.lt_trans hj hi) hmark
    rw [TextBuffer.copy, if_pos (Nat.lt_trans hi hlt), if_neg hnone, h.char i hi]
  · rw [TextBuffer.copy, if_pos hlt]
    split_ifs
    · rfl
    · exact h.atEnd

/-- Of a longer one only characters are copied, and no mark. -/
theorem Holds.copy_char (h : Holds mark src s) (hle : n ≤ s.length) {i : ℕ} (hi : i < n) :
    TextBuffer.copy mark n src dst i ≠ mark := by
  have hnone : ¬ ∃ j < i, src j = mark := by
    rintro ⟨j, hj, hmark⟩
    exact h.ne_mark (Nat.lt_of_lt_of_le (Nat.lt_trans hj hi) hle) hmark
  rw [TextBuffer.copy, if_pos hi, if_neg hnone]
  exact h.ne_mark (Nat.lt_of_lt_of_le hi hle)

theorem copy_of_le {i : ℕ} (hi : n ≤ i) : copy mark n src dst i = dst i :=
  if_neg (Nat.not_lt.2 hi)

end TextBuffer
end PoorMansSmu
