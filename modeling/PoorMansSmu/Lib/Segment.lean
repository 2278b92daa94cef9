import Mathlib.Algebra.Order.Ring.Int
import Mathlib.Logic.Function.Basic

/-!
# Segment — a list in consecutive cells of a memory

- `StoredAt m k l` : the cells from `k` on hold the elements of `l`, one each;

and what writes to other cells do to it.  Cells are integers, so that a segment may lie anywhere.
Nothing here mentions a particular program.
-/

namespace PoorMansSmu
namespace Segment

variable {α : Type*}

/-- The cells of `m` from `k` on hold the elements of the list. -/
def StoredAt (m : ℤ → α) : ℤ → List α → Prop
  | _, [] => True
  | k, x :: xs => m k = x ∧ StoredAt m (k + 1) xs

variable {m m' : ℤ → α} {k : ℤ} {l : List α}

@[simp] theorem storedAt_nil (m : ℤ → α) (k : ℤ) : StoredAt m k [] := trivial

@[simp] theorem storedAt_cons (m : ℤ → α) (k : ℤ) (x : α) (xs : List α) :
    StoredAt m k (x :: xs) ↔ m k = x ∧ StoredAt m (k + 1) xs := Iff.rfl

theorem storedAt_append (m : ℤ → α) (k : ℤ) (xs ys : List α) :
    StoredAt m k (xs ++ ys) ↔ StoredAt m k xs ∧ StoredAt m (k + xs.length) ys := by
  induction xs generalizing k with
  | nil => simp
  | cons x xs ih =>
      rw [List.cons_append, storedAt_cons, storedAt_cons, ih, and_assoc, List.length_cons]
      push_cast
      rw [add_assoc, add_comm 1]

theorem StoredAt.getElem (h : StoredAt m k l) {i : ℕ} (hi : i < l.length) : m (k + i) = l[i] := by
  induction l generalizing k i with
  | nil => cases hi
  | cons x xs ih =>
      cases i with
      | zero => simpa using h.1
      | succ i =>
          have := ih h.2 (Nat.lt_of_succ_lt_succ hi)
          rw [List.getElem_cons_succ, ← this]
          push_cast
          rw [add_assoc, add_comm 1]

/-- A memory that holds the same, somewhere else perhaps, stores the list as well. -/
theorem StoredAt.congr (h : StoredAt m k l) {k' : ℤ}
    (hsame : ∀ i : ℕ, i < l.length → m' (k' + i) = m (k + i)) : StoredAt m' k' l := by
  induction l generalizing k k' with
  | nil => trivial
  | cons x xs ih =>
      refine ⟨?_, ih h.2 fun i hi => ?_⟩
      · have := hsame 0 (Nat.succ_pos _)
        rw [Nat.cast_zero, add_zero, add_zero] at this
        exact this.trans h.1
      · have := hsame (i + 1) (Nat.succ_lt_succ hi)
        push_cast at this
        rwa [← add_assoc, ← add_assoc, add_right_comm, add_right_comm k] at this

/-- A write outside the segment. -/
theorem StoredAt.update (h : StoredAt m k l) {j : ℤ} {x : α} (hj : j < k ∨ k + l.length ≤ j) :
    StoredAt (Function.update m j x) k l := by
  refine h.congr fun i hi => Function.update_of_ne ?_ _ _
  omega

end Segment
end PoorMansSmu
