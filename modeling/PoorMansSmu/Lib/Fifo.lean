import PoorMansSmu.Lib.RingBuffer
import Mathlib.Data.List.TakeDrop
import Mathlib.Data.Int.ModEq

/-!
# Fifo — a queue between two parties in a ring of slots

A writer puts records into a ring of `N` slots and a reader takes them out in the same order.
Record number `k` goes to slot `k % N`, and the two parties tell each other how far they are by
positions modulo `N`.

- `Queued N mem put taken` : of the records `put`, those that are not taken yet are in their slots;
- `Queued.push` : one more record, as long as there is room;
- `Queued.take`, `Queued.cut` : the reader goes on, and the writer takes back its last records;
- `Queued.front` : what the reader finds;
- `fill`, `fill_eq` : the number of records in the queue, from the two positions.

Nothing here mentions a particular program.
-/

namespace PoorMansSmu
namespace Fifo

variable {β : Type*} {N : ℕ}

/-! ## Positions -/

/-- How many records lie between the two positions. -/
def fill (N w r : ℕ) : ℕ := (w + N - r) % N

/-- The positions tell how many records there are, as long as there is a slot left. -/
theorem fill_eq {put taken : ℕ} (hle : taken ≤ put) (hlt : put < taken + N) :
    fill N (put % N) (taken % N) = put - taken := by
  have hN : 0 < N := by omega
  have hr := Nat.mod_lt taken hN
  have hcongr : (put % N + N - taken % N + taken) % N = (put - taken + taken) % N := by
    calc
      (put % N + N - taken % N + taken) % N
          = (put % N + (N - taken % N) + (taken % N + N * (taken / N))) % N := by
            rw [Nat.mod_add_div]
            congr 2
            omega
      _ = (put % N + (N + N * (taken / N))) % N := by
            congr 1
            omega
      _ = put % N := by
            rw [← Nat.add_assoc, Nat.add_mul_mod_self_left, Nat.add_mod_right, Nat.mod_mod]
      _ = (put - taken + taken) % N := by rw [Nat.sub_add_cancel hle]
  have hcancel : (put % N + N - taken % N) % N = (put - taken) % N :=
    Nat.ModEq.add_right_cancel' taken hcongr
  rw [fill, hcancel, Nat.mod_eq_of_lt (by omega)]

/-! ## Records -/

/-- The records that are not taken yet are in their slots. -/
structure Queued (N : ℕ) (mem : ℕ → β) (put : List β) (taken : ℕ) : Prop where
  le : taken ≤ put.length
  fits : put.length ≤ taken + N
  stored : ∀ k (hk : k < put.length), taken ≤ k → mem (k % N) = put[k]

variable {mem : ℕ → β} {put : List β} {taken : ℕ}

theorem queued_nil (mem : ℕ → β) : Queued N mem [] 0 where
  le := le_rfl
  fits := Nat.zero_le _
  stored k hk := absurd hk (Nat.not_lt_zero k)

theorem Queued.congr (h : Queued N mem put taken) {mem' : ℕ → β}
    (heq : ∀ i < N, mem' i = mem i) : Queued N mem' put taken where
  le := h.le
  fits := h.fits
  stored k hk htaken := by
    have hlt : k % N < N := Nat.mod_lt k (by have := h.fits; omega)
    rw [heq _ hlt]
    exact h.stored k hk htaken

theorem Queued.push (h : Queued N mem put taken) (x : β) (hroom : put.length < taken + N) :
    Queued N (Function.update mem (put.length % N) x) (put ++ [x]) taken where
  le := by
    have := h.le
    rw [List.length_append]
    omega
  fits := by
    rw [List.length_append, List.length_singleton]
    omega
  stored k hk htaken := by
    rw [List.length_append, List.length_singleton] at hk
    rcases Nat.lt_or_ge k put.length with hold | hnew
    · have hslot : k % N ≠ put.length % N := RingBuffer.mod_ne_of_lt hold (by omega)
      rw [Function.update_of_ne hslot, List.getElem_append_left hold]
      exact h.stored k hold htaken
    · obtain rfl : k = put.length := by omega
      rw [Function.update_self, List.getElem_concat_length rfl]

/-- The reader takes more records out. -/
theorem Queued.take (h : Queued N mem put taken) {taken' : ℕ} (hmono : taken ≤ taken')
    (hle : taken' ≤ put.length) : Queued N mem put taken' where
  le := hle
  fits := by
    have := h.fits
    omega
  stored k hk htaken := h.stored k hk (hmono.trans htaken)

/-- The writer takes records back that the reader has not reached. -/
theorem Queued.cut (h : Queued N mem put taken) {m : ℕ} (hm : taken ≤ m) (hle : m ≤ put.length) :
    Queued N mem (put.take m) taken where
  le := by
    rw [List.length_take]
    omega
  fits := by
    have := h.fits
    rw [List.length_take]
    omega
  stored k hk htaken := by
    rw [List.length_take] at hk
    rw [List.getElem_take]
    exact h.stored k (by omega) htaken

/-- The reader finds the next records in the slots from its position on. -/
theorem Queued.front (h : Queued N mem put taken) {n : ℕ} (hn : taken + n ≤ put.length) :
    (List.range n).map (fun i => mem ((taken % N + i) % N)) = (put.drop taken).take n := by
  apply List.ext_getElem
  · simp only [List.length_map, List.length_range, List.length_take, List.length_drop]
    omega
  intro i hi _
  rw [List.length_map, List.length_range] at hi
  rw [List.getElem_map, List.getElem_range, List.getElem_take, List.getElem_drop, Nat.mod_add_mod]
  exact h.stored (taken + i) (by omega) (by omega)

end Fifo
end PoorMansSmu
