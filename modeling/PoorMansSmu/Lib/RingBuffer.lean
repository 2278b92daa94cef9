import Mathlib.Data.List.Basic
import Mathlib.Data.List.Induction
import Mathlib.Logic.Function.Basic

/-!
# RingBuffer — the last records of an unbounded sequence in a fixed number of slots

Record number `k` of a sequence goes to slot `k % m` of a memory with `m` slots, so that the memory
holds the last `m` records and no others.  This file defines

- `Holds m mem recs` : the last `m` records of `recs` stand in the slots their numbers give,
- `before m a`       : the slot before `a`, the last one when `a` is the first,
- `walkBack m mem n a` : what stands in `n` slots, from slot `a` backwards,

and shows that storing a record keeps `Holds`, which record a slot holds, that the slot before
that of a record is the slot of the record before, and that a walk backwards finds the records in
the order from new to old.  Nothing here mentions a particular program.
-/

namespace PoorMansSmu
namespace RingBuffer

variable {α : Type*} {m : ℕ}

/-! ## Slots -/

/-- Two numbers less than a whole turn apart have different slots. -/
theorem mod_ne_of_lt {k n : ℕ} (hkn : k < n) (hnk : n < k + m) : k % m ≠ n % m := by
  intro heq
  have hdvd : m ∣ n - k := Nat.dvd_of_mod_eq_zero (Nat.sub_mod_eq_zero_of_mod_eq heq.symm)
  have hle : m ≤ n - k := Nat.le_of_dvd (by omega) hdvd
  omega

/-- The slot before slot `a`; `a` may also be the number of slots, the place after the last one. -/
def before (m a : ℕ) : ℕ :=
  if a = 0 then m - 1 else a - 1

theorem before_lt {a : ℕ} (hm : 0 < m) (ha : a ≤ m) : before m a < m := by
  unfold before
  split_ifs <;> omega

/-- Before the slot of record `n + 1` is the slot of record `n`. -/
theorem before_of_mod {a n : ℕ} (hm : 0 < m) (ha : a ≤ m) (hmod : a % m = (n + 1) % m) :
    before m a = n % m := by
  have hdiv := Nat.mod_add_div n m
  have hlt := Nat.mod_lt n hm
  have hsucc : (n + 1) % m = (n % m + 1) % m := by rw [Nat.mod_add_mod]
  rw [hsucc] at hmod
  unfold before
  by_cases hwrap : n % m + 1 = m
  · -- record `n` stands in the last slot
    rw [hwrap, Nat.mod_self] at hmod
    have hcases : a = 0 ∨ a = m := by
      rcases Nat.lt_or_ge a m with hlt' | hge
      · exact Or.inl (by rwa [Nat.mod_eq_of_lt hlt'] at hmod)
      · exact Or.inr (by omega)
    rcases hcases with h0 | hm'
    · rw [if_pos h0]
      omega
    · rw [if_neg (by omega)]
      omega
  · rw [Nat.mod_eq_of_lt (by omega : n % m + 1 < m)] at hmod
    have hne : a ≠ m := by
      rintro rfl
      rw [Nat.mod_self] at hmod
      omega
    rw [Nat.mod_eq_of_lt (by omega)] at hmod
    rw [if_neg (by omega)]
    omega

/-! ## Records -/

/-- The last `m` records stand where their numbers put them. -/
def Holds (m : ℕ) (mem : ℕ → α) (recs : List α) : Prop :=
  ∀ k (hk : k < recs.length), recs.length ≤ k + m → mem (k % m) = recs[k]

theorem holds_nil (mem : ℕ → α) : Holds m mem [] := by
  intro k hk
  exact absurd hk (Nat.not_lt_zero k)

/-- Storing the next record in its slot keeps the last `m` records in place. -/
theorem Holds.push {mem : ℕ → α} {recs : List α} (h : Holds m mem recs) (x : α) :
    Holds m (Function.update mem (recs.length % m) x) (recs ++ [x]) := by
  intro k hk hlast
  rw [List.length_append, List.length_singleton] at hk hlast
  rcases Nat.lt_or_ge k recs.length with hold | hnew
  · have hslot : k % m ≠ recs.length % m := mod_ne_of_lt hold (by omega)
    rw [Function.update_of_ne hslot, List.getElem_append_left hold]
    exact h k hold (by omega)
  · obtain rfl : k = recs.length := by omega
    rw [Function.update_self, List.getElem_concat_length rfl]

/-- Slot `j` holds the last of the records whose numbers are `j` modulo `m`. -/
theorem Holds.latest {mem : ℕ → α} {recs : List α} (h : Holds m mem recs) {j : ℕ}
    (hj : j < min recs.length m) :
    ∃ k, ∃ hk : k < recs.length, k % m = j ∧ (∀ k' < recs.length, k' % m = j → k' ≤ k) ∧
      mem j = recs[k] := by
  have hjm : j < m := by omega
  have hjn : j < recs.length := by omega
  set n := recs.length with hn
  -- the last number below `n` that is `j` modulo `m`
  let k := j + m * ((n - 1 - j) / m)
  have hdiv := Nat.mod_add_div (n - 1 - j) m
  have hrem := Nat.mod_lt (n - 1 - j) (by omega : 0 < m)
  have hkmod : k % m = j := by
    rw [Nat.add_mul_mod_self_left, Nat.mod_eq_of_lt hjm]
  have hk : k < n := by
    simp only [k]
    omega
  have hlast : n ≤ k + m := by
    simp only [k]
    omega
  refine ⟨k, hk, hkmod, ?_, ?_⟩
  · intro k' hk' hmod'
    by_contra hgt
    exact mod_ne_of_lt (Nat.lt_of_not_le hgt) (by omega) (hkmod.trans hmod'.symm)
  · have := h k hk hlast
    rwa [hkmod] at this

/-- The slots in use hold the last `m` records and no others. -/
theorem Holds.mem_last_iff {mem : ℕ → α} {recs : List α} (h : Holds m mem recs) (x : α) :
    (∃ j < min recs.length m, mem j = x) ↔ x ∈ recs.drop (recs.length - m) := by
  constructor
  · rintro ⟨j, hj, rfl⟩
    obtain ⟨k, hk, hkmod, hlast, hmem⟩ := h.latest hj
    -- a record more than a turn back has a successor in its slot
    have hturn : recs.length ≤ k + m := by
      by_contra hback
      have := hlast (k + m) (by omega) (by rw [Nat.add_mod_right, hkmod])
      omega
    rw [hmem, List.mem_drop_iff_getElem]
    exact ⟨k - (recs.length - m), by omega, by congr 1; omega⟩
  · intro hx
    obtain ⟨i, hi, rfl⟩ := List.mem_drop_iff_getElem.1 hx
    have hm : 0 < m := by omega
    have hlt := Nat.mod_lt (i + (recs.length - m)) hm
    have hle := Nat.mod_le (i + (recs.length - m)) m
    refine ⟨(i + (recs.length - m)) % m, by omega, ?_⟩
    rw [h _ (by omega) (by omega)]
    congr 1
    omega

/-! ## Walking backwards -/

/-- What stands in `n` slots, from slot `a` backwards. -/
def walkBack (m : ℕ) (mem : ℕ → α) : (n a : ℕ) → List α
  | 0, _ => []
  | n + 1, a => mem a :: walkBack m mem n (before m a)

/-- A walk backwards from the slot of record `k` finds that record and the ones before it, if it does
not get as far as the slots that were written again. -/
theorem Holds.walkBack_eq {mem : ℕ → α} {recs : List α} (h : Holds m mem recs) {n k : ℕ}
    (hk : k < recs.length) (hn : n ≤ k + 1) (hlast : recs.length + n ≤ k + 1 + m) :
    walkBack m mem n (k % m) = (recs.take (k + 1)).reverse.take n := by
  induction n generalizing k with
  | zero => rfl
  | succ n ih =>
      have hslot := h k hk (by omega)
      rw [walkBack, hslot, List.take_succ_eq_append_getElem hk, List.reverse_append,
        List.reverse_singleton, List.singleton_append, List.take_succ_cons]
      congr 1
      cases n with
      | zero => rfl
      | succ n =>
          -- the slot before is the one of record `k - 1`
          have hm : 0 < m := by omega
          have hprev : k - 1 + 1 = k := by omega
          have hbefore : before m (k % m) = (k - 1) % m := by
            apply before_of_mod hm (Nat.le_of_lt (Nat.mod_lt k hm))
            rw [Nat.mod_mod, hprev]
          have hrest := ih (k := k - 1) (by omega) (by omega) (by omega)
          rw [hprev] at hrest
          rw [hbefore, hrest]

end RingBuffer
end PoorMansSmu
