import Mathlib.Order.Bounds.Basic
import Mathlib.Data.Set.Lattice

/-!
# Extremes — least and greatest entries found by a scan

A loop that goes through some entries and keeps the least of those that count finds their least
element, if the value it starts from is above one of them; likewise for the greatest.  The entries
that do not count are those that hold a mark for "not set".

- `scanLeast`, `scanGreatest` : the two loops;
- `isLeast_scanLeast`, `isGreatest_scanGreatest` : what they find;
- `isLeast_concat`, `isGreatest_concat` : one more entry;
- `isLeast_insert_iff`, `isGreatest_insert_iff` : when an element that does not belong makes no
  difference;
- `isLeast_iff_of_isLeast`, `isGreatest_iff_of_isGreatest` : when two sets share an extreme element;
- `cofinal_shared_iff`, `coinitial_shared_iff` : the same, of two sets with elements in common;
- `Search` : a search for both extremes at a time;
- `isLeast_groups`, `isGreatest_groups` : extremes of groups and of everything in them.

Nothing here mentions a particular program.
-/

namespace PoorMansSmu
namespace Extremes

variable {α : Type*} [LinearOrder α]

section Scan

variable (counts : α → Prop) [inst : DecidablePred counts]

/-- The least entry that counts, starting from `start`. -/
def scanLeast (start : α) (xs : List α) : α :=
  xs.foldl (fun m x => if x ≤ m ∧ counts x then x else m) start

/-- The greatest entry that counts, starting from `start`. -/
def scanGreatest (start : α) (xs : List α) : α :=
  xs.foldl (fun m x => if x ≥ m ∧ counts x then x else m) start

/-- What the scan finds lies below its start and all entries that count, and is one of them. -/
theorem isLeast_insert_scanLeast (start : α) (xs : List α) :
    IsLeast (insert start {x | x ∈ xs ∧ counts x}) (scanLeast counts start xs) := by
  induction xs generalizing start with
  | nil => simp [scanLeast]
  | cons x xs ih =>
      by_cases hx : x ≤ start ∧ counts x
      · -- the scan goes on from the entry
        have hscan : scanLeast counts start (x :: xs) = scanLeast counts x xs := by
          simp [scanLeast, hx]
        rw [hscan]
        obtain ⟨hmem, hlow⟩ := ih x
        have hself := hlow (Set.mem_insert x _)
        constructor
        · rcases hmem with heq | ⟨hin, hcounts⟩
          · rw [heq]
            exact Or.inr ⟨List.mem_cons_self, hx.2⟩
          · exact Or.inr ⟨List.mem_cons_of_mem _ hin, hcounts⟩
        · rintro y (rfl | ⟨hy, hcounts⟩)
          · exact hself.trans hx.1
          · rcases List.mem_cons.1 hy with rfl | hy
            · exact hself
            · exact hlow (Or.inr ⟨hy, hcounts⟩)
      · -- the entry is passed over
        have hscan : scanLeast counts start (x :: xs) = scanLeast counts start xs := by
          simp only [scanLeast, List.foldl_cons, if_neg hx]
        rw [hscan]
        obtain ⟨hmem, hlow⟩ := ih start
        constructor
        · rcases hmem with heq | ⟨hin, hcounts⟩
          · exact Or.inl heq
          · exact Or.inr ⟨List.mem_cons_of_mem _ hin, hcounts⟩
        · rintro y (rfl | ⟨hy, hcounts⟩)
          · exact hlow (Or.inl rfl)
          · rcases List.mem_cons.1 hy with rfl | hy
            · -- an entry that counts and was passed over is above the start
              have hle : start ≤ y := le_of_not_ge fun hge => hx ⟨hge, hcounts⟩
              exact (hlow (Or.inl rfl)).trans hle
            · exact hlow (Or.inr ⟨hy, hcounts⟩)

theorem isGreatest_insert_scanGreatest (start : α) (xs : List α) :
    IsGreatest (insert start {x | x ∈ xs ∧ counts x}) (scanGreatest counts start xs) :=
  @isLeast_insert_scanLeast αᵒᵈ _ counts inst start xs

variable {counts}

theorem isLeast_scanLeast {start : α} {xs : List α} (h : ∃ x ∈ xs, counts x ∧ x < start) :
    IsLeast {x | x ∈ xs ∧ counts x} (scanLeast counts start xs) := by
  obtain ⟨x, hx, hcounts, hlt⟩ := h
  obtain ⟨hmem, hlow⟩ := isLeast_insert_scanLeast counts start xs
  refine ⟨hmem.resolve_left ?_, fun y hy => hlow (Or.inr hy)⟩
  -- the start is not what is found, since an entry that counts lies below it
  intro heq
  have hle := hlow (Or.inr ⟨hx, hcounts⟩)
  exact absurd hlt (not_lt.2 (heq ▸ hle))

theorem isGreatest_scanGreatest {start : α} {xs : List α} (h : ∃ x ∈ xs, counts x ∧ start < x) :
    IsGreatest {x | x ∈ xs ∧ counts x} (scanGreatest counts start xs) :=
  @isLeast_scanLeast αᵒᵈ _ counts inst start xs h

end Scan

/-! ## One more entry -/

theorem isLeast_concat {xs : List α} {m : α} (h : IsLeast {x | x ∈ xs} m) (y : α) :
    IsLeast {x | x ∈ xs ++ [y]} (min y m) := by
  have hset : {x | x ∈ xs ++ [y]} = insert y {x | x ∈ xs} := by
    ext x
    simp [or_comm]
  rw [hset]
  exact h.insert y

theorem isGreatest_concat {xs : List α} {m : α} (h : IsGreatest {x | x ∈ xs} m) (y : α) :
    IsGreatest {x | x ∈ xs ++ [y]} (max y m) :=
  isLeast_concat (α := αᵒᵈ) h y

/-! ## An element that does not belong -/

/-- An element more makes no difference to the least one unless it is below all others. -/
theorem isLeast_insert_iff {s : Set α} {a m : α} (h : IsLeast (insert a s) m) :
    IsLeast s m ↔ ∃ x ∈ s, x ≤ a := by
  constructor
  · intro hs
    exact ⟨m, hs.1, h.2 (Set.mem_insert a s)⟩
  · rintro ⟨x, hx, hxa⟩
    refine ⟨?_, fun y hy => h.2 (Set.mem_insert_of_mem a hy)⟩
    rcases h.1 with rfl | hm
    · rwa [le_antisymm (h.2 (Set.mem_insert_of_mem m hx)) hxa]
    · exact hm

theorem isGreatest_insert_iff {s : Set α} {a m : α} (h : IsGreatest (insert a s) m) :
    IsGreatest s m ↔ ∃ x ∈ s, a ≤ x :=
  isLeast_insert_iff (α := αᵒᵈ) h

/-! ## Two sets with one extreme element -/

/-- The greatest element of a set is that of another one when neither goes beyond the other. -/
theorem isGreatest_iff_of_isGreatest {s t : Set α} {m : α} (h : IsGreatest s m) :
    IsGreatest t m ↔ IsCofinalFor t s ∧ IsCofinalFor s t := by
  constructor
  · intro ht
    exact ⟨fun x hx => ⟨m, h.1, ht.2 hx⟩, fun x hx => ⟨m, ht.1, h.2 hx⟩⟩
  · rintro ⟨hts, hst⟩
    have hbound : m ∈ upperBounds t := by
      intro x hx
      obtain ⟨y, hy, hxy⟩ := hts hx
      exact hxy.trans (h.2 hy)
    obtain ⟨x, hx, hmx⟩ := hst h.1
    exact ⟨le_antisymm hmx (hbound hx) ▸ hx, hbound⟩

theorem isLeast_iff_of_isLeast {s t : Set α} {m : α} (h : IsLeast s m) :
    IsLeast t m ↔ IsCoinitialFor t s ∧ IsCoinitialFor s t :=
  isGreatest_iff_of_isGreatest (α := αᵒᵈ) h

/-- Two sets with the elements `s` in common: neither goes beyond the other when the other elements
of each do not go beyond it.  One of the sets has the element `start` as well. -/
theorem cofinal_shared_iff {start : α} {s t u : Set α} :
    IsCofinalFor (s ∪ t) (insert start (s ∪ u)) ∧ IsCofinalFor (insert start (s ∪ u)) (s ∪ t) ↔
      (∃ w ∈ s ∪ t, start ≤ w) ∧ (∀ v ∈ t, v ≤ start ∨ ∃ w ∈ s ∪ u, v ≤ w) ∧
        ∀ v ∈ u, ∃ w ∈ s ∪ t, v ≤ w := by
  constructor
  · rintro ⟨hup, hup'⟩
    refine ⟨hup' (Or.inl rfl), fun v hv => ?_, fun v hv => hup' (Or.inr (Or.inr hv))⟩
    rcases hup (Or.inr hv) with ⟨w, rfl | hw, hvw⟩
    · exact Or.inl hvw
    · exact Or.inr ⟨w, hw, hvw⟩
  · rintro ⟨hstart, ht, hu⟩
    constructor
    · rintro v (hv | hv)
      · exact ⟨v, Or.inr (Or.inl hv), le_rfl⟩
      · rcases ht v hv with hlow | ⟨w, hw, hvw⟩
        · exact ⟨start, Or.inl rfl, hlow⟩
        · exact ⟨w, Or.inr hw, hvw⟩
    · rintro v (rfl | hv | hv)
      · exact hstart
      · exact ⟨v, Or.inl hv, le_rfl⟩
      · exact hu v hv

theorem coinitial_shared_iff {start : α} {s t u : Set α} :
    IsCoinitialFor (s ∪ t) (insert start (s ∪ u)) ∧
        IsCoinitialFor (insert start (s ∪ u)) (s ∪ t) ↔
      (∃ w ∈ s ∪ t, w ≤ start) ∧ (∀ v ∈ t, start ≤ v ∨ ∃ w ∈ s ∪ u, w ≤ v) ∧
        ∀ v ∈ u, ∃ w ∈ s ∪ t, w ≤ v :=
  cofinal_shared_iff (α := αᵒᵈ)

/-! ## A search for both -/

/-- What a search for both extremes has found among the values in `S`; it looks for the greatest value
from `low` on and for the least one from `high` on. -/
structure Search (low high : α) (S : Set α) (greatest least : α) : Prop where
  greatest : IsGreatest (insert low S) greatest
  least : IsLeast (insert high S) least

theorem search_empty (low high : α) : Search low high ∅ low high where
  greatest := by
    rw [insert_empty_eq]
    exact isGreatest_singleton
  least := by
    rw [insert_empty_eq]
    exact isLeast_singleton

theorem Search.insert {low high : α} {S : Set α} {greatest least : α}
    (h : Search low high S greatest least) (x : α) :
    Search low high (insert x S) (max x greatest) (min x least) where
  greatest := by
    rw [Set.insert_comm]
    exact h.greatest.insert x
  least := by
    rw [Set.insert_comm]
    exact h.least.insert x

/-! ## Groups -/

variable {ι : Type*} {s : Set ι} {f : ι → Set α}

/-- The least of the groups' least entries is the least of all. -/
theorem isLeast_groups {lo : ι → α} (h : ∀ i ∈ s, IsLeast (f i) (lo i)) {m : α}
    (hm : IsLeast (lo '' s) m) : IsLeast (⋃ i ∈ s, f i) m := by
  obtain ⟨⟨i, hi, rfl⟩, hlow⟩ := hm
  constructor
  · exact Set.mem_biUnion hi (h i hi).1
  · intro x hx
    obtain ⟨j, hj, hxj⟩ := Set.mem_iUnion₂.1 hx
    exact (hlow ⟨j, hj, rfl⟩).trans ((h j hj).2 hxj)

theorem isGreatest_groups {hi : ι → α} (h : ∀ i ∈ s, IsGreatest (f i) (hi i)) {m : α}
    (hm : IsGreatest (hi '' s) m) : IsGreatest (⋃ i ∈ s, f i) m :=
  isLeast_groups (α := αᵒᵈ) h hm

end Extremes
end PoorMansSmu
