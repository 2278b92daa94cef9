import PoorMansSmu.Lib.Run
import Mathlib.Data.List.Induction
import Mathlib.Tactic.SplitIfs

/-!
# ByteStore — named cells laid over one array

A store keeps values under names; each name stands for a block of consecutive addresses of one
array, as a hand-made address map has it.  When blocks overlap, a write to one name can spoil what
is kept under another.  The file answers when it does:

- `lastValue`   : what was last written under a name;
- `content`     : what a name stands for, which is that or what it held before;
- `Independent` : names read back what was last written under them, and no write changes another;
- `Agree`       : wherever two blocks share an address, the names stand for the same there.

Along a sequence of writes names are independent exactly when they always agree
(`independent_iff_agree`).  So a layout without overlaps reads back (`readsBack_of_separate`), and in
one with overlaps names are independent only by coincidence.
-/

namespace PoorMansSmu
namespace ByteStore

/-- Where each name is kept: the block of `size k` addresses from `address k` on. -/
structure Layout (κ : Type*) where
  address : κ → ℕ
  size : κ → ℕ

variable {κ β : Type*} (L : Layout κ)

namespace Layout

/-- The address `a` belongs to the block of `k`. -/
def Covers (k : κ) (a : ℕ) : Prop := L.address k ≤ a ∧ a < L.address k + L.size k

instance (k : κ) (a : ℕ) : Decidable (L.Covers k a) :=
  inferInstanceAs (Decidable (_ ∧ _))

/-- Write the content `v`, given by offset, to the block of `k`. -/
def write (m : ℕ → β) (w : κ × (ℕ → β)) : ℕ → β :=
  fun a => if L.Covers w.1 a then w.2 (a - L.address w.1) else m a

end Layout

/-- The content last written under the name `k`. -/
def lastValue [DecidableEq κ] (k : κ) : List (κ × (ℕ → β)) → Option (ℕ → β)
  | [] => none
  | w :: ws =>
      match lastValue k ws with
      | some v => some v
      | none => if w.1 = k then some w.2 else none

/-- Every name that was written reads back what was last written under it. -/
def ReadsBack [DecidableEq κ] (m : ℕ → β) (ws : List (κ × (ℕ → β))) : Prop :=
  ∀ k v, lastValue k ws = some v → ∀ i < L.size k, Run.exec L.write m ws (L.address k + i) = v i

/-- What a name stands for: what was last written under it, or else what it held before. -/
def content [DecidableEq κ] (m : ℕ → β) (ws : List (κ × (ℕ → β))) (k : κ) : ℕ → β :=
  (lastValue k ws).getD fun i => m (L.address k + i)

/-- Each of the names `K` reads back what it stands for. -/
def Holds [DecidableEq κ] (K : κ → Prop) (m : ℕ → β) (ws : List (κ × (ℕ → β))) : Prop :=
  ∀ k, K k → ∀ i < L.size k, Run.exec L.write m ws (L.address k + i) = content L m ws k i

/-- Any two of the names `K` stand for the same at every address they share. -/
def Agree [DecidableEq κ] (K : κ → Prop) (m : ℕ → β) (ws : List (κ × (ℕ → β))) : Prop :=
  ∀ k k', K k → K k' → ∀ a, L.Covers k a → L.Covers k' a →
    content L m ws k (a - L.address k) = content L m ws k' (a - L.address k')

/-- All along a sequence of writes, names read back what was last written under them, and no single
write changes what another of the names `K` holds. -/
structure Independent [DecidableEq κ] (K : κ → Prop) (m : ℕ → β) (ws : List (κ × (ℕ → β))) :
    Prop where
  readsBack : ∀ us, us <+: ws → ReadsBack L m us
  unchanged : ∀ us w, us ++ [w] <+: ws → ∀ k, K k → k ≠ w.1 → ∀ i < L.size k,
    Run.exec L.write m (us ++ [w]) (L.address k + i) = Run.exec L.write m us (L.address k + i)

section Write

variable (m : ℕ → β) (w : κ × (ℕ → β)) (a : ℕ)

theorem write_inside (h : L.Covers w.1 a) : L.write m w a = w.2 (a - L.address w.1) := if_pos h

theorem write_outside (h : ¬ L.Covers w.1 a) : L.write m w a = m a := if_neg h

end Write

variable [DecidableEq κ]

@[simp] theorem lastValue_nil (k : κ) : lastValue k ([] : List (κ × (ℕ → β))) = none := rfl

theorem lastValue_cons (k : κ) (w : κ × (ℕ → β)) (ws : List (κ × (ℕ → β))) :
    lastValue k (w :: ws) = (lastValue k ws).or (if w.1 = k then some w.2 else none) := by
  rw [lastValue]
  cases lastValue k ws <;> rfl

theorem lastValue_append (k : κ) (ws us : List (κ × (ℕ → β))) :
    lastValue k (ws ++ us) = (lastValue k us).or (lastValue k ws) := by
  induction ws with
  | nil => simp
  | cons w ws ih =>
      rw [List.cons_append, lastValue_cons, ih, lastValue_cons, Option.or_assoc]

/-- A name that has a last value was written. -/
theorem mem_of_lastValue {k : κ} {ws : List (κ × (ℕ → β))} {v : ℕ → β}
    (h : lastValue k ws = some v) : (k, v) ∈ ws := by
  induction ws with
  | nil => simp at h
  | cons w ws ih =>
      rw [lastValue_cons, Option.or_eq_some_iff] at h
      rcases h with h | ⟨-, h⟩
      · exact List.mem_cons_of_mem _ (ih h)
      · split_ifs at h with hk
        cases h
        rw [← hk]
        exact List.mem_cons_self

/-- After a run of writes, an address either holds the last value of some name that covers it, or
what it held before, and then no written name covers it. -/
theorem exec_write_cases (m : ℕ → β) (ws : List (κ × (ℕ → β))) (a : ℕ) :
    (∃ k v, lastValue k ws = some v ∧ L.Covers k a ∧
        Run.exec L.write m ws a = v (a - L.address k)) ∨
      (Run.exec L.write m ws a = m a ∧ ∀ w ∈ ws, ¬ L.Covers w.1 a) := by
  induction ws using List.reverseRecOn with
  | nil => exact Or.inr ⟨rfl, by simp⟩
  | append_singleton ws w ih =>
      rw [Run.exec_append]
      by_cases hw : L.Covers w.1 a
      · -- the last write decides
        refine Or.inl ⟨w.1, w.2, ?_, hw, write_inside L _ w a hw⟩
        rw [lastValue_append, lastValue_cons, if_pos rfl]
        rfl
      · have hkeep : Run.exec L.write (Run.exec L.write m ws) [w] a = Run.exec L.write m ws a :=
          write_outside L _ w a hw
        rw [hkeep]
        rcases ih with ⟨k, v, hlast, hcover, hvalue⟩ | ⟨hvalue, hnone⟩
        · -- the new write is not to `k`, whose block covers `a`
          have hne : w.1 ≠ k := by
            rintro rfl
            exact hw hcover
          refine Or.inl ⟨k, v, ?_, hcover, hvalue⟩
          rw [lastValue_append, lastValue_cons, if_neg hne]
          exact hlast
        · refine Or.inr ⟨hvalue, ?_⟩
          intro u hu
          rcases List.mem_append.1 hu with hu | hu
          · exact hnone u hu
          · rw [List.mem_singleton.1 hu]
            exact hw

/-! ## Independent names -/

section Content

variable (m : ℕ → β) (ws : List (κ × (ℕ → β)))

theorem content_of_last {k : κ} {v : ℕ → β} (h : lastValue k ws = some v) :
    content L m ws k = v := by
  rw [content, h]
  rfl

theorem lastValue_concat_self (w : κ × (ℕ → β)) : lastValue w.1 (ws ++ [w]) = some w.2 := by
  rw [lastValue_append, lastValue_cons, if_pos rfl]
  rfl

/-- A write under another name does not change what a name stands for. -/
theorem content_concat_of_ne {w : κ × (ℕ → β)} {k : κ} (h : k ≠ w.1) :
    content L m (ws ++ [w]) k = content L m ws k := by
  have hlast : lastValue k (ws ++ [w]) = lastValue k ws := by
    rw [lastValue_append, lastValue_cons, if_neg h.symm]
    rfl
  rw [content, content, hlast]

variable {K : κ → Prop} {ws}

/-- The names read back what they stand for exactly when they agree wherever they overlap. -/
theorem holds_iff_agree (hws : ∀ w ∈ ws, K w.1) : Holds L K m ws ↔ Agree L K m ws := by
  constructor
  · -- both names read back the one value stored at the address they share
    intro hholds k k' hk hk' a ha ha'
    have hvalue : ∀ k, K k → L.Covers k a →
        Run.exec L.write m ws a = content L m ws k (a - L.address k) := by
      rintro k hk ⟨hlow, hhigh⟩
      have h := hholds k hk (a - L.address k) (by omega)
      rw [Nat.add_sub_cancel' hlow] at h
      exact h
    calc content L m ws k (a - L.address k)
        = Run.exec L.write m ws a := (hvalue k hk ha).symm
      _ = content L m ws k' (a - L.address k') := hvalue k' hk' ha'
  · -- the address holds what was written last to some name over it, which agrees
    intro hagree k hk i hi
    have hcover : L.Covers k (L.address k + i) := ⟨Nat.le_add_right _ _, by omega⟩
    rcases exec_write_cases L m ws (L.address k + i) with ⟨k', v', hk', hcover', hvalue⟩ | ⟨hsame, hnone⟩
    · have hK : K k' := hws _ (mem_of_lastValue hk')
      calc Run.exec L.write m ws (L.address k + i)
          = v' (L.address k + i - L.address k') := hvalue
        _ = content L m ws k' (L.address k + i - L.address k') := by
            rw [content_of_last L m ws hk']
        _ = content L m ws k (L.address k + i - L.address k) :=
            (hagree k k' hk hK _ hcover hcover').symm
        _ = content L m ws k i := by rw [Nat.add_sub_cancel_left]
    · have hlast : lastValue k ws = none := by
        cases hlast : lastValue k ws with
        | none => rfl
        | some v => exact absurd hcover (hnone _ (mem_of_lastValue hlast))
      rw [hsame, content, hlast]
      rfl

/-- What names read back after each single write. -/
theorem Independent.holds (h : Independent L K m ws) {us : List (κ × (ℕ → β))} (hus : us <+: ws) :
    Holds L K m us := by
  induction us using List.reverseRecOn with
  | nil => exact fun k _ i _ => rfl
  | append_singleton us w ih =>
      intro k hk i hi
      by_cases hkw : k = w.1
      · subst hkw
        have hlast := lastValue_concat_self us w
        rw [content_of_last L m _ hlast]
        exact h.readsBack _ hus _ _ hlast i hi
      · have hbefore := ih ((List.prefix_append us [w]).trans hus) k hk i hi
        rw [h.unchanged us w hus k hk hkw i hi, content_concat_of_ne L m us hkw]
        exact hbefore

/-- Names are independent along a sequence of writes exactly when they always agree. -/
theorem independent_iff_agree (hws : ∀ w ∈ ws, K w.1) :
    Independent L K m ws ↔ ∀ us, us <+: ws → Agree L K m us := by
  have hwritten : ∀ us, us <+: ws → ∀ w ∈ us, K w.1 := fun us hus w hw => hws w (hus.subset hw)
  constructor
  · intro h us hus
    exact (holds_iff_agree L m (hwritten us hus)).1 (h.holds L m hus)
  · intro hagree
    have hholds : ∀ us, us <+: ws → Holds L K m us := fun us hus =>
      (holds_iff_agree L m (hwritten us hus)).2 (hagree us hus)
    constructor
    · intro us hus k v hlast i hi
      have hk : K k := hwritten us hus _ (mem_of_lastValue hlast)
      rw [hholds us hus k hk i hi, content_of_last L m us hlast]
    · intro us w hus k hk hkw i hi
      have hbefore := hholds us ((List.prefix_append us [w]).trans hus) k hk i hi
      rw [hholds _ hus k hk i hi, content_concat_of_ne L m us hkw, hbefore]

end Content

/-! ## Layouts without overlaps -/

/-- A name that is always written with the same content was last written with it. -/
theorem lastValue_of_mem {k : κ} {v : ℕ → β} {ws : List (κ × (ℕ → β))} (hmem : (k, v) ∈ ws)
    (hsame : ∀ w ∈ ws, w.1 = k → w.2 = v) : lastValue k ws = some v := by
  induction ws with
  | nil => nomatch hmem
  | cons w ws ih =>
      rw [lastValue_cons]
      by_cases hrest : (k, v) ∈ ws
      · -- a later write is found first
        rw [ih hrest fun u hu => hsame u (List.mem_cons_of_mem _ hu)]
        rfl
      · -- the first write is the only one under the name
        have hw : (k, v) = w := (List.mem_cons.1 hmem).resolve_right hrest
        have hnone : lastValue k ws = none := by
          cases hlast : lastValue k ws with
          | none => rfl
          | some u =>
              have hu := mem_of_lastValue hlast
              have heq := hsame _ (List.mem_cons_of_mem _ hu) rfl
              rw [← heq] at hrest
              exact absurd hu hrest
        rw [hnone, ← hw, if_pos rfl]
        rfl

/-- When no two names of a sequence of writes share an address, every one of them reads back. -/
theorem readsBack_of_separate (m : ℕ → β) {ws : List (κ × (ℕ → β))}
    (h : ∀ w ∈ ws, ∀ u ∈ ws, ∀ a, L.Covers w.1 a → L.Covers u.1 a → w.1 = u.1) :
    ReadsBack L m ws := by
  intro k v hk i hi
  have hcover : L.Covers k (L.address k + i) := ⟨Nat.le_add_right _ _, by omega⟩
  rcases exec_write_cases L m ws (L.address k + i) with ⟨k', v', hk', hcover', hvalue⟩ | ⟨-, hnone⟩
  · -- the one name over the address is `k` itself
    have heq : k = k' := h _ (mem_of_lastValue hk) _ (mem_of_lastValue hk') _ hcover hcover'
    subst heq
    rw [hk] at hk'
    cases hk'
    rw [hvalue, Nat.add_sub_cancel_left]
  · exact absurd hcover (hnone _ (mem_of_lastValue hk))

/-- An address that no written name covers keeps what it holds. -/
theorem exec_write_outside (m : ℕ → β) {ws : List (κ × (ℕ → β))} {a : ℕ}
    (h : ∀ w ∈ ws, ¬ L.Covers w.1 a) : Run.exec L.write m ws a = m a := by
  rcases exec_write_cases L m ws a with ⟨k, v, hlast, hcover, -⟩ | ⟨hsame, -⟩
  · exact absurd hcover (h _ (mem_of_lastValue hlast))
  · exact hsame

end ByteStore
end PoorMansSmu
