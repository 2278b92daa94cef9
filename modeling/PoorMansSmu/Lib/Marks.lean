import Mathlib.Data.List.Basic

/-!
# Marks — what lies between the marked entries of a log

A log lists its entries with the last one first.  Some of them are marked.

- `since mark log` : the entries since the last marked one, itself included;
- `Between mark R log` : `R` holds of what lies between any two marked entries that follow one
  another, the earlier one included;
- `between_cons_iff` : an entry more adds one such stretch if it is marked;
- `since_cons_marked`, `since_cons_unmarked` : how the open stretch grows.

Nothing here mentions a particular program.
-/

namespace PoorMansSmu
namespace Marks

variable {α : Type*} (mark : α → Bool)

def since : List α → Option (List α)
  | [] => none
  | x :: log => if mark x then some [x] else (since log).map (x :: ·)

def Between (R : List α → Prop) (log : List α) : Prop :=
  ∀ after q stretch p before, log = after ++ q :: (stretch ++ p :: before) →
    mark q = true → mark p = true → (∀ x ∈ stretch, mark x = false) → R (stretch ++ [p])

variable {mark} {R : List α → Prop} {log s : List α} {x : α}

theorem since_cons_marked (hx : mark x = true) : since mark (x :: log) = some [x] := if_pos hx

theorem since_cons_unmarked (hx : mark x = false) :
    since mark (x :: log) = (since mark log).map (x :: ·) := by
  rw [since, hx, if_neg Bool.false_ne_true]

/-- The open stretch starts at the last mark. -/
theorem since_eq_some_iff :
    since mark log = some s ↔ ∃ stretch p before, log = stretch ++ p :: before ∧ mark p = true ∧
      (∀ x ∈ stretch, mark x = false) ∧ s = stretch ++ [p] := by
  induction log generalizing s with
  | nil =>
      constructor
      · intro h
        cases h
      · rintro ⟨stretch, p, before, hlog, -⟩
        exact absurd hlog.symm (by simp)
  | cons y log ih =>
      cases hy : mark y with
      | true =>
          rw [since_cons_marked hy]
          constructor
          · intro h
            exact ⟨[], y, log, rfl, hy, fun x hx => absurd hx List.not_mem_nil,
              (Option.some.inj h).symm⟩
          · rintro ⟨stretch, p, before, hlog, hp, hfree, rfl⟩
            -- the entry itself is the mark, so nothing lies after it
            cases stretch with
            | nil => rw [(List.cons.inj hlog).1, List.nil_append]
            | cons z stretch =>
                have hz := hfree z (List.mem_cons_self ..)
                rw [← (List.cons.inj hlog).1, hy] at hz
                cases hz
      | false =>
          rw [since_cons_unmarked hy, Option.map_eq_some_iff]
          constructor
          · rintro ⟨s', hs', rfl⟩
            rcases ih.1 hs' with ⟨stretch, p, before, rfl, hp, hfree, rfl⟩
            exact ⟨y :: stretch, p, before, rfl, hp, List.forall_mem_cons.2 ⟨hy, hfree⟩, rfl⟩
          · rintro ⟨stretch, p, before, hlog, hp, hfree, rfl⟩
            cases stretch with
            | nil =>
                rw [(List.cons.inj hlog).1, hp] at hy
                cases hy
            | cons z stretch =>
                rcases List.cons.inj hlog with ⟨rfl, rfl⟩
                exact ⟨stretch ++ [p], ih.2 ⟨stretch, p, before, rfl, hp,
                  (List.forall_mem_cons.1 hfree).2, rfl⟩, rfl⟩

theorem between_nil : Between mark R [] := by
  intro after q stretch p before hlog
  exact absurd hlog.symm (by simp)

/-- A marked entry closes the open stretch; an entry without a mark changes nothing. -/
theorem between_cons_iff :
    Between mark R (x :: log) ↔
      Between mark R log ∧ (mark x = true → ∀ s, since mark log = some s → R s) := by
  constructor
  · intro h
    constructor
    · intro after q stretch p before hlog
      exact h (x :: after) q stretch p before (by rw [hlog, List.cons_append])
    · intro hx s hs
      rcases since_eq_some_iff.1 hs with ⟨stretch, p, before, rfl, hp, hfree, rfl⟩
      exact h [] x stretch p before rfl hx hp hfree
  · rintro ⟨hbetween, hopen⟩ after q stretch p before hlog hq hp hfree
    cases after with
    | nil =>
        -- the entry is the later mark of the two
        rcases List.cons.inj hlog with ⟨rfl, rfl⟩
        exact hopen hq _ (since_eq_some_iff.2 ⟨stretch, p, before, rfl, hp, hfree, rfl⟩)
    | cons y after =>
        exact hbetween after q stretch p before (List.cons.inj hlog).2 hq hp hfree

end Marks
end PoorMansSmu
