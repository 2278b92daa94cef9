import Mathlib.Computability.Language

/-!
# Episodes — sequences of events that fall into episodes

Some events belong together: they make up an episode, and the next episode begins only after the
one before it is complete.  With the complete episodes given as a language, a sequence of events is

- `EndsIn E p` : complete episodes, followed by the events `p`,
- `Nested E`   : as much as has happened so far of a sequence of complete episodes.

The rules follow a machine that reports events one at a time: it begins an episode, goes on with it
and completes it.  Nothing here mentions a particular program.
-/

namespace PoorMansSmu
namespace Episodes

open scoped Computability

variable {α : Type*} {E : Language α} {p q w u : List α}

/-- Complete episodes, and after them the events `p`. -/
def EndsIn (E : Language α) (p w : List α) : Prop := ∃ done ∈ E∗, w = done ++ p

/-- The events can go on to a sequence of complete episodes. -/
def Nested (E : Language α) (w : List α) : Prop := ∃ u, w ++ u ∈ E∗

theorem endsIn_nil : EndsIn E [] [] := ⟨[], Language.nil_mem_kstar E, rfl⟩

theorem EndsIn.append (h : EndsIn E p w) (q : List α) : EndsIn E (p ++ q) (w ++ q) := by
  rcases h with ⟨done, hdone, rfl⟩
  exact ⟨done, hdone, List.append_assoc done p q⟩

/-- An episode is complete. -/
theorem EndsIn.complete (h : EndsIn E p w) (hp : p ∈ E) : EndsIn E [] w := by
  rcases h with ⟨done, hdone, rfl⟩
  rcases Language.mem_kstar.1 hdone with ⟨L, rfl, hL⟩
  refine ⟨(L ++ [p]).flatten, Language.join_mem_kstar ?_, by simp⟩
  intro y hy
  rcases List.mem_append.1 hy with hy | hy
  · exact hL y hy
  · rw [List.mem_singleton.1 hy]
    exact hp

theorem EndsIn.nested_nil (h : EndsIn E [] w) : Nested E w := by
  rcases h with ⟨done, hdone, rfl⟩
  refine ⟨[], ?_⟩
  rwa [List.append_nil, List.append_nil]

/-- What has begun can still become an episode. -/
theorem EndsIn.nested (h : EndsIn E p w) (hpq : p ++ q ∈ E) : Nested E w := by
  rcases ((h.append q).complete hpq).nested_nil with ⟨u, hu⟩
  exact ⟨q ++ u, by rwa [← List.append_assoc]⟩

/-- The first event belongs to an episode. -/
theorem Nested.exists_episode {a : α} (h : Nested E (a :: w)) :
    ∃ episode ∈ E, ∃ u, episode <+: a :: w ++ u ∧ episode ≠ [] := by
  rcases h with ⟨u, hu⟩
  rcases Language.mem_kstar_iff_exists_nonempty.1 hu with ⟨L, hL, hmem⟩
  cases L with
  | nil => simp at hL
  | cons y ys =>
      rcases hmem y (List.mem_cons_self ..) with ⟨hy, hne⟩
      exact ⟨y, hy, u, ⟨ys.flatten, hL.symm⟩, hne⟩

end Episodes
end PoorMansSmu
