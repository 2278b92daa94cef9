import PoorMansSmu.Lib.Run
import Mathlib.Logic.Relation
import Mathlib.Data.Set.Image

/-!
# Interrupts — programs that are interrupted, and sections that are not

A program is a list of items.  A handler may come in before any item for which it is `enabled`, and
may be interrupted itself.  When a program comes in sections of items, and no handler is enabled
within a section, every run is one of whole sections, with at most one of them still under way
(`reduction`).
-/

namespace PoorMansSmu
namespace Interrupts

open Run

variable {σ ι β : Type*}

/-- A state, and what the running program still has to do, above the programs it has interrupted. -/
structure Config (σ ι : Type*) where
  state : σ
  stack : List (List ι)

/-- A step of the running program, its end, or the start of a handler. -/
inductive Step (step : σ → ι → σ) (enabled : σ → Prop) (handlers : Set (List ι)) :
    Config σ ι → Config σ ι → Prop
  | run (s : σ) (e : ι) (es : List ι) (stack : List (List ι)) :
      Step step enabled handlers ⟨s, (e :: es) :: stack⟩ ⟨step s e, es :: stack⟩
  | ret (s : σ) (stack : List (List ι)) :
      Step step enabled handlers ⟨s, [] :: stack⟩ ⟨s, stack⟩
  | interrupt (s : σ) (stack : List (List ι)) (h : List ι) (hh : h ∈ handlers) (hs : enabled s) :
      Step step enabled handlers ⟨s, stack⟩ ⟨s, h :: stack⟩

/-- What can become of a program that starts alone. -/
def Reaches (step : σ → ι → σ) (enabled : σ → Prop) (handlers : Set (List ι)) (s : σ)
    (program : List ι) : Config σ ι → Prop :=
  Relation.ReflTransGen (Step step enabled handlers) ⟨s, [program]⟩

/-- What a step keeps and an interrupt leaves alone holds of every state that is reached. -/
theorem Reaches.keeps {step : σ → ι → σ} {enabled : σ → Prop} {handlers : Set (List ι)} {s : σ}
    {program : List ι} {c : Config σ ι} (h : Reaches step enabled handlers s program c)
    {I : σ → Prop} (hs : I s) (hstep : ∀ s e, I s → I (step s e)) : I c.state := by
  induction h with
  | refl => exact hs
  | tail _ hlast ih =>
      cases hlast with
      | run => exact hstep _ _ ih
      | ret => exact ih
      | interrupt => exact ih

/-- The running program gets some items further. -/
theorem Reaches.run {step : σ → ι → σ} {enabled : σ → Prop} {handlers : Set (List ι)} {s : σ}
    {program : List ι} {s' : σ} {es fs : List ι} {stack : List (List ι)}
    (h : Reaches step enabled handlers s program ⟨s', (es ++ fs) :: stack⟩) :
    Reaches step enabled handlers s program ⟨exec step s' es, fs :: stack⟩ := by
  induction es generalizing s' with
  | nil => exact h
  | cons e es ih => exact ih (h.tail (Step.run s' e (es ++ fs) stack))

/-- A machine that another one shows, step by step, goes through the same programs. -/
theorem Reaches.map {τ : Type*} {step : σ → ι → σ} {step' : τ → ι → τ} {enabled : σ → Prop}
    {enabled' : τ → Prop} {handlers : Set (List ι)} {s : σ} {program : List ι} {c : Config σ ι}
    (h : Reaches step enabled handlers s program c) {I : σ → Prop} (f : σ → τ) (hs : I s)
    (hkeeps : ∀ s e, I s → I (step s e)) (hstep : ∀ s e, I s → f (step s e) = step' (f s) e)
    (henabled : ∀ s, enabled s → enabled' (f s)) :
    Reaches step' enabled' handlers (f s) program ⟨f c.state, c.stack⟩ := by
  induction h with
  | refl => exact Relation.ReflTransGen.refl
  | tail hreach hlast ih =>
      have hI := Reaches.keeps hreach hs hkeeps
      refine ih.tail ?_
      cases hlast with
      | run s e es stack =>
          rw [hstep s e hI]
          exact Step.run (f s) e es stack
      | ret s stack => exact Step.ret (f s) stack
      | interrupt s stack h hh hs => exact Step.interrupt (f s) stack h hh (henabled s hs)

section Sections

variable (step : σ → ι → σ) (events : β → List ι) (enabled : σ → Prop)

/-- A section as one step. -/
def atOnce (s : σ) (b : β) : σ := exec step s (events b)

/-- From a state of rest a section leads to a state of rest, and nothing is enabled within it. -/
structure Sections (Rest : σ → Prop) : Prop where
  ne_nil : ∀ b, events b ≠ []
  rest : ∀ s b, Rest s → Rest (atOnce step events s b)
  inside : ∀ s b done todo, Rest s → events b = done ++ todo → done ≠ [] → todo ≠ [] →
    ¬ enabled (exec step s done)

/-- A configuration beside one in which sections are single steps: between two sections, or within
the next one. -/
inductive Beside : Config σ β → Config σ ι → Prop
  | between (s : σ) (stack : List (List β)) :
      Beside ⟨s, stack⟩ ⟨s, stack.map (List.flatMap events)⟩
  | within (s : σ) (b : β) (bs : List β) (stack : List (List β)) (done todo : List ι)
      (hb : events b = done ++ todo) (hdone : done ≠ []) (htodo : todo ≠ []) :
      Beside ⟨s, (b :: bs) :: stack⟩
        ⟨exec step s done,
          (todo ++ bs.flatMap events) :: stack.map (List.flatMap events)⟩

variable {step events enabled} {Rest : σ → Prop} {handlers : Set (List β)}

/-- One more item of the section that is next, or under way. -/
theorem beside_run {s : σ} {b : β} {done todo : List ι} {e : ι} (hb : events b = done ++ e :: todo)
    (bs : List β) (stack : List (List β)) (hs : Rest s)
    (hsections : Sections step events enabled Rest) :
    ∃ a, Relation.ReflTransGen (Step (atOnce step events) enabled handlers)
        ⟨s, (b :: bs) :: stack⟩ a ∧ Rest a.state ∧
      Beside step events a ⟨step (exec step s done) e,
        (todo ++ bs.flatMap events) :: stack.map (List.flatMap events)⟩ := by
  have hnext : step (exec step s done) e = exec step s (done ++ [e]) := by
    rw [exec_append]
    rfl
  rw [hnext]
  by_cases htodo : todo = []
  · -- the section ends with this item
    subst htodo
    refine ⟨⟨atOnce step events s b, bs :: stack⟩, ?_, hsections.rest s b hs, ?_⟩
    · exact Relation.ReflTransGen.single (Step.run s b bs stack)
    · rw [← hb]
      exact Beside.between _ (bs :: stack)
  · refine ⟨_, Relation.ReflTransGen.refl, hs, ?_⟩
    exact Beside.within s b bs stack (done ++ [e]) todo (by simpa using hb) (by simp) htodo

/-- Every configuration that is reached is beside one that whole sections reach. -/
theorem reduction (hsections : Sections step events enabled Rest) {s : σ} (hs : Rest s)
    {program : List β} {c : Config σ ι}
    (h : Reaches step enabled (List.flatMap events '' handlers) s (program.flatMap events) c) :
    ∃ a, Reaches (atOnce step events) enabled handlers s program a ∧ Rest a.state ∧
      Beside step events a c := by
  induction h with
  | refl => exact ⟨_, Relation.ReflTransGen.refl, hs, Beside.between s [program]⟩
  | tail _ hlast ih =>
      obtain ⟨a, hreach, hrest, hbeside⟩ := ih
      have hfurther : ∀ {c' : Config σ ι}, (∃ a',
          Relation.ReflTransGen (Step (atOnce step events) enabled handlers) a a' ∧
            Rest a'.state ∧ Beside step events a' c') →
          ∃ a', Reaches (atOnce step events) enabled handlers s program a' ∧ Rest a'.state ∧
            Beside step events a' c' := by
        rintro c' ⟨a', hmore, hrest', hbeside'⟩
        exact ⟨a', hreach.trans hmore, hrest', hbeside'⟩
      refine hfurther ?_
      cases hbeside with
      | between s' stack =>
          generalize hstack : stack.map (List.flatMap events) = fine at hlast
          cases hlast with
          | run _ e es rest =>
              obtain ⟨bs, stack, rfl, hes, rfl⟩ := List.map_eq_cons_iff.1 hstack
              cases bs with
              | nil => cases hes
              | cons b bs =>
                  obtain ⟨e', todo, hb⟩ := List.exists_cons_of_ne_nil (hsections.ne_nil b)
                  rw [List.flatMap_cons, hb] at hes
                  obtain ⟨rfl, rfl⟩ := List.cons_eq_cons.1 hes
                  rw [← List.nil_append (e' :: todo)] at hb
                  exact beside_run hb bs stack hrest hsections
          | ret _ rest =>
              obtain ⟨bs, stack, rfl, hes, rfl⟩ := List.map_eq_cons_iff.1 hstack
              have hbs : bs = [] := by
                cases bs with
                | nil => rfl
                | cons b bs =>
                    rw [List.flatMap_cons, List.append_eq_nil_iff] at hes
                    exact absurd hes.1 (hsections.ne_nil b)
              subst hbs
              exact ⟨⟨s', stack⟩, Relation.ReflTransGen.single (Step.ret s' stack), hrest,
                Beside.between s' stack⟩
          | interrupt _ _ _ hh henabled =>
              subst hstack
              obtain ⟨h, hmem, rfl⟩ := hh
              exact ⟨⟨s', h :: stack⟩,
                Relation.ReflTransGen.single (Step.interrupt s' stack h hmem henabled), hrest,
                Beside.between s' (h :: stack)⟩
      | within s' b bs stack done todo hb hdone htodo =>
          obtain ⟨e, todo, rfl⟩ := List.exists_cons_of_ne_nil htodo
          cases hlast with
          | run => exact beside_run hb bs stack hrest hsections
          | interrupt _ _ _ _ henabled =>
              exact absurd henabled (hsections.inside s' b done (e :: todo) hrest hb hdone htodo)

end Sections

end Interrupts
end PoorMansSmu
