import Mathlib.Data.List.Basic

/-!
# Run — finite runs of a deterministic machine

A machine is a step function `step : σ → ε → σ` over states `σ` and events `ε`.  A run is a list
of events, executed from a start state.  This file collects the notions used to state
properties of runs,

- `Run.exec`    : the state at the end of a run,
- `Run.Guarded` : every event of the run meets a condition in the state it is taken in,
- `Run.Always`  : a property holds in every state of the run, the first one included,
- `Run.AfterEach` : a property holds in every state of the run but the first,
- `Run.Sometime` : some event of the run is of a kind, in the state it is taken in,
- `Run.reported` : the machine together with what its calls have reported,

and the rules that carry an invariant along a run.  Nothing here mentions a particular program.
-/

namespace PoorMansSmu
namespace Run

variable {σ ε : Type*}

/-- The state a run ends in. -/
def exec (step : σ → ε → σ) (s : σ) (es : List ε) : σ :=
  es.foldl step s

/-- Every event of the run meets `ok` in the state in which it is taken. -/
def Guarded (step : σ → ε → σ) (ok : σ → ε → Prop) : σ → List ε → Prop
  | _, [] => True
  | s, e :: es => ok s e ∧ Guarded step ok (step s e) es

/-- `P` holds in every state of the run. -/
def Always (step : σ → ε → σ) (P : σ → Prop) : σ → List ε → Prop
  | s, [] => P s
  | s, e :: es => P s ∧ Always step P (step s e) es

/-- `P` holds after every event of the run. -/
def AfterEach (step : σ → ε → σ) (P : σ → Prop) : σ → List ε → Prop
  | _, [] => True
  | s, e :: es => P (step s e) ∧ AfterEach step P (step s e) es

/-- Some event of the run is of the kind `ev` in the state in which it is taken. -/
def Sometime (step : σ → ε → σ) (ev : σ → ε → Prop) : σ → List ε → Prop
  | _, [] => False
  | s, e :: es => ev s e ∨ Sometime step ev (step s e) es

instance decidableGuarded (step : σ → ε → σ) (ok : σ → ε → Prop) [∀ s e, Decidable (ok s e)] :
    ∀ s es, Decidable (Guarded step ok s es)
  | _, [] => isTrue trivial
  | s, e :: es =>
      haveI := decidableGuarded step ok (step s e) es
      inferInstanceAs (Decidable (ok s e ∧ Guarded step ok (step s e) es))

instance decidableAlways (step : σ → ε → σ) (P : σ → Prop) [DecidablePred P] :
    ∀ s es, Decidable (Always step P s es)
  | s, [] => inferInstanceAs (Decidable (P s))
  | s, e :: es =>
      haveI := decidableAlways step P (step s e) es
      inferInstanceAs (Decidable (P s ∧ Always step P (step s e) es))

instance decidableSometime (step : σ → ε → σ) (ev : σ → ε → Prop) [∀ s e, Decidable (ev s e)] :
    ∀ s es, Decidable (Sometime step ev s es)
  | _, [] => isFalse id
  | s, e :: es =>
      haveI := decidableSometime step ev (step s e) es
      inferInstanceAs (Decidable (ev s e ∨ Sometime step ev (step s e) es))

section Exec

variable (step : σ → ε → σ) (s : σ) (e : ε) (es fs : List ε)

@[simp] theorem exec_nil : exec step s [] = s := rfl

@[simp] theorem exec_cons : exec step s (e :: es) = exec step (step s e) es := rfl

theorem exec_append : exec step s (es ++ fs) = exec step (exec step s es) fs :=
  List.foldl_append

end Exec

section Guarded

variable {step : σ → ε → σ} {ok ok' : σ → ε → Prop}

@[simp] theorem guarded_nil (s : σ) : Guarded step ok s [] := trivial

@[simp] theorem guarded_cons (s : σ) (e : ε) (es : List ε) :
    Guarded step ok s (e :: es) ↔ ok s e ∧ Guarded step ok (step s e) es := Iff.rfl

theorem guarded_append (s : σ) (es fs : List ε) :
    Guarded step ok s (es ++ fs) ↔
      Guarded step ok s es ∧ Guarded step ok (exec step s es) fs := by
  induction es generalizing s with
  | nil => simp
  | cons e es ih =>
      rw [List.cons_append, guarded_cons, guarded_cons, ih, exec_cons, and_assoc]

/-- A condition on the events alone. -/
theorem guarded_of_forall {E : ε → Prop} (s : σ) {es : List ε} (h : ∀ e ∈ es, E e) :
    Guarded step (fun _ e => E e) s es := by
  induction es generalizing s with
  | nil => trivial
  | cons e es ih =>
      exact ⟨h e (List.mem_cons_self ..), ih _ fun e' he' => h e' (List.mem_cons_of_mem _ he')⟩

theorem Guarded.and {s : σ} {es : List ε} (h : Guarded step ok s es) (h' : Guarded step ok' s es) :
    Guarded step (fun s e => ok s e ∧ ok' s e) s es := by
  induction es generalizing s with
  | nil => trivial
  | cons e es ih =>
      exact ⟨⟨h.1, h'.1⟩, ih h.2 h'.2⟩

/-- A weaker condition is met by every run that meets the stronger one. -/
theorem Guarded.mono (h : ∀ s e, ok s e → ok' s e) {s : σ} {es : List ε}
    (hg : Guarded step ok s es) : Guarded step ok' s es := by
  induction es generalizing s with
  | nil => trivial
  | cons e es ih =>
      exact ⟨h s e hg.1, ih hg.2⟩

end Guarded

section Always

variable {step : σ → ε → σ} {P Q : σ → Prop}

@[simp] theorem always_nil (s : σ) : Always step P s [] ↔ P s := Iff.rfl

@[simp] theorem always_cons (s : σ) (e : ε) (es : List ε) :
    Always step P s (e :: es) ↔ P s ∧ Always step P (step s e) es := Iff.rfl

theorem Always.head {s : σ} {es : List ε} (h : Always step P s es) : P s := by
  cases es with
  | nil => exact h
  | cons e es => exact h.1

/-- What holds always holds at the end. -/
theorem Always.exec {s : σ} {es : List ε} (h : Always step P s es) : P (exec step s es) := by
  induction es generalizing s with
  | nil => exact h
  | cons e es ih => exact ih h.2

theorem Always.mono (hPQ : ∀ s, P s → Q s) {s : σ} {es : List ε} (h : Always step P s es) :
    Always step Q s es := by
  induction es generalizing s with
  | nil => exact hPQ s h
  | cons e es ih =>
      exact ⟨hPQ s h.1, ih h.2⟩

/-- Properties that agree all along a run. -/
theorem Always.congr {s : σ} {es : List ε} (h : Always step (fun s => P s ↔ Q s) s es) :
    Always step P s es ↔ Always step Q s es := by
  induction es generalizing s with
  | nil => exact h
  | cons e es ih => exact and_congr h.1 (ih h.2)

theorem always_append {s : σ} {es fs : List ε} :
    Always step P s (es ++ fs) ↔ Always step P s es ∧ Always step P (Run.exec step s es) fs := by
  induction es generalizing s with
  | nil => exact ⟨fun h => ⟨h.head, h⟩, fun h => h.2⟩
  | cons e es ih =>
      simp only [List.cons_append, always_cons, exec_cons, ih, and_assoc]

@[simp] theorem afterEach_nil (s : σ) : AfterEach step P s [] := trivial

@[simp] theorem afterEach_cons (s : σ) (e : ε) (es : List ε) :
    AfterEach step P s (e :: es) ↔ P (step s e) ∧ AfterEach step P (step s e) es := Iff.rfl

end Always

section Invariants

variable {step : σ → ε → σ} {ok : σ → ε → Prop} {I P : σ → Prop}

/-- The invariant rule: an invariant kept by every step that meets `ok` holds all along every
run whose steps meet `ok`. -/
theorem always_of_guarded (hstep : ∀ s e, I s → ok s e → I (step s e)) {s : σ} {es : List ε}
    (hs : I s) (hg : Guarded step ok s es) : Always step I s es := by
  induction es generalizing s with
  | nil => exact hs
  | cons e es ih =>
      exact ⟨hs, ih (hstep s e hs hg.1) hg.2⟩

/-- The invariant rule for machines whose every step keeps the invariant. -/
theorem always_of_step (hstep : ∀ s e, I s → I (step s e)) {s : σ} (hs : I s)
    (es : List ε) : Always step I s es := by
  induction es generalizing s with
  | nil => exact hs
  | cons e es ih =>
      exact ⟨hs, ih (hstep s e hs)⟩

/-- Events of a kind keep an invariant that makes them meet a condition. -/
theorem guarded_of_guarded {kind : σ → ε → Prop} (hok : ∀ s e, I s → kind s e → ok s e)
    (hstep : ∀ s e, I s → kind s e → ok s e → I (step s e)) {s : σ} {es : List ε} (hs : I s)
    (hg : Guarded step kind s es) : Guarded step ok s es := by
  induction es generalizing s with
  | nil => trivial
  | cons e es ih =>
      have he := hok s e hs hg.1
      exact ⟨he, ih (hstep s e hs hg.1 he) hg.2⟩

/-- A condition met wherever the invariant holds is met by every event of every run. -/
theorem guarded_of_step (hstep : ∀ s e, I s → I (step s e)) (hok : ∀ s e, I s → ok s e)
    {s : σ} (hs : I s) (es : List ε) : Guarded step ok s es := by
  induction es generalizing s with
  | nil => trivial
  | cons e es ih =>
      exact ⟨hok s e hs, ih (hstep s e hs)⟩

/-- The exact rule: when moreover a step that breaks `ok` leaves `P` at once, the runs on which
`P` always holds are exactly those whose steps all meet `ok`.  Here the events are restricted to a
kind `E`. -/
theorem always_iff_guarded_on {E : ε → Prop} (hP : ∀ s, I s → P s)
    (hstep : ∀ s e, I s → E e → ok s e → I (step s e))
    (hbad : ∀ s e, I s → E e → ¬ ok s e → ¬ P (step s e)) {s : σ} (hs : I s) (es : List ε)
    (hE : ∀ e ∈ es, E e) : Always step P s es ↔ Guarded step ok s es := by
  induction es generalizing s with
  | nil =>
      exact ⟨fun _ => trivial, fun _ => hP s hs⟩
  | cons e es ih =>
      have he : E e := hE e (List.mem_cons_self ..)
      have hes : ∀ e' ∈ es, E e' := fun e' h => hE e' (List.mem_cons_of_mem _ h)
      by_cases hok : ok s e
      · have hnext := ih (hstep s e hs he hok) hes
        exact ⟨fun h => ⟨hok, hnext.1 h.2⟩, fun h => ⟨hP s hs, hnext.2 h.2⟩⟩
      · -- the first step that does not meet `ok` decides both sides
        have hnot := hbad s e hs he hok
        exact ⟨fun h => absurd h.2.head hnot, fun h => absurd h.1 hok⟩

/-- The exact rule for all events. -/
theorem always_iff_guarded (hP : ∀ s, I s → P s)
    (hstep : ∀ s e, I s → ok s e → I (step s e))
    (hbad : ∀ s e, I s → ¬ ok s e → ¬ P (step s e)) {s : σ} (hs : I s) (es : List ε) :
    Always step P s es ↔ Guarded step ok s es :=
  always_iff_guarded_on (E := fun _ => True) hP (fun s e h _ => hstep s e h)
    (fun s e h _ => hbad s e h) hs es fun _ _ => trivial

/-- Two conditions that agree everywhere are met by the same runs. -/
theorem guarded_iff {ok' : σ → ε → Prop} (h : ∀ s e, ok s e ↔ ok' s e) (s : σ) (es : List ε) :
    Guarded step ok s es ↔ Guarded step ok' s es := by
  exact ⟨Guarded.mono fun s e => (h s e).1, Guarded.mono fun s e => (h s e).2⟩

end Invariants

section Observed

variable {step : σ → ε → σ} {ok ev : σ → ε → Prop} {α : Type*} {obs : σ → α} {Fits : σ → Prop}

/-- What every step keeps while a condition lasts, a run keeps. -/
theorem exec_observed
    (hstep : ∀ s e, ok s e → Fits s → Fits (step s e) ∧ obs (step s e) = obs s) {s : σ}
    {es : List ε} (hs : Fits s) (hg : Guarded step ok s es) : obs (exec step s es) = obs s := by
  induction es generalizing s with
  | nil => rfl
  | cons e es ih =>
      obtain ⟨hnext, hobs⟩ := hstep s e hg.1 hs
      calc obs (exec step s (e :: es)) = obs (step s e) := ih hnext hg.2
        _ = obs s := hobs

/-- Events of a kind show whether a condition holds: such an event changes what is observed unless
the condition holds, and makes the condition hold; other events change neither.  Then a run with
such an event leaves what is observed as it was exactly when the condition held at its start. -/
theorem exec_observed_iff
    (hother : ∀ s e, ok s e → ¬ ev s e → obs (step s e) = obs s ∧ (Fits (step s e) ↔ Fits s))
    (hev : ∀ s e, ok s e → ev s e → Fits (step s e) ∧ (obs (step s e) = obs s ↔ Fits s))
    {s : σ} {es : List ε} (hg : Guarded step ok s es) (hsome : Sometime step ev s es) :
    obs (exec step s es) = obs s ↔ Fits s := by
  have hkept : ∀ s e, ok s e → Fits s → Fits (step s e) ∧ obs (step s e) = obs s := by
    intro s e hok hs
    by_cases he : ev s e
    · exact ⟨(hev s e hok he).1, (hev s e hok he).2.2 hs⟩
    · exact ⟨(hother s e hok he).2.2 hs, (hother s e hok he).1⟩
  induction es generalizing s with
  | nil => exact absurd hsome id
  | cons e es ih =>
      rw [exec_cons]
      by_cases he : ev s e
      · -- the first event of the kind decides, and nothing changes after it
        obtain ⟨hnext, hiff⟩ := hev s e hg.1 he
        rw [exec_observed hkept hnext hg.2]
        exact hiff
      · obtain ⟨hobs, hiff⟩ := hother s e hg.1 he
        rw [← hobs, ← hiff]
        exact ih hg.2 (hsome.resolve_left he)

end Observed

section Reported

variable {ω : Type*} {call : σ → ε → σ × List ω} {ok : σ → ε → Prop} {I : σ → List ω → Prop}

/-- A machine whose calls report something: its state, and all that was reported. -/
def reported (call : σ → ε → σ × List ω) (s : σ × List ω) (e : ε) : σ × List ω :=
  ((call s.1 e).1, s.2 ++ (call s.1 e).2)

/-- The invariant rule for what is reported. -/
theorem always_reported
    (hcall : ∀ s ws e, I s ws → ok s e → I (call s e).1 (ws ++ (call s e).2)) {s : σ × List ω}
    {es : List ε} (hs : I s.1 s.2) (hg : Guarded (reported call) (fun s e => ok s.1 e) s es) :
    Always (reported call) (fun s => I s.1 s.2) s es :=
  always_of_guarded (fun s e hI hok => hcall s.1 s.2 e hI hok) hs hg

end Reported

section Related

variable {τ φ : Type*} {step : σ → ε → σ} {step' : τ → φ → τ} {ok : σ → ε → Prop}
  {R : σ → τ → Prop} {f : ε → φ}

/-- The simulation rule: what one machine does step by step for the events of another, it does for a
run. -/
theorem exec_related (hstep : ∀ s t e, R s t → ok s e → R (step s e) (step' t (f e))) {s : σ} {t : τ}
    {es : List ε} (hst : R s t) (hg : Guarded step ok s es) :
    R (exec step s es) (exec step' t (es.map f)) := by
  induction es generalizing s t with
  | nil => exact hst
  | cons e es ih => exact ih (hstep s t e hst hg.1) hg.2

end Related

end Run
end PoorMansSmu
