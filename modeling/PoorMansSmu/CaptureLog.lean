import PoorMansSmu.Capture

/-!
# CaptureLog — the digitizer with a log of what it measured

The sampler of `Capture` forgets most of what it measured.  To state what a capture or a trigger is
about, every measured sample is logged here, together with whether it was accepted as a trigger.
-/

namespace PoorMansSmu
namespace CaptureLog

open Capture

/-- A measured sample. -/
structure Measured where
  v : ℚ
  /-- The sample with which a capture began. -/
  trigger : Bool
  deriving DecidableEq

/-- The sampler, and what it measured since some moment, the last sample first. -/
structure Logged where
  s : Sampler
  log : List Measured := []
  /-- How many of the four last voltages are zeros written at the end of a capture. -/
  zeros : ℕ := 0

/-- A sample is measured unless the display is being drawn or has not been taken over yet. -/
def measures (s : Sampler) : Bool := !s.rendering && !s.bufferOverflow

def step (l : Logged) : Event → Logged
  | .sample v =>
      let s := Capture.step l.s (.sample v)
      if measures l.s then
        { s := s
          log := ⟨v, !l.s.triggered && s.triggered⟩ :: l.log
          zeros := if s.bufferOverflow then 4 else l.zeros - 1 }
      else { l with s := s }
  | .panel d rendering triggerLevel =>
      { l with s := Capture.step l.s (.panel d rendering triggerLevel) }

section Step

variable {l : Logged} {v : ℚ}

theorem measures_iff (s : Sampler) :
    measures s = true ↔ s.rendering = false ∧ s.bufferOverflow = false := by
  simp [measures]

@[simp] theorem step_s (l : Logged) (e : Event) : (step l e).s = Capture.step l.s e := by
  cases e with
  | sample v =>
      unfold step
      split_ifs <;> rfl
  | panel d rendering triggerLevel => rfl

/-- A sample that is not measured leaves no trace. -/
theorem step_skip (h : measures l.s = false) : step l (.sample v) = l := by
  have hskip : l.s.rendering = true ∨ l.s.bufferOverflow = true := by
    unfold measures at h
    cases hrendering : l.s.rendering with
    | true => exact Or.inl rfl
    | false =>
        rw [hrendering] at h
        exact Or.inr (by simpa using h)
  unfold step
  dsimp only
  rw [h, if_neg Bool.false_ne_true]
  show { l with s := l.s.handleSamplingForDigitizer v } = l
  rw [handleSampling_skip hskip]

theorem step_measured (h : measures l.s = true) :
    step l (.sample v) =
      { s := l.s.handleSamplingForDigitizer v
        log := ⟨v, !l.s.triggered && (l.s.handleSamplingForDigitizer v).triggered⟩ :: l.log
        zeros :=
          if (l.s.handleSamplingForDigitizer v).bufferOverflow then 4 else l.zeros - 1 } := by
  unfold step
  dsimp only
  rw [h, if_pos rfl]
  rfl

/-- What a measured sample does: it is stored, and a full buffer ends the capture. -/
theorem handleSampling_cases {s : Sampler} (h : measures s = true) (v : ℚ) :
    let s' : Sampler := { s with waitForLower := (s.detect v).2 }
    let stored := s'.store (s'.mayTrigger ((s.detect v).1 || s.continuous)) v
    s.handleSamplingForDigitizer v = stored ∨
      s.handleSamplingForDigitizer v = stored.complete := by
  rcases (measures_iff s).1 h with ⟨hrendering, hoverflow⟩
  rw [handleSampling_process hrendering hoverflow]
  unfold Sampler.process
  dsimp only
  split_ifs
  · exact Or.inr rfl
  · exact Or.inl rfl

/-- A measured sample is logged, as a trigger if it began a capture. -/
theorem step_log (l : Logged) (e : Event) :
    (step l e).log = l.log ∧ ((step l e).s.triggered = true → l.s.triggered = true) ∨
      ∃ v, e = .sample v ∧
        (step l e).log = ⟨v, !l.s.triggered && (step l e).s.triggered⟩ :: l.log := by
  cases e with
  | panel d rendering triggerLevel => exact Or.inl ⟨rfl, id⟩
  | sample v =>
      cases hmeasures : measures l.s with
      | false =>
          rw [step_skip hmeasures]
          exact Or.inl ⟨rfl, id⟩
      | true =>
          rw [step_measured hmeasures]
          exact Or.inr ⟨v, rfl, rfl⟩

end Step

theorem exec_s (l : Logged) (es : List Event) :
    (Run.exec step l es).s = Run.exec Capture.step l.s es := by
  induction es generalizing l with
  | nil => rfl
  | cons e es ih =>
      rw [Run.exec_cons, Run.exec_cons, ih, step_s]

/-- What is logged was measured. -/
theorem forall_log {P : ℚ → Prop} {es : List Event} (hes : ∀ v, Event.sample v ∈ es → P v)
    {l : Logged} (hl : ∀ m ∈ l.log, P m.v) :
    ∀ m ∈ (Run.exec CaptureLog.step l es).log, P m.v := by
  induction es generalizing l with
  | nil => exact hl
  | cons e es ih =>
      rw [Run.exec_cons]
      refine ih (fun v hv => hes v (List.mem_cons_of_mem _ hv)) ?_
      rcases step_log l e with ⟨hlog, -⟩ | ⟨v, rfl, hlog⟩
      · rw [hlog]
        exact hl
      · rw [hlog]
        exact List.forall_mem_cons.2 ⟨hes v (List.mem_cons_self ..), hl⟩

end CaptureLog
end PoorMansSmu
