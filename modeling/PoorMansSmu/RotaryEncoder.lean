import PoorMansSmu.Operations
import PoorMansSmu.Lib.Run
import Mathlib.Tactic.Linarith

/-!
# RotaryEncoder — what a turn of the knob is reported as

The encoder counts in interrupts; the main loop looks at the count and reports the difference to its
callback.  It reports the direction of the difference, times a speed, but not its size, so that what
is turned while the main loop is busy with something else is lost.

- `handle_eq`              : what a look at the knob reports;
- `detents_accounted_iff`  : the reports add up to the turn when every look finds one count at most.
-/

namespace PoorMansSmu
namespace RotaryEncoder

/-! ## The encoder -/

/-- The states of the decoder. -/
inductive EncoderState
  | A
  | B_cw
  | C_cw
  | D_cw
  | B_ccw
  | C_ccw
  | D_ccw
  deriving DecidableEq

inductive Direction
  | none
  | UP
  | DOWN
  | ERR
  deriving DecidableEq

open EncoderState Direction in
/-- Next state and direction for the two phases. -/
def stateMachineHalf : EncoderState → (phaseA phaseB : Bool) → EncoderState × Direction
  | A, false, false => (A, none)
  | A, false, true => (B_cw, none)
  | A, true, false => (D_ccw, none)
  | A, true, true => (A, ERR)
  | B_cw, false, false => (A, none)
  | B_cw, false, true => (B_cw, none)
  | B_cw, true, false => (B_cw, ERR)
  | B_cw, true, true => (C_cw, UP)
  | D_cw, false, false => (A, UP)
  | D_cw, false, true => (D_cw, ERR)
  | D_cw, true, false => (D_cw, none)
  | D_cw, true, true => (C_cw, none)
  | C_cw, false, false => (C_cw, ERR)
  | C_cw, false, true => (B_ccw, none)
  | C_cw, true, false => (D_cw, none)
  | C_cw, true, true => (C_cw, none)
  | B_ccw, false, false => (A, DOWN)
  | B_ccw, false, true => (B_ccw, none)
  | B_ccw, true, false => (B_ccw, ERR)
  | B_ccw, true, true => (C_cw, none)
  | D_ccw, false, false => (A, none)
  | D_ccw, false, true => (B_ccw, ERR)
  | D_ccw, true, false => (D_ccw, none)
  | D_ccw, true, true => (C_cw, DOWN)
  | C_ccw, _, _ => (C_ccw, ERR)

/-- The counter; it is 32 bits wide and goes round at its limits. -/
structure EncoderBase where
  value : ℤ := 0
  valChanged : Bool := false
  curState : EncoderState := .A

namespace EncoderBase

def minVal : ℤ := -2147483648

def maxVal : ℤ := 2147483647

/-- Count up or down. -/
def count (e : EncoderBase) : Direction → EncoderBase
  | .UP =>
      if e.value < maxVal then { e with value := e.value + 1, valChanged := true }
      else { e with value := minVal, valChanged := true }
  | .DOWN =>
      if e.value > minVal then { e with value := e.value - 1, valChanged := true }
      else { e with value := maxVal, valChanged := true }
  | _ => e

/-- The interrupt at a change of a phase. -/
def update (e : EncoderBase) (phase : Bool × Bool) : EncoderBase :=
  let next := stateMachineHalf e.curState phase.1 phase.2
  { e with curState := next.1 }.count next.2

end EncoderBase

/-! ## The knob -/

structure RotaryEncoderClass where
  knobLeft : EncoderBase := {}
  positionLeft : ℤ := 0
  millisAtLastStep : ℤ
  stepless_dynamic : Bool := true

namespace RotaryEncoderClass

def msSinceLast (r : RotaryEncoderClass) (millis : ℕ) : ℤ := wrap32 (millis - r.millisAtLastStep)

/-- How much a step counts, more for a fast turn. -/
def speed (r : RotaryEncoderClass) (reduceResolution : Bool) (millis : ℕ) : ℤ :=
  let feelyDampening := 5
  let feelyStartMs := 100
  let speed :=
    if r.stepless_dynamic then
      if r.msSinceLast millis > feelyStartMs then 1
      else truncate (1 + (feelyStartMs - r.msSinceLast millis : ℚ) / feelyDampening)
    else 1
  if reduceResolution then truncate (speed * 2) else speed

/-- `handle`, and the values it calls `changedFn` with. -/
def handle (r : RotaryEncoderClass) (reduceResolution : Bool) (millis : ℕ) :
    RotaryEncoderClass × List ℚ :=
  if r.knobLeft.valChanged then
    let r := { r with knobLeft := { r.knobLeft with valChanged := false } }
    let newLeft := r.knobLeft.value
    if newLeft ≠ r.positionLeft then
      let dir : ℤ := if newLeft < r.positionLeft then -1 else 1
      let speed := r.speed reduceResolution millis
      ({ r with millisAtLastStep := wrap32 millis, positionLeft := newLeft }, [speed * dir / 10])
    else (r, [])
  else (r, [])

end RotaryEncoderClass

/-- What comes before a look at the knob, and when that is: the phases at the interrupts. -/
structure Poll where
  phases : List (Bool × Bool)
  millis : ℕ

/-- The encoder when it is looked at. -/
def turned (r : RotaryEncoderClass) (e : Poll) : EncoderBase :=
  e.phases.foldl EncoderBase.update r.knobLeft

def poll (r : RotaryEncoderClass) (e : Poll) : RotaryEncoderClass × List ℚ :=
  RotaryEncoderClass.handle { r with knobLeft := turned r e } false e.millis

def step : RotaryEncoderClass × List ℚ → Poll → RotaryEncoderClass × List ℚ := Run.reported poll

/-- The knob at the start, with the dynamic speed off. -/
def start (curState : EncoderState) (millis : ℕ) : RotaryEncoderClass :=
  { knobLeft := { curState := curState }
    millisAtLastStep := wrap32 millis
    stepless_dynamic := false }

/-- The values reported add up to a tenth of the count. -/
def Accounted (s : RotaryEncoderClass × List ℚ) : Prop := s.2.sum = s.1.knobLeft.value / 10

/-- The look finds the count changed by one at most. -/
def AtMostOne (r : RotaryEncoderClass) (e : Poll) : Prop :=
  |(turned r e).value - r.positionLeft| ≤ 1

instance (r : RotaryEncoderClass) (e : Poll) : Decidable (AtMostOne r e) :=
  inferInstanceAs (Decidable (_ ≤ _))

/-! ## Interrupts -/

/-- A count that changes is marked. -/
theorem update_marks (e : EncoderBase) (phase : Bool × Bool) :
    (e.update phase).valChanged = true ∨
      (e.update phase).valChanged = e.valChanged ∧ (e.update phase).value = e.value := by
  unfold EncoderBase.update
  dsimp only
  cases (stateMachineHalf e.curState phase.1 phase.2).2 with
  | UP =>
      refine Or.inl ?_
      simp only [EncoderBase.count]
      split_ifs <;> rfl
  | DOWN =>
      refine Or.inl ?_
      simp only [EncoderBase.count]
      split_ifs <;> rfl
  | none => exact Or.inr ⟨rfl, rfl⟩
  | ERR => exact Or.inr ⟨rfl, rfl⟩

/-- The mark stays, however the knob goes on. -/
theorem foldl_update_marks (phases : List (Bool × Bool)) (e : EncoderBase) :
    (phases.foldl EncoderBase.update e).valChanged = true ∨
      (phases.foldl EncoderBase.update e).valChanged = e.valChanged ∧
        (phases.foldl EncoderBase.update e).value = e.value := by
  induction phases generalizing e with
  | nil => exact Or.inr ⟨rfl, rfl⟩
  | cons phase phases ih =>
      rw [List.foldl_cons]
      rcases ih (e.update phase) with hmarked | ⟨hmark, hvalue⟩
      · exact Or.inl hmarked
      · rw [hmark, hvalue]
        exact update_marks e phase

/-! ## A look at the knob -/

/-- Between two looks nothing is left to be reported. -/
structure Rest (r : RotaryEncoderClass) : Prop where
  position : r.positionLeft = r.knobLeft.value
  valChanged : r.knobLeft.valChanged = false
  stepless_dynamic : r.stepless_dynamic = false

theorem rest_start (curState : EncoderState) (millis : ℕ) : Rest (start curState millis) :=
  ⟨rfl, rfl, rfl⟩

section Poll

variable {r : RotaryEncoderClass}

theorem speed_of_rest (h : Rest r) (knobLeft : EncoderBase) (millis : ℕ) :
    RotaryEncoderClass.speed { r with knobLeft := knobLeft } false millis = 1 := by
  unfold RotaryEncoderClass.speed
  simp [h.stepless_dynamic]

/-- The direction of what was turned is reported, and the next turn starts from there. -/
theorem poll_eq (h : Rest r) (e : Poll) :
    Rest (poll r e).1 ∧ (poll r e).1.knobLeft.value = (turned r e).value ∧
      (poll r e).2.sum = ((turned r e).value - r.positionLeft).sign / 10 := by
  have hmarks := foldl_update_marks e.phases r.knobLeft
  have hspeed := speed_of_rest h
  unfold poll RotaryEncoderClass.handle
  dsimp only
  by_cases hchanged : (turned r e).valChanged = true
  · rw [if_pos hchanged]
    by_cases hmoved : (turned r e).value ≠ r.positionLeft
    · rw [if_pos hmoved, hspeed]
      refine ⟨⟨rfl, rfl, h.stepless_dynamic⟩, rfl, ?_⟩
      rw [List.sum_singleton]
      rcases lt_or_gt_of_ne hmoved with hlt | hgt
      · rw [if_pos hlt, Int.sign_eq_neg_one_of_neg (by omega)]
        norm_num
      · rw [if_neg (not_lt.2 hgt.le), Int.sign_eq_one_of_pos (by omega)]
        norm_num
    · have hsame := not_not.1 hmoved
      rw [if_neg hmoved, hsame, sub_self]
      exact ⟨⟨rfl, rfl, h.stepless_dynamic⟩, rfl, by simp⟩
  · -- without a mark the count is what it was
    rcases hmarks with hmarked | ⟨hmark, hvalue⟩
    · exact absurd hmarked hchanged
    · have hsame : (turned r e).value = r.positionLeft := hvalue.trans h.position.symm
      rw [if_neg hchanged, hsame, sub_self]
      exact ⟨⟨hsame.symm, hmark.trans h.valChanged, h.stepless_dynamic⟩, rfl, by simp⟩

/-- A report accounts for the turn exactly when that is one count at most. -/
theorem sign_eq_iff (n : ℤ) : ((n.sign : ℤ) : ℚ) / 10 = n / 10 ↔ |n| ≤ 1 := by
  rw [div_left_inj' (by norm_num), Int.cast_inj]
  rcases lt_trichotomy n 0 with hneg | rfl | hpos
  · rw [Int.sign_eq_neg_one_of_neg hneg, abs_of_neg hneg]
    omega
  · simp
  · rw [Int.sign_eq_one_of_pos hpos, abs_of_pos hpos]
    omega

theorem accounted_poll_iff {values : List ℚ} (h : Rest r) (hs : Accounted (r, values)) (e : Poll) :
    Accounted (step (r, values) e) ↔ AtMostOne r e := by
  obtain ⟨-, hvalue, hsum⟩ := poll_eq h e
  have hbefore : values.sum = r.positionLeft / 10 := by
    rw [h.position]
    exact hs
  show (values ++ (poll r e).2).sum = (poll r e).1.knobLeft.value / 10 ↔ _
  rw [List.sum_append, hbefore, hsum, hvalue, AtMostOne, ← sign_eq_iff]
  push_cast
  constructor
  · intro h
    linarith
  · intro h
    linarith

end Poll

/-! ## Runs -/

/-- The values reported add up to a tenth of what was turned, after every look at the knob, exactly
in the runs in which every look finds the count changed by one at most. -/
theorem detents_accounted_iff (curState : EncoderState) (millis : ℕ) (polls : List Poll) :
    Run.Always step Accounted (start curState millis, []) polls ↔
      Run.Guarded step (fun s e => AtMostOne s.1 e) (start curState millis, []) polls := by
  refine Run.always_iff_guarded (I := fun s => Rest s.1 ∧ Accounted s) ?_ ?_ ?_ ?_ polls
  · exact fun s hs => hs.2
  · rintro ⟨r, values⟩ e ⟨hrest, hs⟩ hok
    exact ⟨(poll_eq hrest e).1, (accounted_poll_iff hrest hs e).2 hok⟩
  · rintro ⟨r, values⟩ e ⟨hrest, hs⟩ hbad haccounted
    exact hbad ((accounted_poll_iff hrest hs e).1 haccounted)
  · refine ⟨rest_start curState millis, ?_⟩
    simp [Accounted, start]

/-- The phases of a turn to the right, by `n` periods of two counts each. -/
def right (n : ℕ) : List (Bool × Bool) :=
  (List.replicate n [(false, true), (true, true), (true, false), (false, false)]).flatten

/-- The knob is turned by two counts before the main loop looks at it: one is reported. -/
theorem not_detents_accounted :
    (turned (start .A 0) ⟨right 1, 30⟩).value = 2 ∧
      (Run.exec step (start .A 0, []) [⟨right 1, 30⟩]).2 = [1 / 10] ∧
      ¬ Run.Always step Accounted (start .A 0, []) [⟨right 1, 30⟩] := by
  refine ⟨by decide +kernel, by decide +kernel, ?_⟩
  rintro ⟨-, haccounted⟩
  have hnot : ¬ Accounted (step (start .A 0, []) ⟨right 1, 30⟩) := by
    unfold Accounted
    decide +kernel
  exact hnot haccounted

end RotaryEncoder
end PoorMansSmu
