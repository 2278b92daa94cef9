import PoorMansSmu.FrontPanel
import PoorMansSmu.Lib.Run
import Mathlib.Algebra.Ring.Subring.Basic

/-!
# SweepBounds — sweeps between their limits

Every value a sweep commits is noted with the limits in force.  A sweep turns round when it has come
to a limit, and adds its step after that, so it stays between the limits as long as every step fits
in what is left to the limit ahead; with step and limits left as they are, it does
(`sweep_stays_inside`).
-/

namespace PoorMansSmu
namespace SweepBounds

open Calibration FrontPanel SmuHal Run

/-! ## Sweeps -/

structure Commit where
  value_micro : ℤ
  low : ℚ
  high : ℚ
  deriving DecidableEq

structure State where
  FUNCTION_SWEEP : FunctionSweepClass
  SMU : ADCClass
  /-- Every value committed by the sweep, with the limits at that time. -/
  commits : List Commit := []

inductive Event
  | handle (millis : ℕ)
  | handleButtonAction (inputTag : Tag) (millis : ℕ)
  | open_ (operationType : OperationType) (millis : ℕ)

def step (s : State) : Event → State
  | .handle millis =>
      let (FUNCTION_SWEEP, SMU) := s.FUNCTION_SWEEP.handle s.SMU millis
      { FUNCTION_SWEEP, SMU
        commits :=
          if s.FUNCTION_SWEEP.due millis then
            s.commits ++ [⟨SMU.setValue_micro, s.FUNCTION_SWEEP.low, s.FUNCTION_SWEEP.high⟩]
          else s.commits }
  | .handleButtonAction inputTag millis =>
      { s with FUNCTION_SWEEP := s.FUNCTION_SWEEP.handleButtonAction inputTag millis }
  | .open_ operationType millis =>
      { s with FUNCTION_SWEEP := s.FUNCTION_SWEEP.open_ operationType millis }

/-- After `init`. -/
def start (SMU : ADCClass) : State where
  FUNCTION_SWEEP := { currentSweepValue := 0, currentSweepDir := 1 }
  SMU := SMU

/-- The value, in millionths, lies between the limits, in thousandths. -/
def Commit.Inside (c : Commit) : Prop :=
  c.low * 1000 ≤ c.value_micro ∧ c.value_micro ≤ c.high * 1000

instance (c : Commit) : Decidable c.Inside := inferInstanceAs (Decidable (_ ∧ _))

def AllInside (s : State) : Prop := ∀ c ∈ s.commits, c.Inside

instance : DecidablePred AllInside := fun _ => inferInstanceAs (Decidable (∀ _ ∈ _, _))

/-- The next step goes up: to the high limit, or back from the low one. -/
def GoesUp (c : FunctionSweepClass) : Prop :=
  c.currentSweepDir = 1 ∧ c.currentSweepValue < c.high ∨
    c.currentSweepDir = -1 ∧ c.currentSweepValue ≤ c.low

instance (c : FunctionSweepClass) : Decidable (GoesUp c) := inferInstanceAs (Decidable (_ ∨ _))

/-- The step fits in what is left to the limit ahead, and does not lead back over the other one. -/
def StepFits (c : FunctionSweepClass) : Prop :=
  if GoesUp c then c.low - c.currentSweepValue ≤ c.step ∧ c.step ≤ c.high - c.currentSweepValue
  else c.currentSweepValue - c.high ≤ c.step ∧ c.step ≤ c.currentSweepValue - c.low

instance (c : FunctionSweepClass) : Decidable (StepFits c) := by
  unfold StepFits
  infer_instance

/-- When the next value is due, the step fits. -/
def Fits (s : State) : Event → Prop
  | .handle millis => s.FUNCTION_SWEEP.due millis = true → StepFits s.FUNCTION_SWEEP
  | _ => True

/-! ## One step of a sweep -/

section NextValue

variable {c : FunctionSweepClass} (hdir : c.currentSweepDir = 1 ∨ c.currentSweepDir = -1)
  (millis : ℕ)

include hdir

theorem nextValue_eq :
    c.nextValue millis = { c with
      pulseTimer := wrap32 millis
      currentSweepDir := if GoesUp c then 1 else -1
      currentSweepValue :=
        if GoesUp c then c.currentSweepValue + c.step else c.currentSweepValue - c.step } := by
  rcases hdir with hup | hdown
  · by_cases hend : c.currentSweepValue ≥ c.high
    · -- turns round at the high limit
      have hgoes : ¬ GoesUp c := by
        rintro (⟨-, hlt⟩ | ⟨hdown, -⟩)
        · exact absurd hend (not_le.2 hlt)
        · omega
      simp [FunctionSweepClass.nextValue, hup, hend, hgoes, sub_eq_add_neg]
    · have hgoes : GoesUp c := Or.inl ⟨hup, not_le.1 hend⟩
      simp [FunctionSweepClass.nextValue, hup, hend, hgoes]
  · by_cases hend : c.currentSweepValue ≤ c.low
    · -- turns round at the low limit
      have hgoes : GoesUp c := Or.inr ⟨hdown, hend⟩
      simp [FunctionSweepClass.nextValue, hdown, hend, hgoes]
    · have hgoes : ¬ GoesUp c := by
        rintro (⟨hup, -⟩ | ⟨-, hle⟩)
        · omega
        · exact hend hle
      simp [FunctionSweepClass.nextValue, hdown, hend, hgoes, sub_eq_add_neg]

/-- The next value lies between the limits exactly when the step fits. -/
theorem stepFits_iff :
    StepFits c ↔ c.low ≤ (c.nextValue millis).currentSweepValue ∧
      (c.nextValue millis).currentSweepValue ≤ c.high := by
  rw [nextValue_eq hdir, StepFits]
  by_cases hgoes : GoesUp c
  · simp only [hgoes, if_true]
    constructor <;> rintro ⟨hlow, hhigh⟩ <;> constructor <;> linarith
  · simp only [hgoes, if_false]
    constructor <;> rintro ⟨hlow, hhigh⟩ <;> constructor <;> linarith

end NextValue

/-! ## Whole numbers -/

/-- The whole numbers among the rationals. -/
abbrev Whole : Subring ℚ := (Int.castRingHom ℚ).range

theorem truncate_of_whole {x : ℚ} (h : x ∈ Whole) : (truncate x : ℚ) = x := by
  obtain ⟨n, rfl⟩ := h
  unfold truncate
  split_ifs <;> simp

/-- All settings of a sweep are whole numbers, and its direction is up or down. -/
structure Settled (c : FunctionSweepClass) : Prop where
  value : c.currentSweepValue ∈ Whole
  step : c.step ∈ Whole
  high : c.high ∈ Whole
  low : c.low ∈ Whole
  dir : c.currentSweepDir = 1 ∨ c.currentSweepDir = -1

theorem Settled.adjust {c : FunctionSweepClass} (h : Settled c) (inputTag : Tag) :
    Settled (c.adjust inputTag) := by
  have hten : (10 : ℚ) ∈ Whole := ⟨10, by norm_num⟩
  have hhundred : (100 : ℚ) ∈ Whole := ⟨100, by norm_num⟩
  cases inputTag with
  | SWEEP_BUTTON_STEP_INC => exact { h with step := add_mem h.step hten }
  | SWEEP_BUTTON_STEP_DEC => exact { h with step := sub_mem h.step hten }
  | SWEEP_BUTTON_VOLT_INC =>
      exact { h with high := add_mem h.high hhundred, low := sub_mem h.low hhundred }
  | SWEEP_BUTTON_VOLT_DEC =>
      exact { h with high := sub_mem h.high hhundred, low := add_mem h.low hhundred }
  | SWEEP_BUTTON_CLEAR => exact { h with value := zero_mem Whole, dir := Or.inl rfl }
  | _ => exact { h with }

theorem Settled.handleButtonAction {c : FunctionSweepClass} (h : Settled c) (inputTag : Tag)
    (millis : ℕ) : Settled (c.handleButtonAction inputTag millis) := by
  simp only [FunctionSweepClass.handleButtonAction]
  split_ifs
  case pos => exact ⟨h.value, h.step, h.high, h.low, h.dir⟩
  all_goals
    first
    | exact h
    | apply Settled.adjust
      exact ⟨h.value, h.step, h.high, h.low, h.dir⟩

theorem Settled.nextValue {c : FunctionSweepClass} (h : Settled c) (millis : ℕ) :
    Settled (c.nextValue millis) := by
  rw [nextValue_eq h.dir]
  refine { h with value := ?_, dir := ?_ }
  · dsimp only
    split_ifs
    · exact add_mem h.value h.step
    · exact sub_mem h.value h.step
  · dsimp only
    split_ifs
    · exact Or.inl rfl
    · exact Or.inr rfl

/-- A sweep that is due goes on to its next value, and commits it. -/
theorem handle_of_due {c : FunctionSweepClass} {SMU : ADCClass} {millis : ℕ}
    (hdue : c.due millis = true) :
    (c.handle SMU millis).1 = c.nextValue millis ∧
      (c.handle SMU millis).2.setValue_micro =
        truncate ((c.nextValue millis).currentSweepValue * 1000) := by
  unfold FunctionSweepClass.handle FunctionSweepClass.operateSmuVoltage
    FunctionSweepClass.operateSmuCurrent
  rw [if_pos hdue, if_pos hdue]
  split_ifs
  · exact ⟨rfl, ADCClass.voltageSource_setValue ..⟩
  · exact ⟨rfl, ADCClass.currentSource_setValue ..⟩

theorem handle_of_not_due {c : FunctionSweepClass} {SMU : ADCClass} {millis : ℕ}
    (hdue : ¬ c.due millis = true) : (c.handle SMU millis).1 = c := by
  unfold FunctionSweepClass.handle FunctionSweepClass.operateSmuVoltage
    FunctionSweepClass.operateSmuCurrent
  rw [if_neg hdue, if_neg hdue]
  split_ifs <;> rfl

/-! ## Runs -/

structure Inv (s : State) : Prop where
  settled : Settled s.FUNCTION_SWEEP
  inside : AllInside s

theorem start_inv (SMU : ADCClass) : Inv (start SMU) where
  settled := ⟨zero_mem Whole, ⟨100, by norm_num [start]⟩, ⟨1000, by norm_num [start]⟩,
    ⟨-1000, by norm_num [start]⟩, Or.inl rfl⟩
  inside := by
    intro c hc
    exact absurd hc List.not_mem_nil

/-- The value committed lies between the limits exactly when the step fits. -/
theorem commit_inside_iff {c : FunctionSweepClass} (h : Settled c) {SMU : ADCClass} {millis : ℕ}
    (hdue : c.due millis = true) :
    Commit.Inside ⟨(c.handle SMU millis).2.setValue_micro, c.low, c.high⟩ ↔ StepFits c := by
  have hthousand : (1000 : ℚ) ∈ Whole := ⟨1000, by norm_num⟩
  -- nothing is cut off, so the value committed is the value of the sweep
  have hwhole := truncate_of_whole (mul_mem (h.nextValue millis).value hthousand)
  rw [Commit.Inside, (handle_of_due hdue).2, hwhole, stepFits_iff h.dir millis,
    mul_le_mul_iff_left₀ (by norm_num), mul_le_mul_iff_left₀ (by norm_num)]

theorem Inv.step {s : State} (h : Inv s) {e : Event} (hok : Fits s e) : Inv (step s e) := by
  cases e with
  | handle millis =>
      by_cases hdue : s.FUNCTION_SWEEP.due millis = true
      · refine ⟨?_, ?_⟩
        · change Settled (s.FUNCTION_SWEEP.handle s.SMU millis).1
          rw [(handle_of_due hdue).1]
          exact h.settled.nextValue millis
        · intro c hc
          simp only [SweepBounds.step, hdue, if_true] at hc
          rcases List.mem_append.1 hc with hold | hnew
          · exact h.inside c hold
          · rw [List.mem_singleton.1 hnew]
            exact (commit_inside_iff h.settled hdue).2 (hok hdue)
      · refine ⟨?_, ?_⟩
        · change Settled (s.FUNCTION_SWEEP.handle s.SMU millis).1
          rw [handle_of_not_due hdue]
          exact h.settled
        · intro c hc
          simp only [SweepBounds.step, hdue] at hc
          exact h.inside c hc
  | handleButtonAction inputTag millis =>
      exact ⟨h.settled.handleButtonAction inputTag millis, h.inside⟩
  | open_ operationType millis => exact ⟨{ h.settled with }, h.inside⟩

theorem Inv.not_inside {s : State} (h : Inv s) {e : Event} (hok : ¬ Fits s e) :
    ¬ AllInside (SweepBounds.step s e) := by
  cases e with
  | handle millis =>
      obtain ⟨hdue, hfits⟩ := Classical.not_imp.1 hok
      intro hinside
      have hlast := hinside ⟨(s.FUNCTION_SWEEP.handle s.SMU millis).2.setValue_micro,
        s.FUNCTION_SWEEP.low, s.FUNCTION_SWEEP.high⟩ (by simp [SweepBounds.step, hdue])
      exact hfits ((commit_inside_iff h.settled hdue).1 hlast)
  | handleButtonAction inputTag millis => exact absurd trivial hok
  | open_ operationType millis => exact absurd trivial hok

/-! ## Sweeps that are left alone -/

/-- The button changes the step or the limits. -/
def Touches : Event → Prop
  | .handleButtonAction .SWEEP_BUTTON_STEP_INC _ => True
  | .handleButtonAction .SWEEP_BUTTON_STEP_DEC _ => True
  | .handleButtonAction .SWEEP_BUTTON_VOLT_INC _ => True
  | .handleButtonAction .SWEEP_BUTTON_VOLT_DEC _ => True
  | _ => False

/-- The settings at power-up, and a value on their grid. -/
structure Plain (c : FunctionSweepClass) : Prop where
  step : c.step = 100
  high : c.high = 1000
  low : c.low = -1000
  value : ∃ k : ℤ, c.currentSweepValue = 100 * k ∧ -10 ≤ k ∧ k ≤ 10

/-- On the way up there is room for a step below the high limit, on the way down above the low
one. -/
theorem Plain.stepFits {c : FunctionSweepClass} (h : Plain c)
    (hdir : c.currentSweepDir = 1 ∨ c.currentSweepDir = -1) : StepFits c := by
  obtain ⟨k, hvalue, hlow, hhigh⟩ := h.value
  have hlow' : (-10 : ℚ) ≤ k := by exact_mod_cast hlow
  have hhigh' : (k : ℚ) ≤ 10 := by exact_mod_cast hhigh
  unfold StepFits
  simp only [h.step, h.high, h.low, hvalue]
  split_ifs with hgoes
  · -- on the way up the value is not at the high limit
    have hbelow : k < 10 := by
      rcases hgoes with ⟨-, hlt⟩ | ⟨-, hle⟩
      · rw [hvalue, h.high] at hlt
        exact_mod_cast (by linarith : (k : ℚ) < 10)
      · rw [hvalue, h.low] at hle
        exact_mod_cast (by linarith : (k : ℚ) < 10)
    have hroom : (k : ℚ) ≤ 9 := by exact_mod_cast Int.le_sub_one_of_lt hbelow
    constructor <;> linarith
  · -- on the way down, or turning round at the top, it is not at the low limit
    have habove : -10 < k := by
      rcases hdir with hup | hdown
      · have hge : c.high ≤ c.currentSweepValue := by
          by_contra hlt
          exact hgoes (Or.inl ⟨hup, not_le.1 hlt⟩)
        rw [hvalue, h.high] at hge
        exact_mod_cast (by linarith : (-10 : ℚ) < k)
      · have hgt : c.low < c.currentSweepValue := by
          by_contra hle
          exact hgoes (Or.inr ⟨hdown, not_lt.1 hle⟩)
        rw [hvalue, h.low] at hgt
        exact_mod_cast (by linarith : (-10 : ℚ) < k)
    have hroom : (-9 : ℚ) ≤ k := by exact_mod_cast Int.add_one_le_of_lt habove
    constructor <;> linarith

theorem Plain.nextValue {c : FunctionSweepClass} (h : Plain c)
    (hdir : c.currentSweepDir = 1 ∨ c.currentSweepDir = -1) (millis : ℕ) :
    Plain (c.nextValue millis) := by
  have hfits := (stepFits_iff hdir millis).1 (h.stepFits hdir)
  obtain ⟨k, hvalue, -, -⟩ := h.value
  rw [nextValue_eq hdir] at hfits ⊢
  rw [h.low, h.high] at hfits
  refine { h with value := ?_ }
  -- one step of a hundred either way
  obtain ⟨k', hk'⟩ : ∃ k' : ℤ,
      (if GoesUp c then c.currentSweepValue + c.step else c.currentSweepValue - c.step) =
        100 * k' := by
    split_ifs
    · exact ⟨k + 1, by rw [hvalue, h.step]; push_cast; ring⟩
    · exact ⟨k - 1, by rw [hvalue, h.step]; push_cast; ring⟩
  simp only [hk'] at hfits ⊢
  refine ⟨k', rfl, ?_, ?_⟩
  · exact_mod_cast (by linarith : (-10 : ℚ) ≤ k')
  · exact_mod_cast (by linarith : (k' : ℚ) ≤ 10)

theorem Plain.handleButtonAction {c : FunctionSweepClass} (h : Plain c) (inputTag : Tag)
    (millis : ℕ) (htag : ¬ Touches (.handleButtonAction inputTag millis)) :
    Plain (c.handleButtonAction inputTag millis) := by
  have hadjust {d : FunctionSweepClass} (hd : Plain d) : Plain (d.adjust inputTag) := by
    cases inputTag with
    | SWEEP_BUTTON_STEP_INC => exact absurd trivial htag
    | SWEEP_BUTTON_STEP_DEC => exact absurd trivial htag
    | SWEEP_BUTTON_VOLT_INC => exact absurd trivial htag
    | SWEEP_BUTTON_VOLT_DEC => exact absurd trivial htag
    | SWEEP_BUTTON_CLEAR => exact { hd with value := ⟨0, by norm_num [FunctionSweepClass.adjust]⟩ }
    | _ => exact ⟨hd.step, hd.high, hd.low, hd.value⟩
  simp only [FunctionSweepClass.handleButtonAction]
  split_ifs
  all_goals
    first
    | exact h
    | exact ⟨h.step, h.high, h.low, h.value⟩
    | apply hadjust
      exact ⟨h.step, h.high, h.low, h.value⟩

/-- Without a change of the step or of the limits, a sweep stays between them. -/
theorem untouched_sweep_inside (SMU : ADCClass) (es : List Event) (hes : ∀ e ∈ es, ¬ Touches e) :
    Always step AllInside (start SMU) es := by
  have hguarded : Guarded step (fun _ e => ¬ Touches e) (start SMU) es := guarded_of_forall _ hes
  refine Always.mono (P := fun s => Inv s ∧ Plain s.FUNCTION_SWEEP) (fun s h => h.1.inside) ?_
  refine always_of_guarded ?_ ⟨start_inv SMU, ?_⟩ hguarded
  · rintro s e ⟨hinv, hplain⟩ he
    have hfits : Fits s e := by
      cases e with
      | handle millis => exact fun _ => hplain.stepFits hinv.settled.dir
      | _ => exact trivial
    refine ⟨hinv.step hfits, ?_⟩
    cases e with
    | handle millis =>
        change Plain (s.FUNCTION_SWEEP.handle s.SMU millis).1
        by_cases hdue : s.FUNCTION_SWEEP.due millis = true
        · rw [(handle_of_due hdue).1]
          exact hplain.nextValue hinv.settled.dir millis
        · rw [handle_of_not_due hdue]
          exact hplain
    | handleButtonAction inputTag millis => exact hplain.handleButtonAction inputTag millis he
    | open_ operationType millis =>
        exact ⟨hplain.step, hplain.high, hplain.low, hplain.value⟩
  · exact ⟨rfl, rfl, rfl, 0, by norm_num [start]⟩

/-- All values committed lie between their limits exactly as long as every step taken fits; and it
does in every run in which step and limits are left as they are. -/
theorem sweep_stays_inside (SMU : ADCClass) (es : List Event) :
    (Always step AllInside (start SMU) es ↔ Guarded step Fits (start SMU) es) ∧
      ((∀ e ∈ es, ¬ Touches e) → Always step AllInside (start SMU) es) := by
  have hexact : Always step AllInside (start SMU) es ↔ Guarded step Fits (start SMU) es :=
    always_iff_guarded (fun _ h => h.inside) (fun _ _ h hok => h.step hok)
      (fun _ _ h hok => h.not_inside hok) (start_inv SMU) es
  exact ⟨hexact, untouched_sweep_inside SMU es⟩

/-- A sweep that is left alone turns round at the high limit. -/
theorem sweep_stays_inside_plain :
    Always step AllInside (start (ADCClass.init DacComp.default DacComp.default fun _ => 0))
      ((List.range 25).map fun i => .handle (3000 * (i + 1))) :=
  (sweep_stays_inside _ _).2 (by simp [Touches])

/-- With the step one press up, the tenth value lies beyond the high limit. -/
theorem sweep_not_inside :
    ¬ ∀ (SMU : ADCClass) (es : List Event), Always step AllInside (start SMU) es := by
  intro h
  have hrun := h (ADCClass.init DacComp.default DacComp.default fun _ => 0)
    (.handleButtonAction .SWEEP_BUTTON_STEP_INC 1000 ::
      (List.range 10).map fun i => .handle (3000 * (i + 1)))
  revert hrun
  decide +kernel

end SweepBounds
end PoorMansSmu
