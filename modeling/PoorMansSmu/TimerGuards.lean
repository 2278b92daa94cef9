import PoorMansSmu.AutoCal
import PoorMansSmu.Lib.WrapClock
import PoorMansSmu.Pushbuttons
import PoorMansSmu.RotaryEncoder

/-!
# TimerGuards — whether enough time has passed

Timers are kept as `int`, and a guard compares the sum of a timer and a period with the clock.  The
clock wraps around after 2^31 milliseconds, and again after 2^32.  When it does so between the end of
the period and the present, the guard is the wrong way round: with the wrap ahead of the end of the
period it fires at once, and with the wrap behind it does not fire before the clock has gone round
(`guard_right_iff`).  The knob takes the difference of two times, which is not affected
(`msSinceLast_right`).
-/

namespace PoorMansSmu
namespace TimerGuards

open FrontPanel Pushbuttons RotaryEncoder WrapClock

/-! ## The guards -/

/-- The log that `handleSampling` keeps of the mean: its timer, and the values it passed on. -/
structure ValueLog where
  logTimer : ℤ
  logged : List ℚ := []

namespace ValueLog

def due (l : ValueLog) (millis : ℕ) : Bool := elapsedInt l.logTimer 1000 millis

/-- Store now and then. -/
def register (l : ValueLog) (mean : ℚ) (millis : ℕ) : ValueLog :=
  if l.due millis then { logTimer := wrap32 millis, logged := mean :: l.logged } else l

end ValueLog

/-- The guards, each with the state that it is evaluated in.  Both directions of the sweep and both
kinds of samples have the same. -/
inductive Guard
  | buttonPoll (p : PushbuttonsClass) (i : Input)
  | buttonHold (p : PushbuttonsClass) (i : Input)
  | sweepStep (c : FunctionSweepClass) (millis : ℕ)
  | autoCalCommit (s : AutoCal.State) (notDone : s.autoCalDone1 = false) (millis : ℕ)
  | autoCalRecord (s : AutoCal.State) (millis : ℕ)
  | log (l : ValueLog) (millis : ℕ)

namespace Guard

def timer : Guard → ℤ
  | buttonPoll p _ => p.buttonDetectedTimer
  | buttonHold p _ => p.keydownTimer
  | sweepStep c _ => c.pulseTimer
  | autoCalCommit s _ _ => s.autoCalDacTimer
  | autoCalRecord s _ => s.autoCalDacTimer
  | log l _ => l.logTimer

def period : Guard → ℤ
  | buttonPoll _ _ => 50
  | buttonHold p _ => p.holdPeriodms
  | sweepStep c _ => (truncate c.duration).tdiv 2
  | autoCalCommit _ _ _ => 500
  | autoCalRecord _ _ => 5000
  | log _ _ => 1000

def millis : Guard → ℕ
  | buttonPoll _ i => i.millis
  | buttonHold _ i => i.millisHold
  | sweepStep _ millis => millis
  | autoCalCommit _ _ millis => millis
  | autoCalRecord _ millis => millis
  | log _ millis => millis

/-- The condition that the program tests. -/
def Fires : Guard → Prop
  | buttonPoll p i => p.due i = true
  | buttonHold p i => p.longPressed i = true
  | sweepStep c millis => c.due millis = true
  | autoCalCommit s _ millis => AutoCal.CommitDue s millis
  | autoCalRecord s millis => AutoCal.RecordDue s millis
  | log l millis => l.due millis = true

/-- All guards compare in the same way. -/
theorem fires_iff (g : Guard) : g.Fires ↔ wrap32 (g.timer + g.period) < wrap32 g.millis := by
  cases g with
  | buttonPoll p i => exact decide_eq_true_iff
  | buttonHold p i => exact decide_eq_true_iff
  | sweepStep c millis => exact decide_eq_true_iff
  | autoCalCommit s notDone millis => exact and_iff_right notDone
  | autoCalRecord s millis => exact Iff.rfl
  | log l millis => exact decide_eq_true_iff

end Guard

/-! ## 32 bits -/

/-- Half of the numbers of 32 bits. -/
def half : ℤ := 2147483648

theorem wrap32_eq_keep (n : ℤ) : wrap32 n = keep half n := by
  unfold wrap32 keep half
  rfl

/-- A number that an `int` can hold. -/
def IsInt (n : ℤ) : Prop := -half ≤ n ∧ n < half

instance (n : ℤ) : Decidable (IsInt n) := inferInstanceAs (Decidable (_ ∧ _))

/-- The clock reads the time modulo 2^32. -/
theorem wrap32_clock (n : ℕ) : wrap32 ((n % 4294967296 : ℕ) : ℤ) = wrap32 n := by
  unfold wrap32
  omega

/-- No end of a turn of the clock, as an `int`, comes between the end of the period and the
present. -/
def SameTurn (t : ℕ) (period : ℤ) (e : ℕ) : Prop := turn half (t + period) = turn half (t + e)

instance (t : ℕ) (period : ℤ) (e : ℕ) : Decidable (SameTurn t period e) :=
  inferInstanceAs (Decidable (_ = _))

section Guards

variable {g : Guard} {t e : ℕ}

/-- A guard compares what is kept of the end of the period with what is kept of the present. -/
theorem fires_iff_keep (htimer : g.timer = wrap32 t) (hmillis : g.millis = (t + e) % 4294967296) :
    g.Fires ↔ keep half (t + g.period) < keep half (t + e) := by
  rw [g.fires_iff, htimer, hmillis, wrap32_clock, wrap32_eq_keep, wrap32_eq_keep, wrap32_eq_keep,
    keep_keep_add, Nat.cast_add]

/-- Half a turn of the clock is more than any period and any time that passes. -/
theorem near (hperiod : IsInt g.period) (he : e < 2147483648) :
    (t + e : ℤ) - (t + g.period) < 2 * half ∧ (t + g.period : ℤ) - (t + e) < 2 * half := by
  rcases hperiod with ⟨hlow, hhigh⟩
  unfold half at *
  omega

/-- A timer was set at `t`, and the guard is evaluated `e` milliseconds later.  It fires exactly when
more than the period has passed, unless a turn of the clock ended between the end of the period and
the present. -/
theorem guard_right_iff (htimer : g.timer = wrap32 t)
    (hmillis : g.millis = (t + e) % 4294967296) (hperiod : IsInt g.period)
    (he : e < 2147483648) : (g.Fires ↔ g.period < e) ↔ SameTurn t g.period e := by
  have hhalf : (0 : ℤ) < half := by decide
  rcases near (t := t) hperiod he with ⟨hafter, hbefore⟩
  have hcompare := keep_lt_iff_iff hhalf hafter hbefore
  rw [add_lt_add_iff_left] at hcompare
  rw [fires_iff_keep htimer hmillis]
  exact hcompare

/-- A guard of the log, a second after the clock has read 2^31 - 1. -/
theorem guard_right_log :
    (Guard.log { logTimer := wrap32 2147483647 } 2147484648).Fires ↔ (1000 : ℤ) < (1001 : ℕ) :=
  (guard_right_iff (g := .log { logTimer := wrap32 2147483647 } 2147484648) (t := 2147483647)
    (e := 1001) rfl (by decide) (by decide) (by decide)).2 (by decide)

/-- A guard fires too soon when the turn ends before the period does. -/
theorem fires_early_iff (htimer : g.timer = wrap32 t)
    (hmillis : g.millis = (t + e) % 4294967296) (hperiod : IsInt g.period)
    (he : e < 2147483648) :
    g.Fires ∧ (e : ℤ) ≤ g.period ↔ turn half (t + e) < turn half (t + g.period) := by
  rcases near (t := t) hperiod he with ⟨-, hbefore⟩
  rw [fires_iff_keep htimer hmillis]
  constructor
  · rintro ⟨hfires, hle⟩
    have hearly : (t + e : ℤ) ≤ t + g.period := add_le_add_right hle t
    rcases (turn_mono (H := half) (by decide) hearly).lt_or_eq with hlt | heq
    · exact hlt
    · -- within one turn the guard is right
      have hlate := (keep_lt_iff_of_turn_eq heq.symm).1 hfires
      omega
  · intro hlt
    rcases keep_lt_of_turn_lt (by decide) hbefore hlt with ⟨hlate, hkeep⟩
    exact ⟨hkeep, by omega⟩

/-- A guard that should fire does not when the turn has ended since the period did. -/
theorem stops_iff (htimer : g.timer = wrap32 t) (hmillis : g.millis = (t + e) % 4294967296)
    (hperiod : IsInt g.period) (he : e < 2147483648) :
    ¬ g.Fires ∧ g.period < e ↔ turn half (t + g.period) < turn half (t + e) := by
  rcases near (t := t) hperiod he with ⟨hafter, -⟩
  rw [fires_iff_keep htimer hmillis]
  constructor
  · rintro ⟨hfires, hlt⟩
    have hlate : (t + g.period : ℤ) < t + e := add_lt_add_right hlt t
    rcases (turn_mono (H := half) (by decide) hlate.le).lt_or_eq with hless | heq
    · exact hless
    · exact absurd ((keep_lt_iff_of_turn_eq heq).2 hlate) hfires
  · intro hlt
    rcases keep_lt_of_turn_lt (by decide) hafter hlt with ⟨hlate, hkeep⟩
    exact ⟨not_lt.2 hkeep.le, by omega⟩

end Guards

/-- The buttons are polled 60 ms before the clock reads 2^31, and are not polled 100 ms later. -/
theorem not_guard_right :
    let g := Guard.buttonPoll { buttonDetectedTimer := wrap32 2147483588 } (reading 1000 2147483688)
    g.timer = wrap32 (2147483588 : ℕ) ∧ g.millis = (2147483588 + 100) % 4294967296 ∧
      IsInt g.period ∧ ¬ (g.Fires ↔ g.period < (100 : ℕ)) := by
  intro g
  refine ⟨rfl, rfl, by decide, ?_⟩
  rw [fires_iff_keep (t := 2147483588) (e := 100) rfl rfl]
  decide

/-- The difference of two times is right at any uptime. -/
theorem msSinceLast_right {r : RotaryEncoderClass} {t e : ℕ}
    (htimer : r.millisAtLastStep = wrap32 t) (he : e < 2147483648) :
    r.msSinceLast ((t + e) % 4294967296) = e := by
  have hdifference : ((t + e : ℕ) : ℤ) - t = e := by omega
  have hfits : -half ≤ (e : ℤ) ∧ (e : ℤ) < half := by
    unfold half
    omega
  -- the clock and the time since power-up differ by whole turns
  have hclock : wrap32 (((t + e) % 4294967296 : ℕ) - wrap32 t) =
      keep half (keep half (t + e : ℕ) - keep half t) := by
    unfold wrap32 keep half
    omega
  have hkeep := keep_sub_keep (H := half) (a := t) (b := (t + e : ℕ))
  rw [hdifference] at hkeep
  rw [RotaryEncoderClass.msSinceLast, htimer, hclock]
  exact hkeep hfits.1 hfits.2

end TimerGuards
end PoorMansSmu
