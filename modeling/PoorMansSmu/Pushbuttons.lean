import PoorMansSmu.FrontPanel
import PoorMansSmu.Lib.Episodes
import PoorMansSmu.Lib.Run

/-!
# Pushbuttons — what the push buttons report

Several buttons share one analog pin, each with a band of voltages of its own.  `handle` looks which
band the pin is in and calls back when a button has been held for a while and when it is released.
Whether a press was a long one is kept twice, in `keyHeldLong`, which is taken back when the pin
returns to rest, and in `color`, which follows the timer.

The callbacks of a press make up an episode.  They fall into episodes as long as a button that has
been reported as held is released before another one is pressed, and the timer does not wrap around
meanwhile (`callbacks_nested`); in the first weeks, only the former matters
(`callbacks_nested_uptime`).
-/

namespace PoorMansSmu
namespace Pushbuttons

open FrontPanel Episodes

/-- A call of `callbackFn`. -/
structure Callback where
  button : ℕ
  quickPress : Bool
  holdAfterLongPress : Bool
  releaseAfterLongPress : Bool
  deriving DecidableEq

structure PushbuttonsClass where
  keyHeldLong : Bool := false
  buttonDetectedTimer : ℤ
  buttonFunction : ℕ := 0
  prevButtonFunction : ℕ := 0
  color : ℕ := 0x0000ff
  keydownTimer : ℤ := 0
  analogPin : ℕ := 0
  holdPeriodms : ℤ := 1000

/-- What a call of `handle` reads: the pin, twice for the switch of the encoder, and the clock, at
the guard, when the guard is set again, when a button goes down and for the hold. -/
structure Input where
  analogRead : ℤ
  analogRead2 : ℤ
  millis : ℕ
  millisDetected : ℕ
  millisDown : ℕ
  millisHold : ℕ

namespace PushbuttonsClass

def init (p : PushbuttonsClass) (analogPin_ : ℕ) (holdPeriodms_ : ℤ) : PushbuttonsClass :=
  { p with analogPin := analogPin_, holdPeriodms := holdPeriodms_ }

/-- It is time to look at the pin again. -/
def due (p : PushbuttonsClass) (i : Input) : Bool := elapsedInt p.buttonDetectedTimer 50 i.millis

/-- The button in whose band the pin is, and the new value of `keyHeldLong`.  Between the bands the
button stays what it was. -/
def detect (p : PushbuttonsClass) (i : Input) : ℕ × Bool :=
  if p.analogPin = 16 then
    if i.analogRead2 < 3 then (1, p.keyHeldLong) else (0, false)
  else
    let buttonValue := i.analogRead.tdiv 10
    if buttonValue > 95 ∧ buttonValue < 105 then (0, false)
    else if buttonValue > 82 ∧ buttonValue < 94 then (1, p.keyHeldLong)
    else if buttonValue > 70 ∧ buttonValue < 81 then (2, p.keyHeldLong)
    else if buttonValue > 50 ∧ buttonValue < 70 then (3, p.keyHeldLong)
    else if buttonValue < 10 then (4, p.keyHeldLong)
    else (p.buttonFunction, p.keyHeldLong)

/-- The timer and the two fields that are set from the pin. -/
def readPin (p : PushbuttonsClass) (i : Input) : PushbuttonsClass :=
  { p with
    buttonDetectedTimer := wrap32 i.millisDetected
    buttonFunction := (p.detect i).1
    keyHeldLong := (p.detect i).2 }

/-- A button has gone down or up. -/
def change (p : PushbuttonsClass) (i : Input) : PushbuttonsClass × List Callback :=
  if p.buttonFunction ≠ p.prevButtonFunction then
    if p.buttonFunction ≠ 0 then
      ({ p with
          keydownTimer := wrap32 i.millisDown
          prevButtonFunction := p.buttonFunction }, [])
    else
      ({ p with keydownTimer := 0, prevButtonFunction := p.buttonFunction },
        if p.color = 0xff0000 then [⟨p.prevButtonFunction, false, false, true⟩]
        else [⟨p.prevButtonFunction, true, false, false⟩])
  else (p, [])

/-- The hold period is over. -/
def longPressed (p : PushbuttonsClass) (i : Input) : Bool :=
  elapsedInt p.keydownTimer p.holdPeriodms i.millisHold

/-- A button that is down may have been held for long enough. -/
def hold (p : PushbuttonsClass) (i : Input) : PushbuttonsClass × List Callback :=
  if p.longPressed i = true ∧ p.buttonFunction ≠ 0 then
    if p.keyHeldLong = false then
      ({ p with color := 0xff0000, keyHeldLong := true },
        [⟨p.buttonFunction, false, true, false⟩])
    else ({ p with color := 0xff0000 }, [])
  else ({ p with color := 0x00ff00 }, [])

def handle (p : PushbuttonsClass) (i : Input) : PushbuttonsClass × List Callback :=
  if p.due i then
    let changed := (p.readPin i).change i
    let held := changed.1.hold i
    (held.1, changed.2 ++ held.2)
  else (p, [])

end PushbuttonsClass

/-! ## Episodes of a press -/

namespace Callback

def quick (button : ℕ) : Callback := ⟨button, true, false, false⟩

def hold (button : ℕ) : Callback := ⟨button, false, true, false⟩

def release (button : ℕ) : Callback := ⟨button, false, false, true⟩

end Callback

/-- What is reported of one press: a quick press, or a hold and the release after it. -/
def pressEpisodes : Language Callback :=
  {w | ∃ button, w = [.quick button] ∨ w = [.hold button, .release button]}

theorem quick_mem (button : ℕ) : [Callback.quick button] ∈ pressEpisodes := ⟨button, Or.inl rfl⟩

theorem hold_mem (button : ℕ) : [Callback.hold button] ++ [Callback.release button] ∈ pressEpisodes :=
  ⟨button, Or.inr rfl⟩

/-- After `init`; the guard was set at some time before. -/
def start (analogPin : ℕ) (holdPeriodms : ℤ) (millis : ℕ) : PushbuttonsClass :=
  PushbuttonsClass.init { buttonDetectedTimer := wrap32 millis } analogPin holdPeriodms

/-- The buttons together with their callbacks. -/
def step : PushbuttonsClass × List Callback → Input → PushbuttonsClass × List Callback :=
  Run.reported PushbuttonsClass.handle

/-- Once it is reported as held, a button is released or stays held: the pin does not go to the band
of another button, and the hold period does not begin again with the wrap of the timer. -/
def StaysHeld (p : PushbuttonsClass) (i : Input) : Prop :=
  p.due i = true → p.keyHeldLong = true →
    (p.detect i).1 = 0 ∨ (p.detect i).1 = p.buttonFunction ∧ p.longPressed i = true

instance (p : PushbuttonsClass) (i : Input) : Decidable (StaysHeld p i) :=
  inferInstanceAs (Decidable (_ → _ → _ ∨ _ ∧ _))

/-- What has been reported of the press that is under way. -/
def begun (p : PushbuttonsClass) : List Callback :=
  if p.keyHeldLong then [.hold p.buttonFunction] else []

/-- The fields that tell a press, and the callbacks. -/
structure Tracked (p : PushbuttonsClass) (callbacks : List Callback) : Prop where
  prev : p.prevButtonFunction = p.buttonFunction
  color : p.color = 0xff0000 ↔ p.keyHeldLong = true
  down : p.keyHeldLong = true → p.buttonFunction ≠ 0
  episodes : EndsIn pressEpisodes (begun p) callbacks

theorem tracked_start (analogPin : ℕ) (holdPeriodms : ℤ) (millis : ℕ) :
    Tracked (start analogPin holdPeriodms millis) [] where
  prev := rfl
  color := by simp [start, PushbuttonsClass.init]
  down := fun h => absurd h Bool.false_ne_true
  episodes := endsIn_nil

theorem Tracked.nested {p : PushbuttonsClass} {callbacks : List Callback}
    (h : Tracked p callbacks) : Nested pressEpisodes callbacks := by
  have hepisodes := h.episodes
  unfold begun at hepisodes
  split_ifs at hepisodes
  · exact hepisodes.nested (hold_mem p.buttonFunction)
  · exact hepisodes.nested_nil

/-! ## One call of `handle` -/

section Hold

variable {q : PushbuttonsClass} {callbacks : List Callback}

/-- At rest nothing is held. -/
theorem tracked_rest (hprev : q.prevButtonFunction = q.buttonFunction) (hrest : q.buttonFunction = 0)
    (hfresh : q.keyHeldLong = false) (hepisodes : EndsIn pressEpisodes [] callbacks) (i : Input) :
    Tracked (q.hold i).1 (callbacks ++ (q.hold i).2) := by
  unfold PushbuttonsClass.hold
  rw [if_neg (fun h => h.2 hrest), List.append_nil]
  constructor
  · exact hprev
  · simp [hfresh]
  · exact fun h => absurd (hfresh.symm.trans h) Bool.false_ne_true
  · simp only [begun, hfresh, Bool.false_eq_true, if_false]
    exact hepisodes

/-- A button that is down may be reported as held. -/
theorem tracked_hold_fresh (hprev : q.prevButtonFunction = q.buttonFunction)
    (hdown : q.buttonFunction ≠ 0) (hfresh : q.keyHeldLong = false)
    (hepisodes : EndsIn pressEpisodes [] callbacks) (i : Input) :
    Tracked (q.hold i).1 (callbacks ++ (q.hold i).2) := by
  unfold PushbuttonsClass.hold
  by_cases hlong : q.longPressed i = true ∧ q.buttonFunction ≠ 0
  · rw [if_pos hlong, if_pos hfresh]
    constructor
    · exact hprev
    · simp
    · exact fun _ => hdown
    · simp only [begun, if_true]
      exact hepisodes.append [.hold q.buttonFunction]
  · rw [if_neg hlong, List.append_nil]
    constructor
    · exact hprev
    · simp [hfresh]
    · exact fun _ => hdown
    · simp only [begun, hfresh, Bool.false_eq_true, if_false]
      exact hepisodes

/-- A button that has been reported stays held. -/
theorem tracked_hold_again (hprev : q.prevButtonFunction = q.buttonFunction)
    (hdown : q.buttonFunction ≠ 0) (hheld : q.keyHeldLong = true) {i : Input}
    (hlong : q.longPressed i = true)
    (hepisodes : EndsIn pressEpisodes [.hold q.buttonFunction] callbacks) :
    Tracked (q.hold i).1 (callbacks ++ (q.hold i).2) := by
  unfold PushbuttonsClass.hold
  rw [if_pos ⟨hlong, hdown⟩, if_neg (by simp [hheld]), List.append_nil]
  constructor
  · exact hprev
  · simp [hheld]
  · exact fun _ => hdown
  · simp only [begun, hheld, if_true]
    exact hepisodes

end Hold

section Handle

variable {p : PushbuttonsClass} {callbacks : List Callback}

/-- `keyHeldLong` is taken back by a pin at rest only. -/
theorem detect_cases (p : PushbuttonsClass) (i : Input) :
    (p.detect i).1 = 0 ∧ (p.detect i).2 = false ∨
      (p.detect i).2 = p.keyHeldLong ∧ ((p.detect i).1 = 0 → p.buttonFunction = 0) := by
  unfold PushbuttonsClass.detect
  dsimp only
  split_ifs <;> simp

/-- With the pin at rest nothing is held any more. -/
theorem Tracked.detect_rest (h : Tracked p callbacks) {i : Input} (hrest : (p.detect i).1 = 0) :
    (p.detect i).2 = false := by
  rcases detect_cases p i with ⟨-, hfresh⟩ | ⟨hkeep, hwas⟩
  · exact hfresh
  · rw [hkeep, Bool.eq_false_iff]
    exact fun hheld => h.down hheld (hwas hrest)

theorem detect_down {i : Input} (hdown : (p.detect i).1 ≠ 0) :
    (p.detect i).2 = p.keyHeldLong := by
  rcases detect_cases p i with ⟨hrest, -⟩ | ⟨hkeep, -⟩
  · exact absurd hrest hdown
  · exact hkeep

/-- A button is released: the episode of its press is complete. -/
theorem Tracked.released (h : Tracked p callbacks) :
    EndsIn pressEpisodes [] (callbacks ++
      if p.color = 0xff0000 then [⟨p.prevButtonFunction, false, false, true⟩]
      else [⟨p.prevButtonFunction, true, false, false⟩]) := by
  have hepisodes := h.episodes
  rw [h.prev]
  unfold begun at hepisodes
  cases hheld : p.keyHeldLong with
  | true =>
      rw [if_pos (h.color.2 hheld)]
      rw [hheld, if_pos rfl] at hepisodes
      exact (hepisodes.append _).complete (hold_mem p.buttonFunction)
  | false =>
      have hcolor : p.color ≠ 0xff0000 := by
        intro hred
        exact absurd (hheld.symm.trans (h.color.1 hred)) Bool.false_ne_true
      rw [if_neg hcolor]
      rw [hheld, if_neg Bool.false_ne_true] at hepisodes
      exact (hepisodes.append _).complete (quick_mem p.buttonFunction)

/-- With nothing held, the callbacks are complete episodes. -/
theorem Tracked.fresh (h : Tracked p callbacks) (hfresh : p.keyHeldLong = false) :
    EndsIn pressEpisodes [] callbacks := by
  have hepisodes := h.episodes
  rwa [begun, hfresh, if_neg Bool.false_ne_true] at hepisodes

/-- The pin is at rest: what was down is released. -/
theorem Tracked.handle_rest (h : Tracked p callbacks) {i : Input} (hrest : (p.detect i).1 = 0) :
    Tracked (((p.readPin i).change i).1.hold i).1
      (callbacks ++ ((p.readPin i).change i).2 ++ (((p.readPin i).change i).1.hold i).2) := by
  have hfresh := h.detect_rest hrest
  unfold PushbuttonsClass.change
  by_cases hchange : (p.readPin i).buttonFunction ≠ (p.readPin i).prevButtonFunction
  · have hrest' : ¬ (p.readPin i).buttonFunction ≠ 0 := not_not.2 hrest
    rw [if_pos hchange, if_neg hrest']
    exact tracked_rest rfl hrest hfresh h.released i
  · -- it was at rest before
    have hsame := (not_not.1 hchange).symm
    have hwas : p.buttonFunction = 0 := by
      rw [← h.prev]
      exact hsame.trans hrest
    have hnone : p.keyHeldLong = false := by
      rw [Bool.eq_false_iff]
      exact fun hheld => h.down hheld hwas
    rw [if_neg hchange, List.append_nil]
    exact tracked_rest hsame hrest hfresh (h.fresh hnone) i

/-- The pin is in the band of a button; one that has been reported as held is still down. -/
theorem Tracked.handle_down (h : Tracked p callbacks) {i : Input} (hdown : (p.detect i).1 ≠ 0)
    (hstays : p.keyHeldLong = true →
      (p.detect i).1 = p.buttonFunction ∧ p.longPressed i = true) :
    Tracked (((p.readPin i).change i).1.hold i).1
      (callbacks ++ ((p.readPin i).change i).2 ++ (((p.readPin i).change i).1.hold i).2) := by
  have hkeep := detect_down hdown
  unfold PushbuttonsClass.change
  by_cases hchange : (p.readPin i).buttonFunction ≠ (p.readPin i).prevButtonFunction
  · -- another button: nothing was held
    have hnone : p.keyHeldLong = false := by
      rw [Bool.eq_false_iff]
      exact fun hheld => hchange ((hstays hheld).1.trans h.prev.symm)
    have hdown' : (p.readPin i).buttonFunction ≠ 0 := hdown
    rw [if_pos hchange, if_pos hdown', List.append_nil]
    exact tracked_hold_fresh rfl hdown (hkeep.trans hnone) (h.fresh hnone) i
  · have hsame := (not_not.1 hchange).symm
    rw [if_neg hchange, List.append_nil]
    cases hheld : p.keyHeldLong with
    | false => exact tracked_hold_fresh hsame hdown (hkeep.trans hheld) (h.fresh hheld) i
    | true =>
        rcases hstays hheld with ⟨hbutton, hlong⟩
        have hepisodes := h.episodes
        rw [begun, hheld, if_pos rfl, ← hbutton] at hepisodes
        exact tracked_hold_again hsame hdown (hkeep.trans hheld) hlong hepisodes

/-- A call that comes too soon does nothing. -/
theorem handle_skip {i : Input} (h : ¬ p.due i = true) : p.handle i = (p, []) := by
  unfold PushbuttonsClass.handle
  rw [if_neg h]

theorem handle_due {i : Input} (h : p.due i = true) :
    p.handle i = ((((p.readPin i).change i).1.hold i).1,
      ((p.readPin i).change i).2 ++ (((p.readPin i).change i).1.hold i).2) := by
  unfold PushbuttonsClass.handle
  rw [if_pos h]

/-- The callbacks of both parts of the call, one after the other. -/
theorem tracked_of_parts {i : Input} {changed held : PushbuttonsClass × List Callback}
    (hhandle : p.handle i = (held.1, changed.2 ++ held.2))
    (hheld : Tracked held.1 (callbacks ++ changed.2 ++ held.2)) :
    Tracked (p.handle i).1 (callbacks ++ (p.handle i).2) := by
  rw [hhandle]
  rwa [List.append_assoc] at hheld

theorem Tracked.handle (h : Tracked p callbacks) {i : Input}
    (hstays : p.due i = true → p.keyHeldLong = true →
      (p.detect i).1 = 0 ∨ (p.detect i).1 = p.buttonFunction ∧ p.longPressed i = true) :
    Tracked (p.handle i).1 (callbacks ++ (p.handle i).2) := by
  by_cases hdue : p.due i = true
  · apply tracked_of_parts (handle_due hdue)
    by_cases hrest : (p.detect i).1 = 0
    · exact h.handle_rest hrest
    · exact h.handle_down hrest fun hheld => (hstays hdue hheld).resolve_left hrest
  · rw [handle_skip hdue, List.append_nil]
    exact h

end Handle

/-! ## Runs -/

theorem nested_of_staysHeld {p : PushbuttonsClass} {callbacks : List Callback}
    {inputs : List Input} (hp : Tracked p callbacks)
    (h : Run.Guarded step (fun s i => StaysHeld s.1 i) (p, callbacks) inputs) :
    Run.Always step (fun s => Nested pressEpisodes s.2) (p, callbacks) inputs := by
  have hcall : ∀ p callbacks i, Tracked p callbacks → StaysHeld p i →
      Tracked (p.handle i).1 (callbacks ++ (p.handle i).2) :=
    fun _ _ _ hp hstays => hp.handle hstays
  have htracked := Run.always_reported hcall (s := (p, callbacks)) hp h
  exact htracked.mono fun _ hp => hp.nested

/-- In every run in which a button that is reported as held stays so until it is released, what has
been reported up to any moment are episodes, the last of them perhaps not complete. -/
theorem callbacks_nested (analogPin : ℕ) (holdPeriodms : ℤ) (millis : ℕ) {inputs : List Input}
    (h : Run.Guarded step (fun s i => StaysHeld s.1 i) (start analogPin holdPeriodms millis, [])
      inputs) :
    Run.Always step (fun s => Nested pressEpisodes s.2) (start analogPin holdPeriodms millis, [])
      inputs :=
  nested_of_staysHeld (tracked_start analogPin holdPeriodms millis) h

/-- The pin at `value`, and the clock at `millis`. -/
def reading (value : ℤ) (millis : ℕ) : Input :=
  { analogRead := value
    analogRead2 := value
    millis := millis
    millisDetected := millis
    millisDown := millis
    millisHold := millis }

/-- Button 1 is held and released. -/
theorem callbacks_nested_long :
    Run.Always step (fun s => Nested pressEpisodes s.2) (start 3 1000 0, [])
      [reading 880 100, reading 880 1200, reading 1000 1300] :=
  callbacks_nested 3 1000 0 (by decide +kernel)

/-- Button 1 is held, and the pin goes from its band to the one of button 2 before it goes to rest:
the press of button 1 never ends. -/
def overlapping : List Input :=
  [reading 880 100, reading 880 1200, reading 750 1300, reading 1000 1400]

theorem overlapping_callbacks :
    (Run.exec step (start 3 1000 0, []) overlapping).2 = [.hold 1, .quick 2] := by
  decide +kernel

theorem not_always_nested :
    ¬ Run.Always step (fun s => Nested pressEpisodes s.2) (start 3 1000 0, []) overlapping := by
  intro h
  have hnested := h.exec
  rw [overlapping_callbacks] at hnested
  rcases hnested.exists_episode with ⟨episode, ⟨button, hepisode⟩, u, hprefix, -⟩
  rcases hepisode with rfl | rfl
  · simp [Callback.quick, Callback.hold] at hprefix
  · simp [Callback.quick, Callback.hold, Callback.release] at hprefix

/-! ## Before the clock wraps around -/

/-- The pin does not go from the band of a button that is reported as held to that of another. -/
def KeepsButton (p : PushbuttonsClass) (i : Input) : Prop :=
  p.due i = true → p.keyHeldLong = true → (p.detect i).1 = 0 ∨ (p.detect i).1 = p.buttonFunction

instance (p : PushbuttonsClass) (i : Input) : Decidable (KeepsButton p i) :=
  inferInstanceAs (Decidable (_ → _ → _ ∨ _))

/-- The hold period of the button that is reported as held was over at the time `now`. -/
def HeldBefore (p : PushbuttonsClass) (now : ℕ) : Prop :=
  p.keyHeldLong = true → wrap32 (p.keydownTimer + p.holdPeriodms) < now

section Uptime

variable {p : PushbuttonsClass} {callbacks : List Callback} {now : ℕ} {i : Input}

theorem HeldBefore.later (h : HeldBefore p now) (hnow : now ≤ i.millisHold) :
    HeldBefore p i.millisHold := by
  intro hheld
  have hbefore := h hheld
  omega

theorem longPressed_iff (p : PushbuttonsClass) (hclock : i.millisHold < 2147483648) :
    p.longPressed i = true ↔ wrap32 (p.keydownTimer + p.holdPeriodms) < i.millisHold := by
  unfold PushbuttonsClass.longPressed elapsedInt
  rw [decide_eq_true_iff, wrap32_of_fits (n := i.millisHold) (by omega) (by omega)]

/-- The hold period that was over stays over. -/
theorem HeldBefore.staysHeld (h : HeldBefore p i.millisHold) (hclock : i.millisHold < 2147483648)
    (hkeeps : KeepsButton p i) : StaysHeld p i := by
  intro hdue hheld
  rcases hkeeps hdue hheld with hrest | hsame
  · exact Or.inl hrest
  · exact Or.inr ⟨hsame, (longPressed_iff p hclock).2 (h hheld)⟩

/-- A button is reported as held when its hold period is over. -/
theorem HeldBefore.hold (h : HeldBefore p i.millisHold) (hclock : i.millisHold < 2147483648) :
    HeldBefore (p.hold i).1 i.millisHold := by
  unfold PushbuttonsClass.hold
  by_cases hlong : p.longPressed i = true ∧ p.buttonFunction ≠ 0
  · rw [if_pos hlong]
    have hover := (longPressed_iff p hclock).1 hlong.1
    split_ifs
    · exact fun _ => hover
    · exact fun _ => hover
  · rw [if_neg hlong]
    exact h

/-- The timer is set anew only when nothing is held. -/
theorem Tracked.heldBefore_change (h : Tracked p callbacks) (hbefore : HeldBefore p i.millisHold)
    (hdue : p.due i = true) (hkeeps : KeepsButton p i) :
    HeldBefore ((p.readPin i).change i).1 i.millisHold := by
  have hflag : ((p.readPin i).change i).1.keyHeldLong = (p.detect i).2 := by
    unfold PushbuttonsClass.change
    split_ifs <;> rfl
  intro hheld
  rw [hflag] at hheld
  by_cases hrest : (p.detect i).1 = 0
  · rw [h.detect_rest hrest] at hheld
    exact absurd hheld Bool.false_ne_true
  · rw [detect_down hrest] at hheld
    have hsame := (hkeeps hdue hheld).resolve_left hrest
    have hnot : ¬ (p.readPin i).buttonFunction ≠ (p.readPin i).prevButtonFunction :=
      not_not.2 (hsame.trans h.prev.symm)
    unfold PushbuttonsClass.change
    rw [if_neg hnot]
    exact hbefore hheld

theorem heldBefore_of_parts {held : PushbuttonsClass × List Callback} {ws : List Callback}
    (hhandle : p.handle i = (held.1, ws)) (hheld : HeldBefore held.1 now) :
    HeldBefore (p.handle i).1 now := by
  rw [hhandle]
  exact hheld

theorem Tracked.heldBefore_handle (h : Tracked p callbacks) (hbefore : HeldBefore p i.millisHold)
    (hclock : i.millisHold < 2147483648) (hkeeps : KeepsButton p i) :
    HeldBefore (p.handle i).1 i.millisHold := by
  by_cases hdue : p.due i = true
  · apply heldBefore_of_parts (handle_due hdue)
    exact (h.heldBefore_change hbefore hdue hkeeps).hold hclock
  · rw [handle_skip hdue]
    exact hbefore

end Uptime

/-- With a clock that goes on, what is held stays held unless the pin goes to another button. -/
theorem staysHeld_of_keepsButton {inputs : List Input} {p : PushbuttonsClass}
    {callbacks : List Callback} {now : ℕ} (h : Tracked p callbacks) (hbefore : HeldBefore p now)
    (hsorted : inputs.Pairwise fun i j => i.millisHold ≤ j.millisHold)
    (hclock : ∀ i ∈ inputs, now ≤ i.millisHold ∧ i.millisHold < 2147483648)
    (hkeeps : Run.Guarded step (fun s i => KeepsButton s.1 i) (p, callbacks) inputs) :
    Run.Guarded step (fun s i => StaysHeld s.1 i) (p, callbacks) inputs := by
  induction inputs generalizing p callbacks now with
  | nil => exact trivial
  | cons i inputs ih =>
      rcases hkeeps with ⟨hkeep, hkeeps⟩
      rcases List.pairwise_cons.1 hsorted with ⟨hfirst, hsorted⟩
      rcases hclock i (List.mem_cons_self ..) with ⟨hnow, hearly⟩
      have hlater := hbefore.later hnow
      have hstays := hlater.staysHeld hearly hkeep
      have hrest : ∀ j ∈ inputs, i.millisHold ≤ j.millisHold ∧ j.millisHold < 2147483648 :=
        fun j hj => ⟨hfirst j hj, (hclock j (List.mem_cons_of_mem i hj)).2⟩
      exact ⟨hstays, ih (h.handle hstays) (h.heldBefore_handle hlater hearly hkeep) hsorted hrest
        hkeeps⟩

/-- As long as the clock has not wrapped around, the callbacks fall into episodes unless the pin goes
from the band of a button that is held to that of another one. -/
theorem callbacks_nested_uptime (analogPin : ℕ) (holdPeriodms : ℤ) (millis : ℕ)
    {inputs : List Input} (hsorted : inputs.Pairwise fun i j => i.millisHold ≤ j.millisHold)
    (hclock : ∀ i ∈ inputs, i.millisHold < 2147483648)
    (hkeeps : Run.Guarded step (fun s i => KeepsButton s.1 i)
      (start analogPin holdPeriodms millis, []) inputs) :
    Run.Always step (fun s => Nested pressEpisodes s.2) (start analogPin holdPeriodms millis, [])
      inputs := by
  have htracked := tracked_start analogPin holdPeriodms millis
  have hnone : HeldBefore (start analogPin holdPeriodms millis) 0 :=
    fun h => absurd h Bool.false_ne_true
  have hstays := staysHeld_of_keepsButton htracked hnone hsorted
    (fun i hi => ⟨Nat.zero_le _, hclock i hi⟩) hkeeps
  exact nested_of_staysHeld htracked hstays

/-- Button 1 is held and released, and button 2 is pressed after that. -/
theorem callbacks_nested_uptime_two :
    Run.Always step (fun s => Nested pressEpisodes s.2) (start 3 1000 0, [])
      [reading 880 100, reading 880 1200, reading 1000 1300, reading 750 1400, reading 1000 1500] :=
  callbacks_nested_uptime 3 1000 0 (by decide) (by decide) (by decide +kernel)

end Pushbuttons
end PoorMansSmu
