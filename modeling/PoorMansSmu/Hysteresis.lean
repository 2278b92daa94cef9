import PoorMansSmu.CaptureLog
import PoorMansSmu.Lib.Marks

/-!
# Hysteresis — when the level trigger comes again

After a trigger the four last voltages must be below the level, by more than `delta`, before four
voltages above it count again.  At the end of a capture the four are set to zero.  With a level
above `delta` these zeros are below it, and stand in for voltages that nobody measured.

- `hysteresis`            : what holds as long as no such zero is taken for a voltage;
- `genuine_of_low`        : it never is with a level up to `delta`;
- `not_always_hysteresis` : two triggers without any voltage below.
-/

namespace PoorMansSmu
namespace Hysteresis

open Capture CaptureLog Marks

/-! ## The level trigger -/

/-- The last voltages, the very last one first. -/
def history (s : Sampler) : ℕ → ℚ
  | 0 => s.lastVoltage
  | 1 => s.lastVoltageOld
  | 2 => s.lastVoltageOld2
  | _ => s.lastVoltageOld3

def delta (digitizeVoltage : Bool) : ℚ := if digitizeVoltage = false then 10 else 100

/-- The level is selected as trigger, and triggering is allowed. -/
structure Selected (digitizeVoltage : Bool) (level : ℚ) (d : FrontPanel.DigitizerClass)
    (triggerLevel : ℚ) : Prop where
  triggerType : d.triggerType = 1
  continuous : d.continuous = false
  allowTrigger : d.allowTrigger = true
  voltage : d.digitizeVoltage = digitizeVoltage
  level : triggerLevel = level

/-- The four last voltages are above the level. -/
def Above (level : ℚ) (s : Sampler) : Prop := ∀ i < 4, level < history s i

/-- The four last voltages are below a voltage. -/
def Below (low : ℚ) (s : Sampler) : Prop := ∀ i < 4, history s i < low

section Detect

variable {s : Sampler} {digitizeVoltage : Bool} {level : ℚ}

theorem forall_lt_four {P : ℕ → Prop} : (∀ i < 4, P i) ↔ P 0 ∧ P 1 ∧ P 2 ∧ P 3 := by
  constructor
  · intro h
    exact ⟨h 0 (by omega), h 1 (by omega), h 2 (by omega), h 3 (by omega)⟩
  · rintro ⟨h0, h1, h2, h3⟩ i hi
    obtain rfl | rfl | rfl | rfl : i = 0 ∨ i = 1 ∨ i = 2 ∨ i = 3 := by omega
    · exact h0
    · exact h1
    · exact h2
    · exact h3

/-- The level trigger as a function of two facts about the last voltages. -/
def levelTrigger (above lower waitForLower : Bool) : Bool × Bool :=
  let (trigg, waitForLower) :=
    if above && !waitForLower then (true, true)
    else if above && waitForLower then (false, true)
    else (above, waitForLower)
  (trigg, if lower && waitForLower then false else waitForLower)

theorem detect_eq (hs : Selected digitizeVoltage level s.toDigitizerClass s.triggerLevel) (v : ℚ) :
    ∃ above lower : Bool, (above = true ↔ Above level s) ∧
      (lower = true ↔ Below (level - delta digitizeVoltage) s) ∧
      s.detect v = levelTrigger above lower s.waitForLower := by
  refine ⟨s.lastVoltage > s.triggerLevel && s.lastVoltageOld > s.triggerLevel &&
      s.lastVoltageOld2 > s.triggerLevel && s.lastVoltageOld3 > s.triggerLevel,
    s.lastVoltage < s.triggerLevel - delta s.digitizeVoltage &&
      s.lastVoltageOld < s.triggerLevel - delta s.digitizeVoltage &&
      s.lastVoltageOld2 < s.triggerLevel - delta s.digitizeVoltage &&
      s.lastVoltageOld3 < s.triggerLevel - delta s.digitizeVoltage, ?_, ?_, ?_⟩
  · simp only [Bool.and_eq_true, decide_eq_true_eq, and_assoc, Above, forall_lt_four, history,
      hs.level, gt_iff_lt]
  · simp only [Bool.and_eq_true, decide_eq_true_eq, and_assoc, Below, forall_lt_four, history,
      hs.level, hs.voltage]
  · have hedge : ¬ s.triggerType = 2 := by
      rw [hs.triggerType]
      decide
    unfold Sampler.detect
    rw [if_neg hedge]
    rfl

theorem delta_pos (digitizeVoltage : Bool) : 0 < delta digitizeVoltage := by
  unfold delta
  split_ifs <;> norm_num

theorem not_above_and_below (h : Above level s) : ¬ Below (level - delta digitizeVoltage) s := by
  intro hlow
  have hpos := delta_pos digitizeVoltage
  have hup := h 0 (by omega)
  have hdown := hlow 0 (by omega)
  linarith

/-- The trigger condition is met by four voltages above the level, and then sets `waitForLower`. -/
theorem detect_trigg (hs : Selected digitizeVoltage level s.toDigitizerClass s.triggerLevel) {v : ℚ}
    (h : (s.detect v).1 = true) :
    Above level s ∧ s.waitForLower = false ∧ (s.detect v).2 = true := by
  rcases detect_eq hs v with ⟨above, lower, habove, hlower, hdetect⟩
  rw [hdetect] at h ⊢
  cases above with
  | true =>
      have hup := habove.1 rfl
      have hdown : lower = false := by
        rw [← Bool.not_eq_true, hlower]
        exact not_above_and_below hup
      cases hwait : s.waitForLower with
      | true =>
          rw [hwait] at h
          cases h
      | false =>
          refine ⟨hup, rfl, ?_⟩
          rw [hdown]
          rfl
  | false =>
      cases hwait : s.waitForLower <;> rw [hwait] at h <;> cases h

/-- Only four voltages below the level take `waitForLower` back. -/
theorem detect_waitForLower
    (hs : Selected digitizeVoltage level s.toDigitizerClass s.triggerLevel) {v : ℚ}
    (h : (s.detect v).2 = false) :
    s.waitForLower = false ∨ s.waitForLower = true ∧ Below (level - delta digitizeVoltage) s := by
  rcases detect_eq hs v with ⟨above, lower, -, hlower, hdetect⟩
  rw [hdetect] at h
  cases hwait : s.waitForLower with
  | false => exact Or.inl rfl
  | true =>
      refine Or.inr ⟨rfl, hlower.1 ?_⟩
      rw [hwait] at h
      cases lower with
      | true => rfl
      | false => cases above <;> cases h

end Detect

/-! ## What a sample does to the history -/

section Effects

variable (s : Sampler) (trigg : Bool) (v : ℚ)

/-- Storing a sample moves the history by one. -/
theorem store_history :
    history (s.store trigg v) 0 = v ∧
      ∀ i < 3, history (s.store trigg v) (i + 1) = history s i := by
  have hstore : (s.store trigg v).lastVoltage = v ∧
      (s.store trigg v).lastVoltageOld = s.lastVoltage ∧
      (s.store trigg v).lastVoltageOld2 = s.lastVoltageOld ∧
      (s.store trigg v).lastVoltageOld3 = s.lastVoltageOld2 := by
    unfold Sampler.store Sampler.follow
    dsimp only
    cases s.triggered <;> cases trigg <;> exact ⟨rfl, rfl, rfl, rfl⟩
  rcases hstore with ⟨h0, h1, h2, h3⟩
  refine ⟨h0, fun i hi => ?_⟩
  obtain rfl | rfl | rfl : i = 0 ∨ i = 1 ∨ i = 2 := by omega
  · exact h1
  · exact h2
  · exact h3

theorem store_settings :
    (s.store trigg v).toDigitizerClass = s.toDigitizerClass ∧
      (s.store trigg v).triggerLevel = s.triggerLevel ∧
      (s.store trigg v).waitForLower = s.waitForLower := by
  unfold Sampler.store Sampler.follow
  dsimp only
  cases s.triggered <;> cases trigg <;> exact ⟨rfl, rfl, rfl⟩

/-- The end of a capture sets the history to zero. -/
theorem complete_history (i : ℕ) : history s.complete i = 0 := by
  unfold history
  split <;> rfl

end Effects

/-! ## The invariant -/

/-- Four samples in a row below a voltage. -/
def Lowered (low : ℚ) (stretch : List Measured) : Prop :=
  ∃ four, four <:+: stretch ∧ four.length = 4 ∧ ∀ m ∈ four, m.v < low

theorem Lowered.cons {low : ℚ} {stretch : List Measured} (h : Lowered low stretch)
    (m : Measured) : Lowered low (m :: stretch) := by
  rcases h with ⟨four, hinfix, hfour⟩
  exact ⟨four, hinfix.trans (List.infix_cons (List.infix_refl stretch)), hfour⟩

/-- Between two triggers that follow one another, four samples in a row are below the level by more
than `delta`; the sample with which the first capture began is one of those between. -/
def TriggersApart (digitizeVoltage : Bool) (level : ℚ) (l : Logged) : Prop :=
  Between Measured.trigger (Lowered (level - delta digitizeVoltage)) l.log

/-- What the sampler knows of the log. -/
structure Watched (digitizeVoltage : Bool) (level : ℚ) (l : Logged) : Prop where
  selected : Selected digitizeVoltage level l.s.toDigitizerClass l.s.triggerLevel
  zeros_le : l.zeros ≤ 4
  zero : ∀ i < 4, 4 ≤ i + l.zeros → history l.s i = 0
  measured : ∀ i, i + l.zeros < 4 → ∀ m, l.log[i]? = some m → history l.s i = m.v
  /-- Ready for a trigger, there were four low samples since the last one. -/
  armed : l.s.waitForLower = false → ∀ stretch, since Measured.trigger l.log = some stretch →
    Lowered (level - delta digitizeVoltage) stretch
  /-- Right after a trigger the voltages before it are still in the history. -/
  above : ∀ stretch, since Measured.trigger l.log = some stretch →
    stretch.length + l.zeros ≤ 3 → level < history l.s stretch.length

/-- A sample takes `waitForLower` back only for four measured voltages. -/
def Genuine (digitizeVoltage : Bool) (level : ℚ) (l : Logged) : Event → Prop
  | .sample _ => measures l.s = true → l.s.waitForLower = true →
      Below (level - delta digitizeVoltage) l.s → l.zeros = 0
  | .panel _ _ _ => True

instance (digitizeVoltage : Bool) (level : ℚ) (l : Logged) :
    DecidablePred (Genuine digitizeVoltage level l)
  | .sample _ =>
      inferInstanceAs (Decidable (_ → _ → (∀ i < 4, history l.s i < _) → l.zeros = 0))
  | .panel _ _ _ => isTrue trivial

section Watched

variable {digitizeVoltage : Bool} {level : ℚ} {l : Logged} {v : ℚ}

theorem prefix_of_since {stretch : List Measured}
    (h : since Measured.trigger l.log = some stretch) : stretch <+: l.log := by
  rcases since_eq_some_iff.1 h with ⟨between, p, before, hlog, -, -, rfl⟩
  exact ⟨before, by rw [hlog, List.append_assoc]; rfl⟩

/-- Four measured voltages below the level all came after the last trigger. -/
theorem Watched.lowered (h : Watched digitizeVoltage level l)
    (hbelow : Below (level - delta digitizeVoltage) l.s) (hzeros : l.zeros = 0)
    {stretch : List Measured} (hstretch : since Measured.trigger l.log = some stretch) :
    Lowered (level - delta digitizeVoltage) stretch := by
  have hprefix := prefix_of_since hstretch
  have hlong : 4 ≤ stretch.length := by
    by_contra hshort
    -- otherwise one of the four is from before the trigger, when all were above
    have hup := h.above stretch hstretch (by omega)
    have hdown := hbelow stretch.length (by omega)
    have hpos := delta_pos digitizeVoltage
    linarith
  refine ⟨stretch.take 4, (List.take_prefix 4 stretch).isInfix, ?_, fun m hm => ?_⟩
  · rw [List.length_take]
    omega
  · rcases List.mem_iff_getElem?.1 hm with ⟨i, hi⟩
    have hlt : i < 4 := by
      have := (List.getElem?_eq_some_iff.1 hi).1
      rw [List.length_take] at this
      omega
    rw [List.getElem?_take_of_lt hlt] at hi
    have hlog : l.log[i]? = some m := by
      rcases hprefix with ⟨before, hlog⟩
      rw [← hlog, List.getElem?_append_left (List.getElem?_eq_some_iff.1 hi).1]
      exact hi
    rw [← h.measured i (by omega) m hlog]
    exact hbelow i hlt

/-- One more measured sample, before the end of a capture is looked at. -/
theorem Watched.store (h : Watched digitizeVoltage level l) {m : Measured} (hm : m.v = v)
    (htrigger : m.trigger = true → (l.s.detect v).1 = true)
    (hgenuine : l.s.waitForLower = true → Below (level - delta digitizeVoltage) l.s → l.zeros = 0)
    (trigg : Bool) :
    Watched digitizeVoltage level
      { s := Sampler.store { l.s with waitForLower := (l.s.detect v).2 } trigg v
        log := m :: l.log
        zeros := l.zeros - 1 } := by
  rcases store_history { l.s with waitForLower := (l.s.detect v).2 } trigg v with ⟨hnew, hold⟩
  rcases store_settings { l.s with waitForLower := (l.s.detect v).2 } trigg v with
    ⟨hpanel, hlevel, hwait⟩
  have hle := h.zeros_le
  constructor
  case selected =>
    show Selected digitizeVoltage level (Sampler.store _ trigg v).toDigitizerClass
      (Sampler.store _ trigg v).triggerLevel
    rw [hpanel, hlevel]
    exact h.selected
  case zeros_le => exact (Nat.sub_le _ _).trans hle
  -- the zeros move on by one place, and the oldest one is gone
  case zero =>
    intro i hi hzeros
    cases i with
    | zero =>
        dsimp only at hzeros
        omega
    | succ i =>
        show history (Sampler.store _ trigg v) (i + 1) = 0
        rw [hold i (by omega)]
        exact h.zero i (by omega) (by dsimp only at hzeros; omega)
  case measured =>
    intro i hi m' hm'
    cases i with
    | zero =>
        show history (Sampler.store _ trigg v) 0 = m'.v
        rw [hnew, ← Option.some.inj hm', hm]
    | succ i =>
        dsimp only at hi
        show history (Sampler.store _ trigg v) (i + 1) = m'.v
        rw [hold i (by omega)]
        exact h.measured i (by omega) m' hm'
  case armed =>
    intro hfalse stretch hstretch
    have hready : (l.s.detect v).2 = false := hwait.symm.trans hfalse
    cases hmark : m.trigger with
    | true =>
        -- a trigger sets the flag
        have := (detect_trigg h.selected (htrigger hmark)).2.2
        rw [hready] at this
        cases this
    | false =>
        rw [since_cons_unmarked hmark, Option.map_eq_some_iff] at hstretch
        rcases hstretch with ⟨before, hbefore, rfl⟩
        apply Lowered.cons
        rcases detect_waitForLower h.selected hready with hwas | ⟨hwas, hbelow⟩
        · exact h.armed hwas before hbefore
        · exact h.lowered hbelow (hgenuine hwas hbelow) hbefore
  case above =>
    intro stretch hstretch hshort
    cases hmark : m.trigger with
    | true =>
        rw [since_cons_marked hmark] at hstretch
        rw [← Option.some.inj hstretch]
        show level < history (Sampler.store _ trigg v) 1
        rw [hold 0 (by omega)]
        exact (detect_trigg h.selected (htrigger hmark)).1 0 (by omega)
    | false =>
        rw [since_cons_unmarked hmark, Option.map_eq_some_iff] at hstretch
        rcases hstretch with ⟨before, hbefore, rfl⟩
        rw [List.length_cons] at hshort ⊢
        dsimp only at hshort
        show level < history (Sampler.store _ trigg v) (before.length + 1)
        rw [hold before.length (by omega)]
        exact h.above before hbefore (by omega)

/-- At the end of a capture the whole history is zero. -/
theorem Watched.complete (h : Watched digitizeVoltage level l) :
    Watched digitizeVoltage level { l with s := l.s.complete, zeros := 4 } where
  selected :=
    { triggerType := h.selected.triggerType
      continuous := h.selected.continuous
      allowTrigger := h.selected.allowTrigger
      voltage := h.selected.voltage
      level := h.selected.level }
  zeros_le := Nat.le_refl 4
  zero := fun i _ _ => complete_history l.s i
  measured := fun i hi => by
    dsimp only at hi
    omega
  armed := h.armed
  above := fun stretch _ hshort => by
    dsimp only at hshort
    omega

/-- Keeping the settings, the panel may be drawn or take the capture over. -/
def Keeps (digitizeVoltage : Bool) (level : ℚ) : Event → Prop
  | .sample _ => True
  | .panel d _ triggerLevel => Selected digitizeVoltage level d triggerLevel

/-- A trigger is accepted for the condition of the level only. -/
theorem detect_of_trigger
    (hs : Selected digitizeVoltage level l.s.toDigitizerClass l.s.triggerLevel)
    (hmeasures : measures l.s = true)
    (h : (!l.s.triggered && (l.s.handleSamplingForDigitizer v).triggered) = true) :
    (l.s.detect v).1 = true := by
  simp only [Bool.and_eq_true, Bool.not_eq_true'] at h
  rcases handleSampling_cases hmeasures v with hstored | hcomplete
  · rw [hstored, (store_eq _ _ v).2.1] at h
    rcases h with ⟨hidle, htriggered⟩
    have hmay : Sampler.mayTrigger { l.s with waitForLower := (l.s.detect v).2 }
        ((l.s.detect v).1 || l.s.continuous) = true := by
      simpa [hidle] using htriggered
    simp only [Sampler.mayTrigger, hs.continuous, Bool.or_false, Bool.and_eq_true] at hmay
    exact hmay.1.1
  · rw [hcomplete] at h
    cases h.2

theorem Watched.step (h : Watched digitizeVoltage level l)
    (hapart : TriggersApart digitizeVoltage level l) {e : Event}
    (hkeeps : Keeps digitizeVoltage level e) (hgenuine : Genuine digitizeVoltage level l e) :
    Watched digitizeVoltage level (CaptureLog.step l e) ∧
      TriggersApart digitizeVoltage level (CaptureLog.step l e) := by
  cases e with
  | panel d rendering triggerLevel =>
      refine ⟨⟨?_, h.zeros_le, h.zero, h.measured, h.armed, h.above⟩, hapart⟩
      exact ⟨hkeeps.triggerType, hkeeps.continuous, hkeeps.allowTrigger, hkeeps.voltage,
        hkeeps.level⟩
  | sample v =>
      cases hmeasures : measures l.s with
      | false =>
          -- nothing is measured while the picture is drawn
          rw [step_skip hmeasures]
          exact ⟨h, hapart⟩
      | true =>
          rw [step_measured hmeasures]
          have htrigger := detect_of_trigger (v := v) h.selected hmeasures
          have hstore := h.store (m := ⟨v, !l.s.triggered &&
            (l.s.handleSamplingForDigitizer v).triggered⟩) rfl htrigger (hgenuine hmeasures)
          constructor
          · rcases handleSampling_cases hmeasures v with hstored | hcomplete
            · have hrun : (l.s.handleSamplingForDigitizer v).bufferOverflow = false := by
                rw [hstored, (store_eq _ _ v).1]
                exact ((measures_iff l.s).1 hmeasures).2
              rw [hrun, if_neg Bool.false_ne_true]
              rw [hstored] at hstore ⊢
              exact hstore _
            · -- the capture ends, and with it the history
              have hfull : (l.s.handleSamplingForDigitizer v).bufferOverflow = true := by
                rw [hcomplete]
                rfl
              rw [hfull, if_pos rfl]
              rw [hcomplete] at hstore ⊢
              exact (hstore _).complete
          · -- a trigger was accepted only because `waitForLower` was taken back before
            refine between_cons_iff.2 ⟨hapart, fun hmark stretch hstretch => ?_⟩
            exact h.armed (detect_trigg h.selected (htrigger hmark)).2.1 stretch hstretch

end Watched

/-! ## Runs -/

/-- A sampler that is watched from now on. -/
def watch (s : Sampler) : Logged := { s := s }

theorem watched_watch {digitizeVoltage : Bool} {level : ℚ} {s : Sampler}
    (hs : Selected digitizeVoltage level s.toDigitizerClass s.triggerLevel) :
    Watched digitizeVoltage level (watch s) where
  selected := hs
  zeros_le := Nat.zero_le 4
  zero := fun i hi hzeros => by
    simp only [watch] at hzeros
    omega
  measured := fun i _ m hm => by
    simp [watch] at hm
  armed := fun _ stretch hstretch => by
    cases hstretch
  above := fun stretch hstretch => by
    cases hstretch

theorem always_watched {digitizeVoltage : Bool} {level : ℚ} {s : Sampler}
    (hs : Selected digitizeVoltage level s.toDigitizerClass s.triggerLevel) {es : List Event}
    (hes : ∀ e ∈ es, Keeps digitizeVoltage level e)
    (hgenuine : Run.Guarded CaptureLog.step (Genuine digitizeVoltage level) (watch s) es) :
    Run.Always CaptureLog.step
      (fun l => Watched digitizeVoltage level l ∧ TriggersApart digitizeVoltage level l) (watch s)
      es :=
  Run.always_of_guarded (fun _ _ hl hok => hl.1.step hl.2 hok.1 hok.2)
    ⟨watched_watch hs, between_nil⟩ ((Run.guarded_of_forall (watch s) hes).and hgenuine)

/-- Whatever the sampler did before, and whatever is measured with the settings kept: as long as no
zero from the end of a capture is taken for a low voltage, there are four low voltages between any
two triggers. -/
theorem hysteresis (digitizeVoltage : Bool) (level : ℚ) (s : Sampler)
    (hs : Selected digitizeVoltage level s.toDigitizerClass s.triggerLevel) (es : List Event)
    (hes : ∀ e ∈ es, Keeps digitizeVoltage level e)
    (hgenuine : Run.Guarded CaptureLog.step (Genuine digitizeVoltage level) (watch s) es) :
    Run.Always CaptureLog.step (TriggersApart digitizeVoltage level) (watch s) es :=
  (always_watched hs hes hgenuine).mono fun _ hl => hl.2

/-- Low, and then above the level up to the trigger. -/
def rise : List Event := List.replicate 400 (.sample 850) ++ List.replicate 5 (.sample 1100)

/-- Low again until the capture is over, and the panel takes it. -/
def fall : List Event :=
  List.replicate 200 (.sample 850) ++ [.panel { triggerType := 1, continuous := false } false 1000]

/-- The first trigger and the second one.  In between the voltage is low before the capture ends, so
that no zero is needed to be ready again. -/
theorem swings_triggered :
    (Run.exec Capture.step { triggerType := 1, continuous := false } rise).triggered = true ∧
      (Run.exec Capture.step { triggerType := 1, continuous := false } (rise ++ fall)).triggered =
        false ∧
      (Run.exec Capture.step { triggerType := 1, continuous := false }
        (rise ++ fall ++ rise)).triggered = true := by
  decide +kernel

theorem hysteresis_swings :
    let run := Run.exec CaptureLog.step (watch { triggerType := 1, continuous := false })
    (run rise).s.triggered = true ∧ (run (rise ++ fall)).s.triggered = false ∧
      (run (rise ++ fall ++ rise)).s.triggered = true ∧
      Run.Always CaptureLog.step (TriggersApart true 1000)
        (watch { triggerType := 1, continuous := false }) (rise ++ fall ++ rise) := by
  simp only [exec_s]
  refine ⟨swings_triggered.1, swings_triggered.2.1, swings_triggered.2.2, ?_⟩
  refine hysteresis true 1000 _ ⟨rfl, rfl, rfl, rfl, rfl⟩ _ ?_ (by decide +kernel)
  intro e he
  simp only [rise, fall, List.mem_append, List.mem_replicate, List.mem_singleton] at he
  rcases he with ((⟨-, rfl⟩ | ⟨-, rfl⟩) | ⟨-, rfl⟩ | rfl) | ⟨-, rfl⟩ | ⟨-, rfl⟩
  case inl.inr.inr => exact ⟨rfl, rfl, rfl, rfl, rfl⟩
  all_goals trivial

/-- With a level up to `delta`, zero is not low, so that no zero is taken for a low voltage. -/
theorem Watched.genuine_of_low {digitizeVoltage : Bool} {level : ℚ} {l : Logged}
    (h : Watched digitizeVoltage level l) (hlow : level ≤ delta digitizeVoltage) (e : Event) :
    Genuine digitizeVoltage level l e := by
  cases e with
  | panel d rendering triggerLevel => trivial
  | sample v =>
      intro _ _ hbelow
      by_contra hzeros
      have hzero := h.zero 3 (by omega) (by omega)
      have hneg := hbelow 3 (by omega)
      linarith

theorem hysteresis_of_low {digitizeVoltage : Bool} {level : ℚ}
    (hlow : level ≤ delta digitizeVoltage) {s : Sampler}
    (hs : Selected digitizeVoltage level s.toDigitizerClass s.triggerLevel) {es : List Event}
    (hes : ∀ e ∈ es, Keeps digitizeVoltage level e) :
    Run.Always CaptureLog.step (TriggersApart digitizeVoltage level) (watch s) es := by
  have hgenuine : Run.Guarded CaptureLog.step (Genuine digitizeVoltage level) (watch s) es :=
    Run.guarded_of_guarded
      (I := fun l => Watched digitizeVoltage level l ∧ TriggersApart digitizeVoltage level l)
      (fun l e hl _ => hl.1.genuine_of_low hlow e)
      (fun l e hl hkeeps hok => hl.1.step hl.2 hkeeps hok) ⟨watched_watch hs, between_nil⟩
      (Run.guarded_of_forall (watch s) hes)
  exact (always_watched hs hes hgenuine).mono fun _ hl => hl.2

/-! ## A voltage that is never low -/

/-- A capture under way began with a logged trigger. -/
theorem triggered_logged {s : Sampler} (hidle : s.triggered = false) (es : List Event) :
    (Run.exec CaptureLog.step (watch s) es).s.triggered = true →
      (since Measured.trigger (Run.exec CaptureLog.step (watch s) es).log).isSome := by
  have hstep : ∀ l e, (l.s.triggered = true → (since Measured.trigger l.log).isSome) →
      (CaptureLog.step l e).s.triggered = true →
        (since Measured.trigger (CaptureLog.step l e).log).isSome := by
    intro l e hl htriggered
    rcases step_log l e with ⟨hlog, hwas⟩ | ⟨v, -, hlog⟩
    · rw [hlog]
      exact hl (hwas htriggered)
    · rw [hlog, htriggered, Bool.and_true]
      cases hnow : l.s.triggered with
      | false => rfl
      | true =>
          rw [since_cons_unmarked rfl, Option.isSome_map]
          exact hl hnow
  refine (Run.always_of_step (I := fun l : Logged =>
    l.s.triggered = true → (since Measured.trigger l.log).isSome) hstep ?_ es).exec
  intro htriggered
  exact absurd (hidle.symm.trans htriggered) Bool.false_ne_true

/-- A trigger in the log stays there. -/
theorem since_isSome_exec {l : Logged} (h : (since Measured.trigger l.log).isSome)
    (es : List Event) : (since Measured.trigger (Run.exec CaptureLog.step l es).log).isSome := by
  refine (Run.always_of_step (I := fun l : Logged => (since Measured.trigger l.log).isSome)
    (fun l e hl => ?_) h es).exec
  rcases step_log l e with ⟨hlog, -⟩ | ⟨v, -, hlog⟩
  · rw [hlog]
    exact hl
  · rw [hlog, since]
    split_ifs
    · rfl
    · rw [Option.isSome_map]
      exact hl

/-- A second trigger, with nothing low in the log. -/
theorem not_triggersApart {digitizeVoltage : Bool} {level : ℚ} {l : Logged}
    (hsince : (since Measured.trigger l.log).isSome)
    (hhigh : ∀ m ∈ l.log, level - delta digitizeVoltage ≤ m.v) {e : Event}
    (hbefore : l.s.triggered = false) (hafter : (CaptureLog.step l e).s.triggered = true) :
    ¬ TriggersApart digitizeVoltage level (CaptureLog.step l e) := by
  intro hapart
  rcases Option.isSome_iff_exists.1 hsince with ⟨stretch, hstretch⟩
  rcases step_log l e with ⟨-, hwas⟩ | ⟨v, -, hlog⟩
  · exact absurd (hbefore.symm.trans (hwas hafter)) Bool.false_ne_true
  · unfold TriggersApart at hapart
    rw [hlog, between_cons_iff] at hapart
    have hmark : (!l.s.triggered && (CaptureLog.step l e).s.triggered) = true := by
      rw [hbefore, hafter]
      rfl
    rcases hapart.2 hmark stretch hstretch with ⟨four, hinfix, hlength, hlow⟩
    cases four with
    | nil => cases hlength
    | cons m four =>
        -- a low sample of the stretch would be one of the log
        have hpart : m :: four ⊆ stretch := List.IsInfix.subset hinfix
        have hm : m ∈ l.log := (prefix_of_since hstretch).subset (hpart (List.mem_cons_self ..))
        exact absurd (hlow m (List.mem_cons_self ..)) (not_lt.2 (hhigh m hm))

/-- The digitizer after power-up, with a level of 1 V selected as trigger. -/
def levelSelected : Sampler := { triggerType := 1, continuous := false }

/-- Up to the first trigger. -/
def firstRise : List Event := List.replicate 396 (.sample 950) ++ List.replicate 5 (.sample 1100)

/-- The rest of the capture, which is taken over, and then 950 mV again up to the second rise. -/
def secondRise : List Event :=
  List.replicate 200 (.sample 1100) ++
    [.panel { triggerType := 1, continuous := false } false 1000] ++
    List.replicate 400 (.sample 950) ++ List.replicate 4 (.sample 1100)

theorem rises_triggered :
    (Run.exec Capture.step levelSelected firstRise).triggered = true ∧
      (Run.exec Capture.step levelSelected (firstRise ++ secondRise)).triggered = false ∧
      (Run.exec Capture.step levelSelected (firstRise ++ secondRise ++ [.sample 1100])).triggered =
        true := by
  decide +kernel

theorem levelSelected_selected :
    Selected true 1000 levelSelected.toDigitizerClass levelSelected.triggerLevel :=
  ⟨rfl, rfl, rfl, rfl, rfl⟩

/-- The voltages of both rises, none of them low. -/
theorem mem_rises {e : Event} (he : e ∈ firstRise ++ secondRise ++ [.sample 1100]) :
    Keeps true 1000 e ∧ ∀ v, e = .sample v → 900 ≤ v := by
  simp only [firstRise, secondRise, List.mem_append, List.mem_replicate, List.mem_singleton] at he
  rcases he with ((⟨-, rfl⟩ | ⟨-, rfl⟩) | ((⟨-, rfl⟩ | rfl) | ⟨-, rfl⟩) | ⟨-, rfl⟩) | rfl
  case inl.inr.inl.inl.inr =>
    refine ⟨⟨rfl, rfl, rfl, rfl, rfl⟩, fun v hv => ?_⟩
    cases hv
  all_goals
    refine ⟨trivial, fun v hv => ?_⟩
    cases hv
    norm_num

/-- The sampler and the log before the second trigger. -/
def beforeSecond : Logged :=
  Run.exec CaptureLog.step (watch levelSelected) (firstRise ++ secondRise)

theorem exec_rises :
    Run.exec CaptureLog.step (watch levelSelected) (firstRise ++ secondRise ++ [.sample 1100]) =
      CaptureLog.step beforeSecond (.sample 1100) := by
  unfold beforeSecond
  rw [Run.exec_append, Run.exec_cons, Run.exec_nil]

theorem beforeSecond_triggered :
    beforeSecond.s.triggered = false ∧
      (CaptureLog.step beforeSecond (.sample 1100)).s.triggered = true := by
  rw [← exec_rises]
  unfold beforeSecond
  rw [exec_s, exec_s]
  exact rises_triggered.2

theorem beforeSecond_since : (since Measured.trigger beforeSecond.log).isSome := by
  have hfirst : (Run.exec CaptureLog.step (watch levelSelected) firstRise).s.triggered = true := by
    rw [exec_s]
    exact rises_triggered.1
  unfold beforeSecond
  rw [Run.exec_append]
  exact since_isSome_exec (triggered_logged rfl firstRise hfirst) secondRise

theorem beforeSecond_high : ∀ m ∈ beforeSecond.log, (1000 : ℚ) - delta true ≤ m.v := by
  have hdelta : (1000 : ℚ) - delta true = 900 := by norm_num [delta]
  rw [hdelta]
  exact forall_log (fun v hv => (mem_rises (List.mem_append_left _ hv)).2 v rfl)
    fun _ hm => absurd hm List.not_mem_nil

/-- Two triggers, and no voltage below 900 mV at all. -/
theorem not_always_hysteresis :
    ¬ ∀ (digitizeVoltage : Bool) (level : ℚ) (s : Sampler) (es : List Event),
      Selected digitizeVoltage level s.toDigitizerClass s.triggerLevel →
        (∀ e ∈ es, Keeps digitizeVoltage level e) →
          Run.Always CaptureLog.step (TriggersApart digitizeVoltage level) (watch s) es := by
  intro hall
  have hend := (hall true 1000 levelSelected (firstRise ++ secondRise ++ [.sample 1100])
    levelSelected_selected fun e he => (mem_rises he).1).exec
  rw [exec_rises] at hend
  exact not_triggersApart beforeSecond_since beforeSecond_high beforeSecond_triggered.1
    beforeSecond_triggered.2 hend

end Hysteresis
end PoorMansSmu
