import PoorMansSmu.Capture

/-!
# CaptureSession — what a new session of the digitizer starts from

Leaving the digitizer and coming back calls `close` and then `open`.  Of what the sampler knows
about a capture they take back `bufferOverflow` only.  The end of a capture takes back more, also
`triggered` and `countSinceLastSample`.

- `session_fresh_iff` : when the captures of a new session are of its own samples only;
- `not_always_fresh`  : a capture that shows a voltage from before.
-/

namespace PoorMansSmu
namespace CaptureSession

open Calibration Capture SmuHal

/-- `close`, and then `open` when the digitizer is shown again. -/
def reopen (s : Sampler) (SMU : ADCClass) : Sampler × ADCClass :=
  let (d, SMU) := s.close SMU
  ({ s with toDigitizerClass := d }, d.open_ SMU)

/-- What is shown was measured from sample `n` on. -/
def Fresh (n : ℕ) (s : Sampler) : Prop :=
  ∀ x < nrOfFloats, ∀ k, (s.display.mva x).number = some k → n ≤ k

theorem sampled_reopen {s : Sampler} (h : Sampled s) (SMU : ADCClass) :
    Sampled (reopen s SMU).1 :=
  { h with shows := fun htrue => absurd htrue Bool.false_ne_true }

/-! ## What a sample counts -/

section Counts

variable {s : Sampler}

theorem store_counts (s : Sampler) (trigg : Bool) (v : ℚ) :
    (s.store trigg v).processed = s.processed + 1 ∧
      (s.store trigg v).countSinceLastSample = wrap32 (s.countSinceLastSample + 1) ∧
      (s.store trigg v).triggerSample =
        if s.triggered = false ∧ trigg = true then s.processed else s.triggerSample := by
  unfold Sampler.store Sampler.follow
  dsimp only
  cases s.triggered <;> cases trigg <;> exact ⟨rfl, rfl, rfl⟩

theorem store_panel (s : Sampler) (trigg : Bool) (v : ℚ) :
    (s.store trigg v).toDigitizerClass = s.toDigitizerClass ∧
      (s.store trigg v).rendering = s.rendering := by
  unfold Sampler.store Sampler.follow
  dsimp only
  cases s.triggered <;> cases trigg <;> exact ⟨rfl, rfl⟩

theorem mayTrigger_iff (trigg : Bool) :
    s.mayTrigger trigg = true ↔
      trigg = true ∧ s.allowTrigger = true ∧
        nrOfFloats ≤ wrap32 (s.countSinceLastSample + 1) := by
  simp [Sampler.mayTrigger, and_assoc]

end Counts

/-! ## Samples of the session -/

/-- The session began with sample `n`, and will not look for a trigger before 200 samples more. -/
structure InSession (n : ℕ) (s : Sampler) : Prop extends Sampled s where
  begun : n ≤ s.processed
  fresh : s.triggered = true ∨ s.bufferOverflow = true → n + nrOfFloats / 2 ≤ s.triggerSample
  held : s.triggered = false →
    wrap32 (s.countSinceLastSample + 1) ≤ nrOfFloats / 2 + (s.processed - n : ℕ)

section InSession

variable {n : ℕ} {s : Sampler}

theorem InSession.shows_fresh (h : InSession n s) (hoverflow : s.bufferOverflow = true) :
    Fresh n s := by
  have htrigger := h.fresh (Or.inr hoverflow)
  have hshows := h.shows hoverflow
  intro x hx k hk
  rcases Nat.lt_or_ge (nrOfFloats / 2) x with hafter | hbefore
  · rw [hshows.after x hx hafter] at hk
    have := Option.some.inj hk
    omega
  · rw [hshows.before x hbefore] at hk
    have := Option.some.inj hk
    omega

theorem InSession.process (h : InSession n s) (hrun : s.bufferOverflow = false) (trigg : Bool)
    (v : ℚ) : InSession n (s.process trigg v) := by
  have hsampled := (h.toSampled.process hrun trigg v).1
  have hlast := h.toSampled.isLast_iff (s.mayTrigger trigg) v
  have hbegun := h.begun
  rcases store_eq s (s.mayTrigger trigg) v with ⟨hoverflow, htriggered, -⟩
  rcases store_counts s (s.mayTrigger trigg) v with ⟨hprocessed, hcount, hsample⟩
  unfold Sampler.process at hsampled ⊢
  dsimp only at hsampled ⊢
  by_cases hend : IsLast s
  · -- the capture that ends was triggered in the session
    rw [if_pos (hlast.2 hend)] at hsampled ⊢
    refine ⟨hsampled, ?_, fun _ => ?_, fun _ => ?_⟩
    · show n ≤ (s.store (s.mayTrigger trigg) v).processed
      omega
    · show n + nrOfFloats / 2 ≤ (s.store (s.mayTrigger trigg) v).triggerSample
      rw [hsample, if_neg (by simp [hend.1])]
      exact h.fresh (Or.inl hend.1)
    · show wrap32 (0 + 1) ≤ _
      have hone := (wrap32_succ (n := 0) (by omega)).2
      have hmany : (1 : ℤ) ≤ (nrOfFloats / 2 : ℕ) := by decide
      omega
  · rw [if_neg (fun hfull => hend (hlast.1 hfull))] at hsampled ⊢
    refine ⟨hsampled, by omega, ?_, ?_⟩
    · rintro (hnow | hnow)
      · rw [hsample]
        cases hwas : s.triggered with
        | true =>
            rw [if_neg (by simp)]
            exact h.fresh (Or.inl hwas)
        | false =>
            -- the trigger comes after the samples that it is held off for
            rw [htriggered, hwas, Bool.false_or] at hnow
            rw [if_pos ⟨rfl, hnow⟩]
            have hheld := h.held hwas
            have hmany := ((mayTrigger_iff trigg).1 hnow).2.2
            have hhalf : nrOfFloats / 2 + nrOfFloats / 2 = nrOfFloats := rfl
            omega
      · rw [hoverflow, hrun] at hnow
        exact absurd hnow Bool.false_ne_true
    · -- the counter goes up by one at most, like the number of samples
      intro hnow
      rw [htriggered, Bool.or_eq_false_iff] at hnow
      have hheld := h.held hnow.1
      have hlow := (wrap32_succ h.count.1).1
      have hup := (wrap32_succ hlow).2
      rw [hcount, hprocessed]
      omega

theorem InSession.step (h : InSession n s) (e : Event) : InSession n (Capture.step s e) := by
  have hsampled := h.toSampled.step e
  cases e with
  | panel d rendering triggerLevel =>
      refine ⟨hsampled, h.begun, ?_, h.held⟩
      rintro (htriggered | hoverflow)
      · exact h.fresh (Or.inl htriggered)
      · exact h.fresh (Or.inr (Bool.and_eq_true_iff.1 hoverflow).1)
  | sample v =>
      show InSession n (s.handleSamplingForDigitizer v)
      cases hrendering : s.rendering with
      | true =>
          rw [handleSampling_skip (Or.inl hrendering)]
          exact h
      | false =>
          cases hoverflow : s.bufferOverflow with
          | true =>
              rw [handleSampling_skip (Or.inr hoverflow)]
              exact h
          | false =>
              rw [handleSampling_process hrendering hoverflow]
              have hwait : InSession n { s with waitForLower := (s.detect v).2 } :=
                ⟨h.toSampled.waitForLower _, h.begun, h.fresh, h.held⟩
              exact hwait.process hoverflow _ v

end InSession

/-! ## Samples from before -/

/-- Sampling continuously, with the panel not drawn and no capture to take over. -/
structure Sampling (s : Sampler) : Prop where
  rendering : s.rendering = false
  bufferOverflow : s.bufferOverflow = false
  continuous : s.continuous = true
  allowTrigger : s.allowTrigger = true

section Stale

variable {n : ℕ} {s : Sampler}

theorem Sampling.step_eq (h : Sampling s) :
    Capture.step s (.sample 0) =
      Sampler.process { s with waitForLower := (s.detect 0).2 } true 0 := by
  show s.handleSamplingForDigitizer 0 = _
  rw [handleSampling_process h.rendering h.bufferOverflow, h.continuous, Bool.or_true]

/-- The last sample of a capture. -/
theorem Sampling.step_last (h : Sampling s) (hs : Sampled s) (hlast : IsLast s) :
    (Capture.step s (.sample 0)).bufferOverflow = true ∧
      (Capture.step s (.sample 0)).triggerSample = s.triggerSample := by
  have hwait := hs.waitForLower (s.detect 0).2
  have hend := (hwait.isLast_iff (Sampler.mayTrigger { s with waitForLower := (s.detect 0).2 } true)
    0).2 hlast
  rw [h.step_eq]
  unfold Sampler.process
  dsimp only
  rw [if_pos hend]
  refine ⟨rfl, ?_⟩
  show (Sampler.store _ _ 0).triggerSample = _
  rw [(store_counts _ _ 0).2.2, if_neg (by simp [hlast.1])]

/-- A sample that is not the last one; in a capture it is counted, and otherwise it is the trigger
when enough were counted. -/
structure Stores (s s' : Sampler) (trigg : Bool) : Prop where
  sampling : Sampling s'
  processed : s'.processed = s.processed + 1
  count : s'.countSinceLastSample = wrap32 (s.countSinceLastSample + 1)
  triggered : s'.triggered = (s.triggered || trigg)
  samplesAfterTrigger : s'.samplesAfterTrigger =
    if s.triggered then s.samplesAfterTrigger + 1 else s.samplesAfterTrigger
  triggerSample : s'.triggerSample =
    if s.triggered = false ∧ trigg = true then s.processed else s.triggerSample

theorem Sampling.step_store (h : Sampling s) (hs : Sampled s) (hlast : ¬ IsLast s) :
    ∃ trigg : Bool, (trigg = true ↔ nrOfFloats ≤ wrap32 (s.countSinceLastSample + 1)) ∧
      Stores s (Capture.step s (.sample 0)) trigg := by
  have hwait := hs.waitForLower (s.detect 0).2
  refine ⟨Sampler.mayTrigger { s with waitForLower := (s.detect 0).2 } true, ?_, ?_⟩
  · rw [mayTrigger_iff]
    exact ⟨fun hmay => hmay.2.2, fun hmany => ⟨rfl, h.allowTrigger, hmany⟩⟩
  · have hgoes := hwait.isLast_iff
      (Sampler.mayTrigger { s with waitForLower := (s.detect 0).2 } true) 0
    rw [h.step_eq]
    unfold Sampler.process
    dsimp only
    rw [if_neg (fun hfull => hlast (hgoes.1 hfull))]
    rcases store_panel { s with waitForLower := (s.detect 0).2 }
      (Sampler.mayTrigger { s with waitForLower := (s.detect 0).2 } true) 0 with
      ⟨hpanel, hrendering⟩
    rcases store_eq { s with waitForLower := (s.detect 0).2 }
      (Sampler.mayTrigger { s with waitForLower := (s.detect 0).2 } true) 0 with
      ⟨hoverflow, htriggered, hafter⟩
    rcases store_counts { s with waitForLower := (s.detect 0).2 }
      (Sampler.mayTrigger { s with waitForLower := (s.detect 0).2 } true) 0 with
      ⟨hprocessed, hcount, hsample⟩
    refine ⟨⟨hrendering.trans h.rendering, hoverflow.trans h.bufferOverflow, ?_, ?_⟩,
      hprocessed, hcount, htriggered, hafter, hsample⟩
    · rw [hpanel]
      exact h.continuous
    · rw [hpanel]
      exact h.allowTrigger

/-- A capture under way is completed. -/
theorem completes_of_triggered (h : Sampling s) (hs : Sampled s) (htriggered : s.triggered = true) :
    ∃ es, (Run.exec Capture.step s es).bufferOverflow = true ∧
      (Run.exec Capture.step s es).triggerSample = s.triggerSample := by
  -- by induction on the number of samples that are missing
  induction hn : nrOfFloats / 2 - s.samplesAfterTrigger generalizing s with
  | zero =>
      have hroom := hs.room
      omega
  | succ n ih =>
      by_cases hlast : IsLast s
      · exact ⟨[.sample 0], h.step_last hs hlast⟩
      · rcases h.step_store hs hlast with ⟨trigg, -, hstep⟩
        have hnow := hstep.triggered
        have hafter := hstep.samplesAfterTrigger
        have hsample := hstep.triggerSample
        rw [htriggered, Bool.true_or] at hnow
        rw [if_pos htriggered] at hafter
        rw [if_neg (by simp [htriggered])] at hsample
        rcases ih hstep.sampling (hs.step (.sample 0)) hnow (by omega) with ⟨es, hoverflow, hes⟩
        exact ⟨.sample 0 :: es, hoverflow, hes.trans hsample⟩

/-- When more than 200 samples were counted, the trigger comes before 200 more. -/
theorem triggers_of_count (h : Sampling s) (hs : Sampled s) (hidle : s.triggered = false)
    (hbegun : n ≤ s.processed) (hsoon : s.processed < n + nrOfFloats / 2)
    (hcount : nrOfFloats / 2 + ((s.processed - n : ℕ) : ℤ) < wrap32 (s.countSinceLastSample + 1)) :
    ∃ es, Sampling (Run.exec Capture.step s es) ∧
      (Run.exec Capture.step s es).triggered = true ∧
      (Run.exec Capture.step s es).triggerSample < n + nrOfFloats / 2 := by
  have hhalf : nrOfFloats / 2 + nrOfFloats / 2 = nrOfFloats := rfl
  -- by induction on the number of samples for which a trigger would be too early
  induction hk : n + nrOfFloats / 2 - s.processed generalizing s with
  | zero => omega
  | succ k ih =>
      have hlast : ¬ IsLast s := fun hend => absurd (hidle.symm.trans hend.1) Bool.false_ne_true
      rcases h.step_store hs hlast with ⟨trigg, htrigg, hstep⟩
      have hnow := hstep.triggered
      have hprocessed := hstep.processed
      rw [hidle, Bool.false_or] at hnow
      cases htrigger : trigg with
      | true =>
          have hsample := hstep.triggerSample
          rw [if_pos ⟨hidle, htrigger⟩] at hsample
          refine ⟨[.sample 0], hstep.sampling, hnow.trans htrigger, ?_⟩
          show (Capture.step s (.sample 0)).triggerSample < n + nrOfFloats / 2
          omega
      | false =>
          -- the counter has not reached 400, so that it does not start again from below
          have hfew : ¬ (nrOfFloats : ℤ) ≤ wrap32 (s.countSinceLastSample + 1) := by
            rw [← htrigg, htrigger]
            exact Bool.false_ne_true
          have hwrap : wrap32 (wrap32 (s.countSinceLastSample + 1) + 1) =
              wrap32 (s.countSinceLastSample + 1) + 1 := by
            have hlow := (wrap32_succ hs.count.1).1
            have hmany : ((nrOfFloats : ℕ) : ℤ) = 400 := rfl
            generalize wrap32 (s.countSinceLastSample + 1) = m at hfew hlow
            unfold wrap32
            omega
          rcases ih hstep.sampling (hs.step (.sample 0)) (hnow.trans htrigger) (by omega) (by omega)
            (by rw [hstep.count, hwrap]; omega) (by omega) with ⟨es, hes⟩
          exact ⟨.sample 0 :: es, hes⟩

end Stale

/-! ## Sessions -/

/-- Whatever is measured and set in the new session, its captures are of its own samples. -/
def SessionFresh (s : Sampler) (SMU : ADCClass) : Prop :=
  ∀ es : List Event,
    Run.Always Capture.step (fun s' => s'.bufferOverflow = true → Fresh s.processed s')
      (reopen s SMU).1 es

/-- No capture is under way, and at most 199 samples were counted. -/
def CleanStart (s : Sampler) : Prop :=
  s.triggered = false ∧ wrap32 (s.countSinceLastSample + 1) ≤ (nrOfFloats / 2 : ℕ)

section Sessions

variable {s : Sampler} {SMU : ADCClass}

theorem inSession_reopen (h : Sampled s) (hclean : CleanStart s) :
    InSession s.processed (reopen s SMU).1 where
  toSampled := sampled_reopen h SMU
  begun := Nat.le_refl s.processed
  fresh := by
    rintro (htriggered | hoverflow)
    · exact absurd (hclean.1.symm.trans htriggered) Bool.false_ne_true
    · exact absurd hoverflow Bool.false_ne_true
  held := fun _ => by
    have hheld := hclean.2
    show wrap32 (s.countSinceLastSample + 1) ≤ nrOfFloats / 2 + (s.processed - s.processed : ℕ)
    omega

/-- Otherwise a capture goes back to before the session. -/
theorem stale_session (SMU : ADCClass) (h : Sampled s) (hclean : ¬ CleanStart s) :
    ∃ es, (Run.exec Capture.step (reopen s SMU).1 es).bufferOverflow = true ∧
      (Run.exec Capture.step (reopen s SMU).1 es).triggerSample < s.processed + nrOfFloats / 2 := by
  -- sampling continuously from the start of the session
  have hpanel := (sampled_reopen h SMU).step (.panel {} false 0)
  have hsampling : Sampling (Capture.step (reopen s SMU).1 (.panel {} false 0)) :=
    ⟨rfl, rfl, rfl, rfl⟩
  have hmany : 0 < nrOfFloats / 2 := by decide
  cases htriggered : s.triggered with
  | true =>
      rcases completes_of_triggered hsampling hpanel htriggered with ⟨es, hoverflow, hsample⟩
      have hprocessed := h.processed htriggered
      refine ⟨.panel {} false 0 :: es, hoverflow, ?_⟩
      show (Run.exec Capture.step _ es).triggerSample < _
      rw [hsample]
      show s.triggerSample < _
      omega
  | false =>
      have hcount : (nrOfFloats / 2 : ℕ) < wrap32 (s.countSinceLastSample + 1) :=
        not_le.1 fun hle => hclean ⟨htriggered, hle⟩
      have hnow : (nrOfFloats / 2 : ℕ) + ((s.processed - s.processed : ℕ) : ℤ) <
          wrap32 (s.countSinceLastSample + 1) := by omega
      rcases triggers_of_count hsampling hpanel htriggered (Nat.le_refl s.processed)
        (Nat.lt_add_of_pos_right hmany) hnow with ⟨es, hes, hyes, hsample⟩
      -- and the capture that was triggered is completed
      have hsampled := (Run.always_of_step (fun _ e hs => hs.step e) hpanel es).exec
      rcases completes_of_triggered hes hsampled hyes with ⟨fs, hoverflow, hsame⟩
      refine ⟨.panel {} false 0 :: (es ++ fs), ?_⟩
      rw [Run.exec_cons, Run.exec_append]
      exact ⟨hoverflow, by omega⟩

theorem Shows.not_fresh {n : ℕ} (h : Shows s) (hsample : s.triggerSample < n + nrOfFloats / 2) :
    ¬ Fresh n s := by
  intro hfresh
  have hfirst := hfresh 0 (by decide) _ (h.before 0 (Nat.zero_le _))
  have htrigger := h.trigger
  have hhalf : nrOfFloats / 2 + nrOfFloats / 2 = nrOfFloats := rfl
  omega

end Sessions

/-- For every moment at which the digitizer is left: all captures of the new session are of its own
samples exactly if no capture was under way and few samples had been counted. -/
theorem session_fresh_iff (es : List Event) (SMU : ADCClass) :
    SessionFresh (Run.exec Capture.step {} es) SMU ↔ CleanStart (Run.exec Capture.step {} es) := by
  have hsampled := (Run.always_of_step (fun _ e hs => hs.step e) sampled_start es).exec
  generalize Run.exec Capture.step {} es = s at hsampled
  constructor
  · intro hfresh
    by_contra hclean
    rcases stale_session SMU hsampled hclean with ⟨fs, hoverflow, hsample⟩
    have hnew := (Run.always_of_step (fun _ e hs => hs.step e)
      (sampled_reopen hsampled SMU) fs).exec
    exact Shows.not_fresh (hnew.shows hoverflow) hsample ((hfresh fs).exec hoverflow)
  · intro hclean fs
    exact (Run.always_of_step (fun _ e hs => hs.step e) (inSession_reopen hsampled hclean) fs).mono
      fun _ hs hoverflow => hs.shows_fresh hoverflow

/-- The board as it starts, without calibration. -/
def uncalibrated : ADCClass := ADCClass.init DacComp.default DacComp.default fun _ => 0

/-- The digitizer is left right after a trigger. -/
def leftTriggered : Sampler := Run.exec Capture.step {} (List.replicate 400 (.sample 0))

/-- The samples that are missing. -/
def missing : List Event := List.replicate 200 (.sample 0)

/-- When the capture is completed, half of what is shown is from before. -/
theorem leftTriggered_shown :
    leftTriggered.processed = 400 ∧
      (Run.exec Capture.step (reopen leftTriggered uncalibrated).1 missing).bufferOverflow = true ∧
      ((Run.exec Capture.step (reopen leftTriggered uncalibrated).1 missing).display.mva 0).number =
        some 199 := by
  decide +kernel

theorem not_always_fresh :
    ¬ ∀ (es : List Event) (SMU : ADCClass), SessionFresh (Run.exec Capture.step {} es) SMU := by
  intro hall
  rcases leftTriggered_shown with ⟨hprocessed, hoverflow, hfirst⟩
  have hsession : SessionFresh leftTriggered uncalibrated :=
    hall (List.replicate 400 (.sample 0)) uncalibrated
  have hfresh := (hsession missing).exec hoverflow 0 (by decide) 199 hfirst
  omega

end CaptureSession
end PoorMansSmu
