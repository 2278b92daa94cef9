import PoorMansSmu.CaptureLog
import PoorMansSmu.Lib.Extremes

/-!
# CaptureExtremes — the greatest and the least voltage of a capture

`maxDigV` and `minDigV` are found while the two buffers are copied to the display.  The loop over
the linear buffer runs one slot too far, to one that no sample is ever written to, and so zero takes
part.  The two are the extremes of the capture exactly when zero lies between its voltages
(`always_shows_iff`).
-/

namespace PoorMansSmu
namespace CaptureExtremes

open Capture CaptureLog Extremes

/-! ## Extremes of a copy -/

/-- The extremes found so far, over the values in a set and the two that the search starts from. -/
structure Covers (S : Set ℚ) (d : Display) : Prop where
  greatest : IsGreatest (insert (-100000) S) d.maxDigV
  least : IsLeast (insert 100000 S) d.minDigV

theorem covers_clear {d : Display} (hmax : d.maxDigV = -100000) (hmin : d.minDigV = 100000) :
    Covers ∅ d := by
  have hsearch := search_empty (-100000 : ℚ) 100000
  constructor
  · rw [hmax]
    exact hsearch.greatest
  · rw [hmin]
    exact hsearch.least

theorem Covers.updateMaxMin {S : Set ℚ} {d : Display} (h : Covers S d) (v : ℚ) :
    Covers (insert v S) (d.updateMaxMin v) := by
  have hmax : (d.updateMaxMin v).maxDigV = max v d.maxDigV := by
    rw [max_comm, max_def_lt]
    rfl
  have hmin : (d.updateMaxMin v).minDigV = min v d.minDigV := by
    rw [min_def_lt]
    rfl
  have hsearch : Search (-100000) 100000 S d.maxDigV d.minDigV := ⟨h.greatest, h.least⟩
  have hinsert := hsearch.insert v
  rw [← hmax, ← hmin] at hinsert
  exact ⟨hinsert.greatest, hinsert.least⟩

theorem Covers.write {S : Set ℚ} {d : Display} (h : Covers S d) (x : ℕ) (sample : Sample) :
    Covers S (d.write x sample) := ⟨h.greatest, h.least⟩

/-- The values of the first `n` slots. -/
def slots (f : ℕ → Sample) (n : ℕ) : Set ℚ := {v | ∃ x < n, (f x).v = v}

theorem slots_succ (f : ℕ → Sample) (n : ℕ) : slots f (n + 1) = insert (f n).v (slots f n) := by
  ext v
  constructor
  · rintro ⟨x, hx, rfl⟩
    rcases Nat.lt_succ_iff_lt_or_eq.1 hx with hlt | rfl
    · exact Or.inr ⟨x, hlt, rfl⟩
    · exact Or.inl rfl
  · rintro (rfl | ⟨x, hx, rfl⟩)
    · exact ⟨n, Nat.lt_succ_self n, rfl⟩
    · exact ⟨x, Nat.lt_succ_of_lt hx, rfl⟩

theorem slots_zero (f : ℕ → Sample) : slots f 0 = ∅ := by
  ext v
  simp [slots]

theorem Covers.linearLoop {S : Set ℚ} {d : Display} (h : Covers S d) (f : ℕ → Sample) (n : ℕ) :
    Covers (slots f n ∪ S) (Display.linearLoop f d n) := by
  induction n with
  | zero =>
      rw [slots_zero, Set.empty_union]
      unfold Display.linearLoop
      exact h
  | succ n ih =>
      rw [linearLoop_succ, slots_succ, Set.insert_union]
      exact (ih.write _ _).updateMaxMin _

theorem Covers.ringLoop {S : Set ℚ} {d : Display} (h : Covers S d) (f : ℕ → Sample)
    {trigger n : ℕ} (hn : n ≤ nrOfFloats / 2 + 1) (htrigger : nrOfFloats / 2 < trigger) :
    Covers (slots (fun i => f ((trigger - i) % ringSize)) n ∪ S)
      (Display.ringLoop f d (trigger % ringSize) n).1 := by
  induction n with
  | zero =>
      rw [slots_zero, Set.empty_union]
      unfold Display.ringLoop
      exact h
  | succ n ih =>
      rw [ringLoop_succ, slots_succ, Set.insert_union]
      have hadr := (ringLoop_mva f d (by omega : n ≤ nrOfFloats / 2 + 1) htrigger).1
      dsimp only
      rw [hadr]
      exact ((ih (by omega)).write _ _).updateMaxMin _

/-- The copy goes through 201 slots of either buffer. -/
theorem copy_covers {s : Sampler} {trigger : ℕ} (hadr : s.adrAtTrigger = trigger % ringSize)
    (htrigger : nrOfFloats / 2 < trigger) :
    Covers (slots (fun i => s.ramEmulator ((trigger - i) % ringSize)) (nrOfFloats / 2 + 1) ∪
      slots s.ramEmulator2 (nrOfFloats / 2 + 1)) s.copyDataBufferToDisplayBuffer.display := by
  have hclear := covers_clear (d := (Display.zeroLoop { s.display with writes := [] }
    (nrOfFloats + 1)).clearMaxMin) rfl rfl
  have hlinear := hclear.linearLoop s.ramEmulator2 (nrOfFloats / 2 + 1)
  rw [Set.union_empty] at hlinear
  have hring := hlinear.ringLoop s.ramEmulator (Nat.le_refl _) htrigger
  rw [← hadr] at hring
  exact hring

/-! ## What the buffers hold of the log -/

/-- A slot that holds a sample holds what was measured then. -/
def Numbered (log : List Measured) (f : ℕ → Sample) : Prop :=
  ∀ x k, (f x).number = some k → ∃ m, log.reverse[k]? = some m ∧ m.v = (f x).v

theorem getElem?_reverse_cons {log : List Measured} {k : ℕ} {m' : Measured}
    (h : log.reverse[k]? = some m') (m : Measured) : (m :: log).reverse[k]? = some m' := by
  rw [List.reverse_cons, List.getElem?_append_left (List.getElem?_eq_some_iff.1 h).1]
  exact h

section Numbered

variable {log : List Measured} {f : ℕ → Sample}

theorem Numbered.cons (h : Numbered log f) (m : Measured) : Numbered (m :: log) f := by
  intro x k hk
  rcases h x k hk with ⟨m', hm', hv⟩
  exact ⟨m', getElem?_reverse_cons hm' m, hv⟩

theorem Numbered.update (h : Numbered log f) (m : Measured) (adr : ℕ) :
    Numbered (m :: log) (Function.update f adr ⟨m.v, some log.length⟩) := by
  intro x k hk
  by_cases hx : x = adr
  · rw [hx, Function.update_self] at hk ⊢
    refine ⟨m, ?_, rfl⟩
    rw [← Option.some.inj hk, List.reverse_cons, ← List.length_reverse, List.getElem?_concat_length]
  · rw [Function.update_of_ne hx] at hk ⊢
    exact h.cons m x k hk

end Numbered

/-- The buffers hold what is in the log.  No sample goes to the slot in the middle of the linear
buffer. -/
structure Recorded (s : Sampler) (log : List Measured) : Prop where
  length : log.length = s.processed
  ring : Numbered log s.ramEmulator
  linear : Numbered log s.ramEmulator2
  unused : (s.ramEmulator2 (nrOfFloats / 2)).v = 0

/-- The values of a capture: of the trigger, the 200 samples before it and the 200 after it. -/
def captured (log : List Measured) : Set ℚ := {v | ∃ m ∈ log.take (nrOfFloats + 1), m.v = v}

theorem mem_captured_iff {log : List Measured} {v : ℚ} :
    v ∈ captured log ↔
      ∃ k m, log.length ≤ k + ringSize ∧ log.reverse[k]? = some m ∧ m.v = v := by
  -- the `i`-th from the end of the log is number `log.length - 1 - i`
  constructor
  · rintro ⟨m, hm, hv⟩
    rcases List.mem_iff_getElem?.1 hm with ⟨i, hi⟩
    rw [List.getElem?_take, ite_eq_iff] at hi
    rcases hi with ⟨hlt, hi⟩ | ⟨-, hi⟩
    · have hlength := (List.getElem?_eq_some_iff.1 hi).1
      refine ⟨log.length - 1 - i, m, ?_, ?_, hv⟩
      · simp only [ringSize]
        omega
      · have hback : log.length - 1 - (log.length - 1 - i) = i := by omega
        rw [List.getElem?_reverse (by omega), hback]
        exact hi
    · cases hi
  · rintro ⟨k, m, hlast, hk, hv⟩
    have hlength := (List.getElem?_eq_some_iff.1 hk).1
    rw [List.length_reverse] at hlength
    rw [List.getElem?_reverse hlength] at hk
    refine ⟨m, List.mem_iff_getElem?.2 ⟨log.length - 1 - k, ?_⟩, hv⟩
    rw [List.getElem?_take_of_lt]
    · exact hk
    · simp only [ringSize] at hlast
      omega

section Recorded

variable {s : Sampler} {log : List Measured}

theorem Recorded.store (h : Recorded s log) (hs : Sampled s) (trigg : Bool) (m : Measured) :
    Recorded (s.store trigg m.v) (m :: log) := by
  have hlength := h.length
  have hring := h.ring.update m s.ramAdrPtr
  rw [hlength] at hring
  cases htriggered : s.triggered with
  | true =>
      have hlinear := h.linear.update m s.samplesAfterTrigger
      rw [hlength] at hlinear
      have hunused : nrOfFloats / 2 ≠ s.samplesAfterTrigger := (Nat.ne_of_lt hs.room).symm
      simp only [Sampler.store, Sampler.follow, htriggered, if_true]
      refine ⟨congrArg (· + 1) hlength, hring, hlinear, ?_⟩
      show (Function.update s.ramEmulator2 s.samplesAfterTrigger _ (nrOfFloats / 2)).v = 0
      rw [Function.update_of_ne hunused]
      exact h.unused
  | false =>
      -- the linear buffer is left alone
      simp only [Sampler.store, Sampler.follow, htriggered, Bool.false_eq_true, if_false]
      cases trigg <;> exact ⟨congrArg (· + 1) hlength, hring, h.linear.cons m, h.unused⟩

/-- With the linear buffer full, the slots that are copied hold the capture, and a zero. -/
theorem Recorded.slots_eq (h : Recorded s log) (hs : Stored s) (htriggered : s.triggered = true)
    (hfull : s.samplesAfterTrigger = nrOfFloats / 2) :
    slots (fun i => s.ramEmulator ((s.triggerSample - i) % ringSize)) (nrOfFloats / 2 + 1) ∪
      slots s.ramEmulator2 (nrOfFloats / 2 + 1) = insert 0 (captured log) := by
  have hprocessed := hs.processed htriggered
  have htrigger := hs.trigger htriggered
  have hlength := h.length
  have hhalf : nrOfFloats / 2 + nrOfFloats / 2 = nrOfFloats := rfl
  have hsize : ringSize = nrOfFloats + 1 := rfl
  have hring : ∀ i < nrOfFloats / 2 + 1,
      (s.ramEmulator ((s.triggerSample - i) % ringSize)).number = some (s.triggerSample - i) := by
    intro i hi
    have hcount : ((List.range s.processed).map some).length = s.processed := by simp
    have hslot := hs.holds (s.triggerSample - i) (by omega) (by omega)
    rw [List.getElem_map, List.getElem_range] at hslot
    exact hslot
  -- the last slot of the linear buffer is the one that is never written
  rw [slots_succ s.ramEmulator2, h.unused, Set.union_insert]
  congr 1
  ext v
  rw [mem_captured_iff]
  constructor
  · rintro (⟨i, hi, rfl⟩ | ⟨j, hj, rfl⟩)
    · rcases h.ring _ _ (hring i hi) with ⟨m, hm, hv⟩
      exact ⟨s.triggerSample - i, m, by omega, hm, hv⟩
    · rcases h.linear _ _ (hs.linear htriggered j (by omega)) with ⟨m, hm, hv⟩
      exact ⟨s.triggerSample + 1 + j, m, by omega, hm, hv⟩
  · rintro ⟨k, m, hlast, hk, rfl⟩
    have hlt := (List.getElem?_eq_some_iff.1 hk).1
    rw [List.length_reverse] at hlt
    rcases Nat.lt_or_ge s.triggerSample k with hafter | hbefore
    · -- after the trigger
      have hnumber := hs.linear htriggered (k - (s.triggerSample + 1)) (by omega)
      have hback : s.triggerSample + 1 + (k - (s.triggerSample + 1)) = k := by omega
      rw [hback] at hnumber
      rcases h.linear _ _ hnumber with ⟨m', hm', hv⟩
      rw [hk] at hm'
      cases hm'
      exact Or.inr ⟨k - (s.triggerSample + 1), by omega, hv.symm⟩
    · -- the trigger and what is before it
      have hnumber := hring (s.triggerSample - k) (by omega)
      have hback : s.triggerSample - (s.triggerSample - k) = k := by omega
      rw [hback] at hnumber
      rcases h.ring _ _ hnumber with ⟨m', hm', hv⟩
      rw [hk] at hm'
      cases hm'
      refine Or.inl ⟨s.triggerSample - k, by omega, ?_⟩
      dsimp only
      rw [hback]
      exact hv.symm

/-- One sample, and the extremes at the end of a capture. -/
theorem Recorded.process (h : Recorded s log) (hs : Sampled s) (trigg : Bool) (m : Measured) :
    Recorded (s.process trigg m.v) (m :: log) ∧
      (IsLast s → Covers (insert 0 (captured (m :: log))) (s.process trigg m.v).display) := by
  have hrecorded := h.store hs (s.mayTrigger trigg) m
  have hstored := hs.toStored.store trigg m.v
  have hlast := hs.isLast_iff (s.mayTrigger trigg) m.v
  have htriggered := (store_eq s (s.mayTrigger trigg) m.v).2.1
  unfold Sampler.process
  dsimp only
  by_cases hend : IsLast s
  · rw [if_pos (hlast.2 hend)]
    have hnow : (s.store (s.mayTrigger trigg) m.v).triggered = true := by
      rw [htriggered, hend.1, Bool.true_or]
    have htrigger := hstored.trigger hnow
    have hhalf : nrOfFloats / 2 + nrOfFloats / 2 = nrOfFloats := rfl
    have hmany : 1 < nrOfFloats / 2 := by decide
    refine ⟨⟨hrecorded.length, hrecorded.ring, hrecorded.linear, hrecorded.unused⟩, fun _ => ?_⟩
    -- the extremes are those of the slots that are copied
    rw [← hrecorded.slots_eq hstored hnow (hlast.2 hend)]
    exact copy_covers (s := (s.store (s.mayTrigger trigg) m.v).overflow) (hstored.adr hnow)
      (by omega)
  · rw [if_neg (fun hfull => hend (hlast.1 hfull))]
    exact ⟨hrecorded, fun h => absurd h hend⟩

end Recorded

/-! ## Runs -/

/-- Zero lies between two values of the set. -/
def SpansZero (C : Set ℚ) : Prop := (∃ c ∈ C, 0 ≤ c) ∧ ∃ c ∈ C, c ≤ 0

/-- A completed capture: `maxDigV` and `minDigV` are its greatest and its least value. -/
def ShowsExtremes (l : Logged) : Prop :=
  l.s.bufferOverflow = true →
    IsGreatest (captured l.log) l.s.display.maxDigV ∧ IsLeast (captured l.log) l.s.display.minDigV

/-- A capture that is completed now has zero between its values. -/
def CompletesSpanning (l : Logged) : Event → Prop
  | .sample v => Completes l.s (.sample v) → SpansZero (captured (⟨v, false⟩ :: l.log))
  | .panel _ _ _ => True

/-- With a zero among the values, the extremes are those of the capture if it spans zero. -/
theorem Covers.extremes_iff {C : Set ℚ} {d : Display} (h : Covers (insert 0 C) d) :
    IsGreatest C d.maxDigV ∧ IsLeast C d.minDigV ↔ SpansZero C := by
  have hmax : IsGreatest (insert 0 C) d.maxDigV :=
    (Extremes.isGreatest_insert_iff h.greatest).2 ⟨0, Set.mem_insert 0 C, by norm_num⟩
  have hmin : IsLeast (insert 0 C) d.minDigV :=
    (Extremes.isLeast_insert_iff h.least).2 ⟨0, Set.mem_insert 0 C, by norm_num⟩
  exact and_congr (Extremes.isGreatest_insert_iff hmax) (Extremes.isLeast_insert_iff hmin)

/-- The sampler with its log, and nothing of the log forgotten too early. -/
structure Tracked (l : Logged) : Prop where
  sampled : Sampled l.s
  recorded : Recorded l.s l.log
  shows : ShowsExtremes l

section Tracked

variable {l : Logged}

theorem tracked_start : Tracked { s := {} } where
  sampled := sampled_start
  recorded :=
    { length := rfl
      ring := fun _ _ h => by cases h
      linear := fun _ _ h => by cases h
      unused := rfl }
  shows := fun h => absurd h Bool.false_ne_true

/-- A measured sample, which shows the right extremes if it completes a capture with zero between
its values. -/
theorem Tracked.measured (h : Tracked l) (hmeasures : measures l.s = true) (v : ℚ) :
    Recorded (CaptureLog.step l (.sample v)).s (CaptureLog.step l (.sample v)).log ∧
      (IsLast l.s → (ShowsExtremes (CaptureLog.step l (.sample v)) ↔
        SpansZero (captured (⟨v, false⟩ :: l.log)))) := by
  rcases (measures_iff l.s).1 hmeasures with ⟨hrendering, hoverflow⟩
  have hwait := h.sampled.waitForLower (l.s.detect v).2
  have hrecorded : Recorded { l.s with waitForLower := (l.s.detect v).2 } l.log :=
    ⟨h.recorded.length, h.recorded.ring, h.recorded.linear, h.recorded.unused⟩
  rw [step_measured hmeasures, handleSampling_process hrendering hoverflow]
  constructor
  · exact (hrecorded.process hwait _ ⟨v, _⟩).1
  · intro hlast
    have hcovers := (hrecorded.process hwait ((l.s.detect v).1 || l.s.continuous)
      ⟨v, false⟩).2 hlast
    have hfull := (hwait.process hoverflow ((l.s.detect v).1 || l.s.continuous) v).2.2 hlast
    have hmark : ∀ b, (!l.s.triggered && b) = false := fun b => by rw [hlast.1]; rfl
    rw [← hcovers.extremes_iff]
    unfold ShowsExtremes
    dsimp only
    rw [hmark]
    exact ⟨fun himp => himp hfull, fun hboth _ => hboth⟩

theorem Tracked.step (h : Tracked l) (e : Event) (hok : CompletesSpanning l e) :
    Tracked (CaptureLog.step l e) := by
  have hsampled : Sampled (CaptureLog.step l e).s := by
    rw [step_s]
    exact h.sampled.step e
  cases e with
  | panel d rendering triggerLevel =>
      refine ⟨hsampled, ⟨h.recorded.length, h.recorded.ring, h.recorded.linear,
        h.recorded.unused⟩, fun hfull => h.shows ?_⟩
      exact (Bool.and_eq_true_iff.1 hfull).1
  | sample v =>
      cases hmeasures : measures l.s with
      | false =>
          rw [step_skip hmeasures]
          exact h
      | true =>
          rcases h.measured hmeasures v with ⟨hrecorded, hshows⟩
          refine ⟨hsampled, hrecorded, ?_⟩
          by_cases hcompletes : Completes l.s (.sample v)
          · exact (hshows hcompletes.2.2).2 (hok hcompletes)
          · -- no capture is completed
            intro hfull
            rw [step_s, h.sampled.overflow_iff ((measures_iff l.s).1 hmeasures).2] at hfull
            exact absurd hfull hcompletes

end Tracked

/-- In every run, `maxDigV` and `minDigV` are the greatest and the least value of every completed
capture exactly if all these captures have zero between their values. -/
theorem always_shows_iff (es : List Event) :
    Run.Always CaptureLog.step ShowsExtremes { s := {} } es ↔
      Run.Guarded CaptureLog.step CompletesSpanning { s := {} } es := by
  apply Run.always_iff_guarded (I := Tracked) (fun l hl => hl.shows)
    (fun l e hl hok => hl.step e hok) _ tracked_start es
  intro l e hl hbad hshows
  cases e with
  | panel d rendering triggerLevel => exact hbad trivial
  | sample v =>
      apply hbad
      rintro ⟨hrendering, hoverflow, hlast⟩
      have hmeasures := (measures_iff l.s).2 ⟨hrendering, hoverflow⟩
      exact ((hl.measured hmeasures v).2 hlast).1 hshows

/-- A steady volt. -/
def steadyVolt : List Event := List.replicate 600 (.sample 1000)

theorem steadyVolt_minDigV :
    (Run.exec Capture.step {} steadyVolt).bufferOverflow = true ∧
      (Run.exec Capture.step {} steadyVolt).display.minDigV = 0 := by
  decide +kernel

/-- The least value of the capture of a steady volt is shown as zero. -/
theorem not_always_shows :
    ¬ ∀ es : List Event, Run.Always CaptureLog.step ShowsExtremes { s := {} } es := by
  intro hall
  have hend := (hall steadyVolt).exec
  unfold ShowsExtremes at hend
  rw [exec_s] at hend
  dsimp only at hend
  have hleast := (hend steadyVolt_minDigV.1).2
  rw [steadyVolt_minDigV.2] at hleast
  -- everything that was measured is a volt
  have hvolt : ∀ m ∈ (Run.exec CaptureLog.step { s := {} } steadyVolt).log, m.v = 1000 := by
    apply forall_log (P := (· = 1000))
    · intro v hv
      cases List.eq_of_mem_replicate hv
      rfl
    · exact fun m hm => absurd hm List.not_mem_nil
  rcases hleast.1 with ⟨m, hm, hzero⟩
  have := hvolt m (List.mem_of_mem_take hm)
  rw [hzero] at this
  norm_num at this

end CaptureExtremes
end PoorMansSmu
