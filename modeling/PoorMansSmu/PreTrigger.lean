import PoorMansSmu.CaptureLog

/-!
# PreTrigger — the samples before the trigger

The digitizer writes every sample to a ring of 401 slots and, once a capture is complete, reads the
ring backwards from the slot of the trigger.  At that moment 200 more samples have been written.
They fill the other slots of the ring up to the last one: the 201 slots that are read, the one of
the trigger and the 200 before it, are just those that were not written again.

- `readBack_shown`     : the slots that are read are the ones shown in front of the trigger;
- `pretrigger_retained`: they hold the trigger and the 200 samples before it, newest first.
-/

namespace PoorMansSmu
namespace PreTrigger

open Capture CaptureLog RingBuffer

/-! ## Reading backwards -/

/-- The slots that the last loop of `copyDataBufferToDisplayBuffer` reads in `n` rounds. -/
def readBack (ramEmulator : ℕ → Sample) : (n adr : ℕ) → List Sample
  | 0, _ => []
  | n + 1, adr =>
      ramEmulator adr :: readBack ramEmulator n (if adr = 0 then nrOfFloats else adr - 1)

theorem readBack_eq_walkBack (ramEmulator : ℕ → Sample) (n adr : ℕ) :
    readBack ramEmulator n adr = walkBack ringSize ramEmulator n adr := by
  induction n generalizing adr with
  | zero => rfl
  | succ n ih =>
      rw [readBack, walkBack, ih]
      rfl

theorem readBack_length (ramEmulator : ℕ → Sample) (n adr : ℕ) :
    (readBack ramEmulator n adr).length = n := by
  induction n generalizing adr with
  | zero => rfl
  | succ n ih => rw [readBack, List.length_cons, ih]

/-- One round more reads one slot more. -/
theorem readBack_succ (ramEmulator : ℕ → Sample) (n adr : ℕ) :
    readBack ramEmulator (n + 1) adr =
      readBack ramEmulator n adr ++ [ramEmulator ((before ringSize)^[n] adr)] := by
  induction n generalizing adr with
  | zero => rfl
  | succ n ih =>
      rw [readBack, ih]
      rfl

theorem ringLoop_adr (ramEmulator : ℕ → Sample) (d : Display) (adr n : ℕ) :
    (Display.ringLoop ramEmulator d adr n).2 = (before ringSize)^[n] adr := by
  induction n with
  | zero =>
      unfold Display.ringLoop
      rfl
  | succ n ih =>
      rw [ringLoop_succ, Function.iterate_succ_apply', ← ih]

/-- What the loop reads in round `i` is shown `i` places in front of the middle. -/
theorem readBack_shown (ramEmulator : ℕ → Sample) (d : Display) (adr : ℕ) {n : ℕ}
    (hn : n ≤ nrOfFloats / 2 + 1) {i : ℕ} (hi : i < n) :
    (readBack ramEmulator n adr)[i]? =
      some ((Display.ringLoop ramEmulator d adr n).1.mva (nrOfFloats / 2 - i)) := by
  induction n with
  | zero => exact absurd hi (Nat.not_lt_zero i)
  | succ n ih =>
      rw [readBack_succ, ringLoop_succ]
      show _ = some (Function.update (Display.ringLoop ramEmulator d adr n).1.mva
        (nrOfFloats / 2 - n) (ramEmulator (Display.ringLoop ramEmulator d adr n).2)
        (nrOfFloats / 2 - i))
      rcases Nat.lt_succ_iff_lt_or_eq.1 hi with hlt | rfl
      · -- the places of the rounds before are left alone
        have hne : nrOfFloats / 2 - i ≠ nrOfFloats / 2 - n := by omega
        rw [Function.update_of_ne hne, List.getElem?_append_left (by rwa [readBack_length])]
        exact ih (by omega) hlt
      · rw [Function.update_self, ringLoop_adr,
          List.getElem?_append_right (by rw [readBack_length]), readBack_length, Nat.sub_self]
        rfl

/-! ## The ring and the log -/

/-- The samples of a log with their numbers, in the order in which they came. -/
def samples : List Measured → List Sample
  | [] => []
  | m :: log => samples log ++ [⟨m.v, some log.length⟩]

@[simp] theorem samples_length (log : List Measured) : (samples log).length = log.length := by
  induction log with
  | nil => rfl
  | cons m log ih => rw [samples, List.length_append, ih, List.length_singleton, List.length_cons]

/-- The ring holds the last samples of the log, and the log tells the trigger. -/
structure Kept (s : Sampler) (log : List Measured) : Prop where
  length : log.length = s.processed
  holds : Holds ringSize s.ramEmulator (samples log)
  trigger : s.triggered = true → ∃ m, log[s.samplesAfterTrigger]? = some m ∧ m.trigger = true

section Kept

variable {s : Sampler} {log : List Measured}

/-- A sample is stored and logged. -/
theorem Kept.store (h : Kept s log) (hs : Sampled s) (trigg : Bool) (m : Measured)
    (hm : m.trigger = (!s.triggered && trigg)) : Kept (s.store trigg m.v) (m :: log) := by
  have hslot : s.ramAdrPtr = (samples log).length % ringSize := by
    rw [samples_length, h.length]
    exact hs.ptr
  have hpush := h.holds.push ⟨m.v, some log.length⟩
  rw [← hslot] at hpush
  have hlength : (m :: log).length = s.processed + 1 := congrArg (· + 1) h.length
  rw [h.length] at hpush
  cases htriggered : s.triggered with
  | true =>
      -- the trigger is one sample further back
      simp only [Sampler.store, Sampler.follow, htriggered, if_true]
      exact ⟨hlength, by rw [samples, h.length]; exact hpush, fun _ => h.trigger htriggered⟩
  | false =>
      cases trigg with
      | true =>
          have hidle := hs.idle htriggered
          simp only [Sampler.store, Sampler.follow, htriggered, Bool.false_eq_true, if_false,
            if_true]
          refine ⟨hlength, by rw [samples, h.length]; exact hpush, fun _ => ⟨m, ?_, ?_⟩⟩
          · show (m :: log)[s.samplesAfterTrigger]? = some m
            rw [hidle]
            rfl
          · rw [hm, htriggered]
            rfl
      | false =>
          simp only [Sampler.store, Sampler.follow, htriggered, Bool.false_eq_true, if_false]
          refine ⟨hlength, by rw [samples, h.length]; exact hpush, fun htrue => ?_⟩
          exact absurd htrue (by simp [Sampler.record])

/-- The end of a capture leaves the ring and the log as they are. -/
theorem Kept.complete (h : Kept s log) : Kept s.complete log :=
  ⟨h.length, h.holds, fun htrue => absurd htrue Bool.false_ne_true⟩

end Kept

/-! ## The end of a capture -/

/-- The slots that are read backwards from the one of the trigger hold the trigger and the 200
samples before it, newest first; 200 samples have come after it. -/
structure Retained (s : Sampler) (log : List Measured) : Prop where
  read : readBack s.ramEmulator (nrOfFloats / 2 + 1) s.adrAtTrigger =
    ((samples log).reverse.drop (nrOfFloats / 2)).take (nrOfFloats / 2 + 1)
  trigger : ∃ m, log[nrOfFloats / 2]? = some m ∧ m.trigger = true

section Process

variable {s : Sampler} {log : List Measured}

/-- Just the slots that are not written again are left for the trigger and what is before it. -/
theorem Kept.retained (h : Kept s log) (hs : Stored s) (htriggered : s.triggered = true)
    (hfull : s.samplesAfterTrigger = nrOfFloats / 2) : Retained s log := by
  have hprocessed := hs.processed htriggered
  have htrigger := hs.trigger htriggered
  have hlength := h.length
  have hhalf : nrOfFloats / 2 + nrOfFloats / 2 = nrOfFloats := rfl
  have hring : ringSize = nrOfFloats + 1 := rfl
  have hmany : 1 < nrOfFloats / 2 := by decide
  have hcount : (samples log).length = s.processed := by rw [samples_length, hlength]
  constructor
  · have hback : (samples log).length - (s.triggerSample + 1) = nrOfFloats / 2 := by omega
    rw [hs.adr htriggered, readBack_eq_walkBack,
      h.holds.walkBack_eq (by omega) (by omega) (by omega), List.reverse_take, hback]
  · rw [← hfull]
    exact h.trigger htriggered

/-- What is done with a sample keeps the ring and the log, and the last sample of a capture finds the
samples before the trigger in the ring. -/
theorem Kept.process (h : Kept s log) (hs : Sampled s) (trigg : Bool) (v : ℚ) :
    Kept (s.process trigg v) (⟨v, !s.triggered && (s.process trigg v).triggered⟩ :: log) ∧
      (IsLast s → Retained (s.process trigg v)
        (⟨v, !s.triggered && (s.process trigg v).triggered⟩ :: log)) := by
  have hkept := h.store hs (s.mayTrigger trigg) ⟨v, !s.triggered && s.mayTrigger trigg⟩ rfl
  have hstored := hs.toStored.store trigg v
  have hlast := hs.isLast_iff (s.mayTrigger trigg) v
  have htriggered := (store_eq s (s.mayTrigger trigg) v).2.1
  unfold Sampler.process
  dsimp only at hkept ⊢
  by_cases hend : IsLast s
  · -- the last sample is not a trigger
    have hmark : ∀ b, (!s.triggered && b) = false := fun b => by rw [hend.1]; rfl
    have hnow : (s.store (s.mayTrigger trigg) v).triggered = true := by
      rw [htriggered, hend.1, Bool.true_or]
    rw [hmark] at hkept
    rw [if_pos (hlast.2 hend), hmark]
    have hretained := hkept.retained hstored hnow (hlast.2 hend)
    exact ⟨hkept.complete, fun _ => ⟨hretained.read, hretained.trigger⟩⟩
  · have hmark : (!s.triggered && (s.store (s.mayTrigger trigg) v).triggered) =
        (!s.triggered && s.mayTrigger trigg) := by
      rw [htriggered]
      cases s.triggered <;> rfl
    rw [if_neg (fun hfull => hend (hlast.1 hfull)), hmark]
    exact ⟨hkept, fun htrue => absurd htrue hend⟩

end Process

/-! ## Runs -/

/-- The counters stay in their ranges, also while a sample is processed, and a completed capture
finds the samples before the trigger in the ring. -/
structure Retains (l : Logged) : Prop where
  ramAdrPtr : l.s.ramAdrPtr ≤ nrOfFloats
  samplesAfterTrigger : l.s.samplesAfterTrigger ≤ nrOfFloats / 2
  store : ∀ trigg v, (l.s.store trigg v).ramAdrPtr ≤ nrOfFloats ∧
    (l.s.store trigg v).samplesAfterTrigger ≤ nrOfFloats / 2
  full : l.s.bufferOverflow = true → Retained l.s l.log

/-- The invariant of sampling with a log. -/
structure Tracked (l : Logged) : Prop where
  sampled : Sampled l.s
  kept : Kept l.s l.log
  full : l.s.bufferOverflow = true → Retained l.s l.log

section Tracked

variable {l : Logged}

theorem tracked_start : Tracked { s := {} } where
  sampled := sampled_start
  kept := ⟨rfl, holds_nil _, fun h => absurd h Bool.false_ne_true⟩
  full := fun h => absurd h Bool.false_ne_true

theorem Tracked.retains (h : Tracked l) : Retains l := by
  have hroom := h.sampled.room
  have hptr := h.sampled.ptr
  have hring : ringSize = nrOfFloats + 1 := rfl
  have hlt := Nat.mod_lt l.s.processed (by decide : 0 < ringSize)
  refine ⟨by omega, by omega, fun trigg v => ⟨?_, ?_⟩, h.full⟩
  · have hnext := h.sampled.next_ptr
    have hlt' := Nat.mod_lt (l.s.processed + 1) (by decide : 0 < ringSize)
    have hstore : (l.s.store trigg v).ramAdrPtr =
        if l.s.ramAdrPtr + 1 > nrOfFloats then 0 else l.s.ramAdrPtr + 1 := by
      unfold Sampler.store Sampler.follow
      dsimp only
      cases l.s.triggered <;> cases trigg <;> rfl
    omega
  · have hafter := (store_eq l.s trigg v).2.2
    split_ifs at hafter <;> omega

theorem Tracked.step (h : Tracked l) (e : Event) : Tracked (CaptureLog.step l e) := by
  have hsampled : Sampled (CaptureLog.step l e).s := by
    rw [step_s]
    exact h.sampled.step e
  cases e with
  | panel d rendering triggerLevel =>
      refine ⟨hsampled, ⟨h.kept.length, h.kept.holds, h.kept.trigger⟩, fun hfull => ?_⟩
      have hretained := h.full (Bool.and_eq_true_iff.1 hfull).1
      exact ⟨hretained.read, hretained.trigger⟩
  | sample v =>
      cases hmeasures : measures l.s with
      | false =>
          rw [step_skip hmeasures]
          exact h
      | true =>
          rcases (measures_iff l.s).1 hmeasures with ⟨hrendering, hoverflow⟩
          have hwait := h.sampled.waitForLower (l.s.detect v).2
          have hkept : Kept { l.s with waitForLower := (l.s.detect v).2 } l.log :=
            ⟨h.kept.length, h.kept.holds, h.kept.trigger⟩
          have hprocess := hkept.process hwait ((l.s.detect v).1 || l.s.continuous) v
          have hlast := (hwait.process hoverflow ((l.s.detect v).1 || l.s.continuous) v).2
          rw [step_measured hmeasures, handleSampling_process hrendering hoverflow] at hsampled ⊢
          exact ⟨hsampled, hprocess.1, fun hfull => hprocess.2 (hlast.1 hfull)⟩

end Tracked

/-- In every run the counters stay in their ranges, and whenever a capture is complete, reading the
ring backwards from the slot of the trigger finds the trigger and the 200 samples processed before
it, newest first. -/
theorem pretrigger_retained (es : List Event) :
    Run.Always CaptureLog.step Retains { s := {} } es :=
  (Run.always_of_step (fun _ e hl => hl.step e) tracked_start es).mono fun _ hl => hl.retains

end PreTrigger
end PoorMansSmu
