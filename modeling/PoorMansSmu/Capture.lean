import PoorMansSmu.FrontPanel
import PoorMansSmu.Lib.RingBuffer
import PoorMansSmu.Lib.Run

/-!
# Capture — what the digitizer shows of a waveform

Every sample goes to a ring of 401 slots.  After a trigger the samples also go to a linear buffer, and
when that holds 200 of them, `copyDataBufferToDisplayBuffer` puts the two together in `mva`, with the
trigger in the middle.

The samples are numbered here in the order in which they are processed.  The two loops meet badly:
both write the place of the trigger, so that the sample after it is lost (`completed_shows`), and two
of the three loops run past the end of `mva`.
-/

namespace PoorMansSmu
namespace Capture

open FrontPanel

/-! ## State -/

/-- A measured value, and which of the processed samples it is; a constant is none of them. -/
structure Sample where
  v : ℚ
  number : Option ℕ
  deriving DecidableEq

def nrOfFloats : ℕ := 400

/-- The number of slots of the ring: `ramAdrPtr` runs from 0 to `nrOfFloats`. -/
def ringSize : ℕ := nrOfFloats + 1

/-- The display buffer with its extreme values.  `writes` is not in the program: it records the
indices written in the last copy. -/
structure Display where
  mva : ℕ → Sample := fun _ => ⟨0, none⟩
  maxDigV : ℚ := -100000
  minDigV : ℚ := 100000
  writes : List ℕ := []

/-- The digitizer.  `processed` and `triggerSample` are not in the program: they number the samples
and tell the one that triggered. -/
structure Sampler extends FrontPanel.DigitizerClass where
  rendering : Bool := false
  triggerLevel : ℚ := 1000
  triggered : Bool := false
  lastVoltage : ℚ := 0
  lastVoltageOld : ℚ := 0
  lastVoltageOld2 : ℚ := 0
  lastVoltageOld3 : ℚ := 0
  waitForLower : Bool := false
  ramAdrPtr : ℕ := 0
  ramEmulator : ℕ → Sample := fun _ => ⟨0, none⟩
  ramEmulator2 : ℕ → Sample := fun _ => ⟨0, none⟩
  samplesAfterTrigger : ℕ := 0
  countSinceLastSample : ℤ := 0
  adrAtTrigger : ℕ := 0
  display : Display := {}
  processed : ℕ := 0
  triggerSample : ℕ := 0

/-! ## The copy to the display buffer -/

namespace Display

/-- `mva[x] = sample` -/
def write (d : Display) (x : ℕ) (sample : Sample) : Display :=
  { d with mva := Function.update d.mva x sample, writes := x :: d.writes }

def clearMaxMin (d : Display) : Display :=
  { d with maxDigV := -100000, minDigV := 100000 }

def updateMaxMin (d : Display) (v : ℚ) : Display :=
  { d with
    maxDigV := if v > d.maxDigV then v else d.maxDigV
    minDigV := if v < d.minDigV then v else d.minDigV }

/-- The loop that sets `n` entries to zero. -/
def zeroLoop (d : Display) (n : ℕ) : Display :=
  (List.range n).foldl (fun d x => d.write x ⟨0, none⟩) d

/-- The first `n` rounds of the loop over the linear buffer. -/
def linearLoop (ramEmulator2 : ℕ → Sample) (d : Display) (n : ℕ) : Display :=
  (List.range n).foldl
    (fun d x =>
      (d.write (x + nrOfFloats / 2) (ramEmulator2 x)).updateMaxMin (ramEmulator2 x).v) d

/-- The first `n` rounds of the loop over the ring, which counts `x` and `adr` down. -/
def ringLoop (ramEmulator : ℕ → Sample) (d : Display) (adr n : ℕ) : Display × ℕ :=
  (List.range n).foldl
    (fun (d, adr) i =>
      ((d.write (nrOfFloats / 2 - i) (ramEmulator adr)).updateMaxMin (ramEmulator adr).v,
        if adr = 0 then nrOfFloats else adr - 1)) (d, adr)

end Display

namespace Sampler

def copyDataBufferToDisplayBuffer (s : Sampler) : Sampler :=
  let d := Display.zeroLoop { s.display with writes := [] } (nrOfFloats + 1)
  let d := d.clearMaxMin
  let d := Display.linearLoop s.ramEmulator2 d (nrOfFloats / 2 + 1)
  { s with display := (Display.ringLoop s.ramEmulator d s.adrAtTrigger (nrOfFloats / 2 + 1)).1 }

/-! ## One sample -/

/-- The trigger condition, and the new value of `waitForLower`. -/
def detect (s : Sampler) (v : ℚ) : Bool × Bool :=
  if s.triggerType = 2 then
    let edgeSteepnessToDetect := 1
    let positiveEdge :=
      v > s.lastVoltage + edgeSteepnessToDetect &&
        s.lastVoltage > s.lastVoltageOld + edgeSteepnessToDetect &&
        s.lastVoltageOld > s.lastVoltageOld2 + edgeSteepnessToDetect &&
        s.lastVoltageOld2 > s.lastVoltageOld3 + edgeSteepnessToDetect
    (positiveEdge, s.waitForLower)
  else
    let trigg :=
      s.lastVoltage > s.triggerLevel && s.lastVoltageOld > s.triggerLevel &&
        s.lastVoltageOld2 > s.triggerLevel && s.lastVoltageOld3 > s.triggerLevel
    let (trigg, waitForLower) :=
      if trigg && !s.waitForLower then (true, true)
      else if trigg && s.waitForLower then (false, true)
      else (trigg, s.waitForLower)
    let delta := if s.digitizeVoltage = false then 10 else 100
    let lower :=
      s.lastVoltage < s.triggerLevel - delta && s.lastVoltageOld < s.triggerLevel - delta &&
        s.lastVoltageOld2 < s.triggerLevel - delta && s.lastVoltageOld3 < s.triggerLevel - delta
    (trigg, if lower && waitForLower then false else waitForLower)

/-- After a trigger the sample goes to the linear buffer; before it, it may be the trigger. -/
def follow (s : Sampler) (trigg : Bool) (sample : Sample) : Sampler :=
  if s.triggered then
    { s with
      ramEmulator2 := Function.update s.ramEmulator2 s.samplesAfterTrigger sample
      samplesAfterTrigger := s.samplesAfterTrigger + 1 }
  else if trigg then
    { s with triggered := true, adrAtTrigger := s.ramAdrPtr, triggerSample := s.processed }
  else s

/-- Every sample goes to the ring. -/
def record (s : Sampler) (sample : Sample) : Sampler :=
  { s with
    lastVoltageOld3 := s.lastVoltageOld2
    lastVoltageOld2 := s.lastVoltageOld
    lastVoltageOld := s.lastVoltage
    lastVoltage := sample.v
    ramEmulator := Function.update s.ramEmulator s.ramAdrPtr sample
    ramAdrPtr := if s.ramAdrPtr + 1 > nrOfFloats then 0 else s.ramAdrPtr + 1
    processed := s.processed + 1 }

/-- The capture is over. -/
def overflow (s : Sampler) : Sampler :=
  { s with
    bufferOverflow := true
    triggered := false
    samplesAfterTrigger := 0
    countSinceLastSample := 0
    lastVoltage := 0
    lastVoltageOld := 0
    lastVoltageOld2 := 0
    lastVoltageOld3 := 0 }

/-- What follows when the linear buffer is full. -/
def complete (s : Sampler) : Sampler :=
  s.overflow.copyDataBufferToDisplayBuffer

/-- No trigger when stopped, nor before some samples after the last full buffer. -/
def mayTrigger (s : Sampler) (trigg : Bool) : Bool :=
  trigg && s.allowTrigger && !(wrap32 (s.countSinceLastSample + 1) < nrOfFloats)

/-- A sample is counted and stored. -/
def store (s : Sampler) (trigg : Bool) (v : ℚ) : Sampler :=
  let sample : Sample := ⟨v, some s.processed⟩
  let s := { s with countSinceLastSample := wrap32 (s.countSinceLastSample + 1) }
  (s.follow trigg sample).record sample

/-- What is done with a sample, once it is known whether it meets the trigger condition. -/
def process (s : Sampler) (trigg : Bool) (v : ℚ) : Sampler :=
  let s := s.store (s.mayTrigger trigg) v
  if s.samplesAfterTrigger = nrOfFloats / 2 then s.complete else s

/-- `v` is what is measured, of the voltage or of the current. -/
def handleSamplingForDigitizer (s : Sampler) (v : ℚ) : Sampler :=
  if s.rendering then s
  else if s.bufferOverflow then s
  else
    let (trigg, waitForLower) := s.detect v
    { s with waitForLower := waitForLower }.process (trigg || s.continuous) v

end Sampler

/-- A sample is taken, or the main program has changed what it can change.  It only clears
`bufferOverflow`. -/
inductive Event
  | sample (v : ℚ)
  | panel (d : DigitizerClass) (rendering : Bool) (triggerLevel : ℚ)

def step (s : Sampler) : Event → Sampler
  | .sample v => s.handleSamplingForDigitizer v
  | .panel d rendering triggerLevel =>
      { s with
        toDigitizerClass := { d with bufferOverflow := s.bufferOverflow && d.bufferOverflow }
        rendering := rendering
        triggerLevel := triggerLevel }

/-! ## The loops of the copy -/

theorem zeroLoop_succ (d : Display) (n : ℕ) :
    d.zeroLoop (n + 1) = (d.zeroLoop n).write n ⟨0, none⟩ := by
  simp [Display.zeroLoop, List.range_succ]

theorem linearLoop_succ (ramEmulator2 : ℕ → Sample) (d : Display) (n : ℕ) :
    Display.linearLoop ramEmulator2 d (n + 1) =
      ((Display.linearLoop ramEmulator2 d n).write (n + nrOfFloats / 2)
        (ramEmulator2 n)).updateMaxMin (ramEmulator2 n).v := by
  simp [Display.linearLoop, List.range_succ]

theorem ringLoop_succ (ramEmulator : ℕ → Sample) (d : Display) (adr n : ℕ) :
    Display.ringLoop ramEmulator d adr (n + 1) =
      let (d, adr) := Display.ringLoop ramEmulator d adr n
      ((d.write (nrOfFloats / 2 - n) (ramEmulator adr)).updateMaxMin (ramEmulator adr).v,
        RingBuffer.before ringSize adr) := by
  simp [Display.ringLoop, List.range_succ, RingBuffer.before, ringSize]

@[simp] theorem clearMaxMin_writes (d : Display) : d.clearMaxMin.writes = d.writes := rfl

/-- The first loop runs one entry too far. -/
theorem mem_writes_zeroLoop (d : Display) {n x : ℕ} (hx : x < n) :
    x ∈ (d.zeroLoop n).writes := by
  induction n with
  | zero => omega
  | succ n ih =>
      rw [zeroLoop_succ]
      rcases Nat.lt_succ_iff_lt_or_eq.1 hx with hlt | rfl
      · exact List.mem_cons_of_mem _ (ih hlt)
      · exact List.mem_cons_self ..

theorem mem_writes_linearLoop (ramEmulator2 : ℕ → Sample) (d : Display) {n x : ℕ}
    (hx : x ∈ d.writes) : x ∈ (Display.linearLoop ramEmulator2 d n).writes := by
  induction n with
  | zero => exact hx
  | succ n ih =>
      rw [linearLoop_succ]
      exact List.mem_cons_of_mem _ ih

theorem mem_writes_ringLoop (ramEmulator : ℕ → Sample) (d : Display) (adr : ℕ) {n x : ℕ}
    (hx : x ∈ d.writes) : x ∈ (Display.ringLoop ramEmulator d adr n).1.writes := by
  induction n with
  | zero => exact hx
  | succ n ih =>
      rw [ringLoop_succ]
      exact List.mem_cons_of_mem _ ih

/-- After `n` rounds the linear buffer stands from the middle on. -/
theorem linearLoop_mva (ramEmulator2 : ℕ → Sample) (d : Display) (n x : ℕ) :
    (Display.linearLoop ramEmulator2 d n).mva x =
      if nrOfFloats / 2 ≤ x ∧ x < nrOfFloats / 2 + n then ramEmulator2 (x - nrOfFloats / 2)
      else d.mva x := by
  induction n with
  | zero =>
      rw [if_neg (by omega)]
      rfl
  | succ n ih =>
      rw [linearLoop_succ]
      show Function.update (Display.linearLoop ramEmulator2 d n).mva (n + nrOfFloats / 2) _ x = _
      by_cases hx : x = n + nrOfFloats / 2
      · -- the place of this round
        subst hx
        rw [Function.update_self, if_pos (by omega), Nat.add_sub_cancel]
      · rw [Function.update_of_ne hx, ih]
        refine if_congr ?_ rfl rfl
        omega

/-- After `n` rounds the last `n` samples before the trigger, the trigger itself included, stand
before the middle. -/
theorem ringLoop_mva (ramEmulator : ℕ → Sample) (d : Display) {trigger n : ℕ}
    (hn : n ≤ nrOfFloats / 2 + 1) (htrigger : nrOfFloats / 2 < trigger) :
    (Display.ringLoop ramEmulator d (trigger % ringSize) n).2 = (trigger - n) % ringSize ∧
      ∀ x, (Display.ringLoop ramEmulator d (trigger % ringSize) n).1.mva x =
        if nrOfFloats / 2 < x + n ∧ x ≤ nrOfFloats / 2 then
          ramEmulator ((trigger - (nrOfFloats / 2 - x)) % ringSize)
        else d.mva x := by
  have hring : 0 < ringSize := by decide
  induction n with
  | zero =>
      refine ⟨rfl, fun x => ?_⟩
      rw [if_neg (by omega)]
      rfl
  | succ n ih =>
      obtain ⟨hadr, hmva⟩ := ih (by omega)
      rw [ringLoop_succ]
      refine ⟨?_, fun x => ?_⟩
      · -- the address steps back as the samples do
        show RingBuffer.before ringSize
          (Display.ringLoop ramEmulator d (trigger % ringSize) n).2 = _
        rw [hadr]
        refine RingBuffer.before_of_mod hring (Nat.le_of_lt (Nat.mod_lt _ hring)) ?_
        have hprev : trigger - n = trigger - (n + 1) + 1 := by omega
        rw [Nat.mod_mod, hprev]
      · show Function.update (Display.ringLoop ramEmulator d (trigger % ringSize) n).1.mva
          (nrOfFloats / 2 - n)
          (ramEmulator (Display.ringLoop ramEmulator d (trigger % ringSize) n).2) x = _
        by_cases hx : x = nrOfFloats / 2 - n
        · -- round `n` shows the sample `n` before the trigger
          subst hx
          have hback : nrOfFloats / 2 - (nrOfFloats / 2 - n) = n := by omega
          rw [Function.update_self, hadr, if_pos (by omega), hback]
        · rw [Function.update_of_ne hx, hmva]
          refine if_congr ?_ rfl rfl
          omega

-- from here on the loops are used through these lemmas only
attribute [irreducible] Display.zeroLoop Display.linearLoop Display.ringLoop

namespace Sampler

/-- The copy fills what the first loop leaves, which ran one entry too far. -/
theorem copy_display (s : Sampler) :
    ∃ d : Display, nrOfFloats ∈ d.writes ∧ s.copyDataBufferToDisplayBuffer.display =
      (Display.ringLoop s.ramEmulator
        (Display.linearLoop s.ramEmulator2 d (nrOfFloats / 2 + 1)) s.adrAtTrigger
        (nrOfFloats / 2 + 1)).1 := by
  have hlast : nrOfFloats < nrOfFloats + 1 := Nat.lt_succ_self nrOfFloats
  have hzero := mem_writes_zeroLoop { s.display with writes := [] } hlast
  rw [← clearMaxMin_writes] at hzero
  exact ⟨_, hzero, rfl⟩

/-- What is shown around the trigger: the ring up to the middle, the linear buffer after it. -/
theorem copy_mva {s : Sampler} {trigger : ℕ} (hadr : s.adrAtTrigger = trigger % ringSize)
    (htrigger : nrOfFloats / 2 < trigger) {x : ℕ} (hx : x < nrOfFloats) :
    s.copyDataBufferToDisplayBuffer.display.mva x =
      if x ≤ nrOfFloats / 2 then s.ramEmulator ((trigger - (nrOfFloats / 2 - x)) % ringSize)
      else s.ramEmulator2 (x - nrOfFloats / 2) := by
  obtain ⟨d, -, hdisplay⟩ := s.copy_display
  have hhalf : nrOfFloats / 2 + nrOfFloats / 2 = nrOfFloats := rfl
  rw [hdisplay, hadr, (ringLoop_mva _ _ (Nat.le_refl _) htrigger).2, linearLoop_mva]
  by_cases hmiddle : x ≤ nrOfFloats / 2
  · -- the middle itself is written by both loops, by this one last
    rw [if_pos ⟨by omega, hmiddle⟩, if_pos hmiddle]
  · rw [if_neg (fun h => hmiddle h.2), if_neg hmiddle, if_pos (by omega)]

/-- The entry after the last one is written. -/
theorem copy_writes (s : Sampler) :
    nrOfFloats ∈ s.copyDataBufferToDisplayBuffer.display.writes := by
  obtain ⟨d, hd, hdisplay⟩ := s.copy_display
  rw [hdisplay]
  exact mem_writes_ringLoop _ _ _ (mem_writes_linearLoop _ _ hd)

end Sampler

/-! ## The buffers while sampling -/

/-- Where the processed samples are: the last ones in the ring, those after a trigger in the linear
buffer. -/
structure Stored (s : Sampler) : Prop where
  holds : RingBuffer.Holds ringSize (fun adr => (s.ramEmulator adr).number)
    ((List.range s.processed).map some)
  ptr : s.ramAdrPtr = s.processed % ringSize
  count : -2147483648 ≤ s.countSinceLastSample ∧ s.countSinceLastSample ≤ s.processed
  idle : s.triggered = false → s.samplesAfterTrigger = 0
  processed : s.triggered = true → s.processed = s.triggerSample + 1 + s.samplesAfterTrigger
  adr : s.triggered = true → s.adrAtTrigger = s.triggerSample % ringSize
  trigger : s.triggered = true → nrOfFloats ≤ s.triggerSample + 1
  linear : s.triggered = true → ∀ j < s.samplesAfterTrigger,
    (s.ramEmulator2 j).number = some (s.triggerSample + 1 + j)

theorem stored_start : Stored {} where
  holds := RingBuffer.holds_nil _
  ptr := rfl
  count := by decide
  idle := fun _ => rfl
  processed := fun h => absurd h Bool.false_ne_true
  adr := fun h => absurd h Bool.false_ne_true
  trigger := fun h => absurd h Bool.false_ne_true
  linear := fun h => absurd h Bool.false_ne_true

section Stored

variable {s : Sampler} {sample : Sample}

/-- The next slot of the ring. -/
theorem Stored.next_ptr (h : Stored s) :
    (if s.ramAdrPtr + 1 > nrOfFloats then 0 else s.ramAdrPtr + 1) =
      (s.processed + 1) % ringSize := by
  have hptr := h.ptr
  by_cases hend : s.ramAdrPtr + 1 > nrOfFloats
  · rw [if_pos hend]
    simp only [ringSize, nrOfFloats] at hptr hend ⊢
    omega
  · rw [if_neg hend]
    simp only [ringSize, nrOfFloats] at hptr hend ⊢
    omega

theorem Stored.holds_record (h : Stored s) (hnumber : sample.number = some s.processed) :
    RingBuffer.Holds ringSize
      (fun adr => (Function.update s.ramEmulator s.ramAdrPtr sample adr).number)
      ((List.range (s.processed + 1)).map some) := by
  have hpush := h.holds.push (some s.processed)
  have hnumbers : (fun adr => (Function.update s.ramEmulator s.ramAdrPtr sample adr).number) =
      Function.update (fun adr => (s.ramEmulator adr).number) s.ramAdrPtr (some s.processed) := by
    funext adr
    -- taking the number commutes with storing the sample
    by_cases hadr : adr = s.ramAdrPtr
    · rw [hadr, Function.update_self, Function.update_self, hnumber]
    · rw [Function.update_of_ne hadr, Function.update_of_ne hadr]
  rw [hnumbers, h.ptr, List.range_succ, List.map_append]
  simpa using hpush

/-- A sample is stored, and is the trigger when it may be. -/
theorem Stored.record_follow (h : Stored s) {trigg : Bool} {count : ℤ}
    (hnumber : sample.number = some s.processed)
    (hcount : -2147483648 ≤ count ∧ count ≤ s.processed + 1)
    (htrigg : trigg = true → nrOfFloats ≤ s.processed + 1) :
    Stored (({ s with countSinceLastSample := count }.follow trigg sample).record sample) := by
  have hring := h.holds_record hnumber
  have hnext := h.next_ptr
  cases htriggered : s.triggered with
  | true =>
      -- one more sample after the trigger
      have hprocessed := h.processed htriggered
      simp only [Sampler.follow, if_true]
      refine ⟨hring, hnext, ?_, ?_, ?_, ?_, ?_, ?_⟩
      · exact hcount
      · exact fun hnot => absurd hnot (by simp [Sampler.record])
      · intro _
        show s.processed + 1 = s.triggerSample + 1 + (s.samplesAfterTrigger + 1)
        omega
      · exact fun _ => h.adr htriggered
      · exact fun _ => h.trigger htriggered
      · intro _ j hj
        show (Function.update s.ramEmulator2 s.samplesAfterTrigger sample j).number =
          some (s.triggerSample + 1 + j)
        rcases Nat.lt_succ_iff_lt_or_eq.1 hj with hlt | rfl
        · rw [Function.update_of_ne (Nat.ne_of_lt hlt)]
          exact h.linear htriggered j hlt
        · rw [Function.update_self, hnumber, hprocessed]
  | false =>
      have hidle := h.idle htriggered
      cases htr : trigg with
      | true =>
          -- the trigger itself
          simp only [Sampler.follow, Bool.false_eq_true, if_false, if_true]
          refine ⟨hring, hnext, hcount, ?_, ?_, ?_, ?_, ?_⟩
          · exact fun hnot => absurd hnot (by simp [Sampler.record])
          · intro _
            show s.processed + 1 = s.processed + 1 + s.samplesAfterTrigger
            rw [hidle]
          · exact fun _ => h.ptr
          · exact fun _ => htrigg htr
          · intro _ j hj
            have hnone : j < s.samplesAfterTrigger := hj
            omega
      | false =>
          simp only [Sampler.follow, Bool.false_eq_true, if_false]
          refine ⟨hring, hnext, hcount, fun _ => hidle, ?_, ?_, ?_, ?_⟩
          all_goals exact fun htrue => absurd htrue (by simp [Sampler.record])

end Stored

/-- What a completed capture shows: the trigger in the middle with the samples before it, and after
it the samples from the second one on. -/
structure Shows (s : Sampler) : Prop where
  trigger : nrOfFloats ≤ s.triggerSample + 1
  before : ∀ x ≤ nrOfFloats / 2,
    (s.display.mva x).number = some (s.triggerSample - (nrOfFloats / 2 - x))
  after : ∀ x < nrOfFloats, nrOfFloats / 2 < x →
    (s.display.mva x).number = some (s.triggerSample + 1 + (x - nrOfFloats / 2))
  writes : nrOfFloats ∈ s.display.writes

/-- The invariant of sampling. -/
structure Sampled (s : Sampler) : Prop extends Stored s where
  room : s.samplesAfterTrigger < nrOfFloats / 2
  shows : s.bufferOverflow = true → Shows s

section Process

variable {s : Sampler}

theorem Stored.complete (h : Stored s) (htriggered : s.triggered = true)
    (hfull : s.samplesAfterTrigger = nrOfFloats / 2) : Sampled s.complete := by
  have hprocessed := h.processed htriggered
  have htrigger := h.trigger htriggered
  have hadr := h.adr htriggered
  have hhalf : nrOfFloats / 2 + nrOfFloats / 2 = nrOfFloats := rfl
  have hring : ringSize = nrOfFloats + 1 := rfl
  have hmany : 1 < nrOfFloats / 2 := by decide
  have hmva : ∀ x < nrOfFloats, s.complete.display.mva x =
      if x ≤ nrOfFloats / 2 then
        s.ramEmulator ((s.triggerSample - (nrOfFloats / 2 - x)) % ringSize)
      else s.ramEmulator2 (x - nrOfFloats / 2) :=
    fun x hx => Sampler.copy_mva (s := s.overflow) hadr (by omega) hx
  have hidle : s.complete.triggered ≠ true := Bool.false_ne_true
  have hcount : (-2147483648 : ℤ) ≤ 0 ∧ (0 : ℤ) ≤ s.processed := by omega
  refine ⟨⟨h.holds, h.ptr, hcount, fun _ => rfl, ?_, ?_, ?_, ?_⟩, ?_,
    fun _ => ⟨htrigger, fun x hx => ?_, fun x hx hmiddle => ?_, Sampler.copy_writes _⟩⟩
  · exact fun htrue => absurd htrue hidle
  · exact fun htrue => absurd htrue hidle
  · exact fun htrue => absurd htrue hidle
  · exact fun htrue => absurd htrue hidle
  · exact Nat.lt_trans Nat.zero_lt_one hmany
  · -- the ring still holds the samples before the trigger
    rw [hmva x (by omega), if_pos hx]
    have hlength : ((List.range s.processed).map some).length = s.processed := by simp
    have hslot := h.holds (s.triggerSample - (nrOfFloats / 2 - x)) (by omega) (by omega)
    rw [List.getElem_map, List.getElem_range] at hslot
    exact hslot
  · -- place 0 of the linear buffer, the sample after the trigger, would be shown at the middle
    rw [hmva x hx, if_neg (by omega)]
    exact h.linear htriggered (x - nrOfFloats / 2) (by omega)

/-- The counter of samples may start again from below, but never runs ahead. -/
theorem wrap32_succ {n : ℤ} (hn : -2147483648 ≤ n) :
    -2147483648 ≤ wrap32 (n + 1) ∧ wrap32 (n + 1) ≤ n + 1 := by
  unfold wrap32
  omega

theorem Stored.store (h : Stored s) (trigg : Bool) (v : ℚ) :
    Stored (s.store (s.mayTrigger trigg) v) := by
  obtain ⟨hlow, hup⟩ := h.count
  obtain ⟨hlow', hup'⟩ := wrap32_succ hlow
  refine h.record_follow rfl ⟨hlow', by omega⟩ fun htrue => ?_
  simp only [Sampler.mayTrigger, Bool.and_eq_true, Bool.not_eq_true',
    decide_eq_false_iff_not] at htrue
  omega

/-- What storing a sample leaves alone, and how it counts after a trigger. -/
theorem store_eq (s : Sampler) (trigg : Bool) (v : ℚ) :
    (s.store trigg v).bufferOverflow = s.bufferOverflow ∧
      (s.store trigg v).triggered = (s.triggered || trigg) ∧
      (s.store trigg v).samplesAfterTrigger =
        if s.triggered then s.samplesAfterTrigger + 1 else s.samplesAfterTrigger := by
  unfold Sampler.store Sampler.follow
  dsimp only
  cases s.triggered <;> cases trigg <;> exact ⟨rfl, rfl, rfl⟩

/-- A sample takes the last place of the linear buffer. -/
def IsLast (s : Sampler) : Prop :=
  s.triggered = true ∧ s.samplesAfterTrigger + 1 = nrOfFloats / 2

theorem Sampled.isLast_iff (h : Sampled s) (trigg : Bool) (v : ℚ) :
    (s.store trigg v).samplesAfterTrigger = nrOfFloats / 2 ↔ IsLast s := by
  obtain ⟨-, -, hafter⟩ := store_eq s trigg v
  have hroom := h.room
  rw [hafter, IsLast]
  cases htriggered : s.triggered
  · have hnot : s.samplesAfterTrigger ≠ nrOfFloats / 2 := Nat.ne_of_lt hroom
    simp [hnot]
  · simp

/-- One sample keeps the invariant, and ends the capture exactly when it is the last one. -/
theorem Sampled.process (h : Sampled s) (hrun : s.bufferOverflow = false) (trigg : Bool) (v : ℚ) :
    Sampled (s.process trigg v) ∧ ((s.process trigg v).bufferOverflow = true ↔ IsLast s) := by
  have hstored := h.toStored.store trigg v
  have hlast := h.isLast_iff (s.mayTrigger trigg) v
  obtain ⟨hoverflow, htriggered, hafter⟩ := store_eq s (s.mayTrigger trigg) v
  unfold Sampler.process
  dsimp only
  by_cases hend : IsLast s
  · -- the buffers are complete before they are copied
    rw [if_pos (hlast.2 hend)]
    refine ⟨hstored.complete ?_ (hlast.2 hend), iff_of_true rfl hend⟩
    rw [htriggered, hend.1, Bool.true_or]
  · rw [if_neg (fun hfull => hend (hlast.1 hfull)), hoverflow, hrun]
    refine ⟨⟨hstored, ?_, fun htrue => ?_⟩, by simp [hend]⟩
    · have hroom := h.room
      have hne : (s.store (s.mayTrigger trigg) v).samplesAfterTrigger ≠ nrOfFloats / 2 :=
        fun hfull => hend (hlast.1 hfull)
      split_ifs at hafter <;> omega
    · rw [hoverflow, hrun] at htrue
      exact absurd htrue Bool.false_ne_true

end Process

/-! ## Runs -/

/-- The event is a sample that completes a capture. -/
def Completes (s : Sampler) : Event → Prop
  | .sample _ => s.rendering = false ∧ s.bufferOverflow = false ∧ IsLast s
  | .panel _ _ _ => False

/-- A sample that is not looked at changes nothing. -/
theorem handleSampling_skip {s : Sampler} (h : s.rendering = true ∨ s.bufferOverflow = true)
    (v : ℚ) : s.handleSamplingForDigitizer v = s := by
  unfold Sampler.handleSamplingForDigitizer
  rcases h with hrendering | hoverflow
  · rw [if_pos hrendering]
  · rw [if_pos hoverflow, ite_self]

theorem handleSampling_process {s : Sampler} (hrendering : s.rendering = false)
    (hoverflow : s.bufferOverflow = false) (v : ℚ) :
    s.handleSamplingForDigitizer v =
      Sampler.process { s with waitForLower := (s.detect v).2 }
        ((s.detect v).1 || s.continuous) v := by
  unfold Sampler.handleSamplingForDigitizer
  rw [if_neg (by simp [hrendering]), if_neg (by simp [hoverflow])]

theorem Sampled.waitForLower {s : Sampler} (h : Sampled s) (waitForLower : Bool) :
    Sampled { s with waitForLower := waitForLower } :=
  { h with shows := fun htrue => { h.shows htrue with } }

theorem Sampled.step {s : Sampler} (h : Sampled s) (e : Event) : Sampled (step s e) := by
  cases e with
  | sample v =>
      show Sampled (s.handleSamplingForDigitizer v)
      cases hrendering : s.rendering with
      | true =>
          rw [handleSampling_skip (Or.inl hrendering)]
          exact h
      | false =>
          cases hoverflow : s.bufferOverflow with
          | true =>
              rw [handleSampling_skip (Or.inr hoverflow)]
              exact h
          | false =>
              have hs := h.waitForLower (s.detect v).2
              rw [handleSampling_process hrendering hoverflow]
              exact (hs.process hoverflow _ v).1
  | panel d rendering triggerLevel =>
      have hshows : (s.bufferOverflow && d.bufferOverflow) = true → Shows s := fun htrue =>
        h.shows (Bool.and_eq_true_iff.1 htrue).1
      exact { h with shows := fun htrue => { hshows htrue with } }

/-- `bufferOverflow` is set by the samples that complete a capture. -/
theorem Sampled.overflow_iff {s : Sampler} (h : Sampled s) (hrun : s.bufferOverflow = false)
    (e : Event) : (Capture.step s e).bufferOverflow = true ↔ Completes s e := by
  cases e with
  | sample v =>
      show (s.handleSamplingForDigitizer v).bufferOverflow = true ↔ _
      cases hrendering : s.rendering with
      | true =>
          rw [handleSampling_skip (Or.inl hrendering), hrun]
          simp [Completes, hrendering]
      | false =>
          have hs := h.waitForLower (s.detect v).2
          rw [handleSampling_process hrendering hrun, (hs.process hrun _ v).2]
          simp only [Completes, hrendering, hrun, true_and]
          rfl
  | panel d rendering triggerLevel =>
      show (s.bufferOverflow && d.bufferOverflow) = true ↔ False
      simp [hrun]

theorem sampled_start : Sampled {} :=
  { stored_start with
    room := by decide
    shows := fun h => absurd h Bool.false_ne_true }

/-- In every run, whenever a capture is completed, the display shows the trigger and the samples
before it, but after it the samples from the second one on, and one entry too many is written. -/
theorem completed_shows (es : List Event) (h : (Run.exec step {} es).bufferOverflow = true) :
    Shows (Run.exec step {} es) :=
  (Run.always_of_step (fun _ e hs => hs.step e) sampled_start es).exec.shows h

/-- What the display should hold when `bufferOverflow` is set: samples that follow one another, the
trigger among them, and nothing written outside. -/
def Displayed (s : Sampler) : Prop :=
  s.bufferOverflow = true →
    (∃ first ≤ s.triggerSample, s.triggerSample < first + nrOfFloats ∧
      ∀ x < nrOfFloats, (s.display.mva x).number = some (first + x)) ∧
    ∀ x ∈ s.display.writes, x < nrOfFloats

/-- The sample after the trigger is missing. -/
theorem Shows.not_consecutive {s : Sampler} (h : Shows s) :
    ¬ ∃ first, ∀ x < nrOfFloats, (s.display.mva x).number = some (first + x) := by
  rintro ⟨first, hall⟩
  have hmiddle := (hall (nrOfFloats / 2) (by decide)).symm.trans (h.before _ (Nat.le_refl _))
  have hnext := (hall (nrOfFloats / 2 + 1) (by decide)).symm.trans
    (h.after _ (by decide) (Nat.lt_succ_self _))
  simp only [Option.some.injEq] at hmiddle hnext
  omega

theorem Shows.not_inside {s : Sampler} (h : Shows s) : ¬ ∀ x ∈ s.display.writes, x < nrOfFloats :=
  fun hall => absurd (hall _ h.writes) (Nat.lt_irrefl _)

/-- The display is as it should be in exactly those runs in which no capture is completed. -/
theorem always_displayed_iff (es : List Event) :
    Run.Always step Displayed {} es ↔ Run.Guarded step (fun s e => ¬ Completes s e) {} es := by
  refine Run.always_iff_guarded (I := fun s => Sampled s ∧ s.bufferOverflow = false) ?_ ?_ ?_
    ⟨sampled_start, rfl⟩ es
  · exact fun s hs htrue => absurd (hs.2.symm.trans htrue) Bool.false_ne_true
  · intro s e hs hok
    refine ⟨hs.1.step e, ?_⟩
    rw [← Bool.not_eq_true, hs.1.overflow_iff hs.2]
    exact hok
  · intro s e hs hbad hdisplayed
    have hoverflow := (hs.1.overflow_iff hs.2 e).2 (not_not.1 hbad)
    have hshows := (hs.1.step e).shows hoverflow
    exact hshows.not_inside (hdisplayed hoverflow).2

/-- Sampled continuously, a steady voltage gives a capture every 600 samples. -/
def steady : List Event := List.replicate 600 (.sample 0)

theorem steady_completes : (Run.exec step {} steady).bufferOverflow = true := by
  decide +kernel

theorem not_always_displayed : ¬ ∀ es : List Event, Run.Always step Displayed {} es := by
  intro hall
  have hdisplayed := (hall steady).exec steady_completes
  exact (completed_shows steady steady_completes).not_inside hdisplayed.2

end Capture
end PoorMansSmu
