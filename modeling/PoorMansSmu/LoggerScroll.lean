import PoorMansSmu.Logger

/-!
# LoggerScroll — moving the view over the log

Every sample that is logged also moves the view: in zoom mode to the newest record, in scroll mode by
what the knob was turned since the sample before.  `scrollAddress` is unsigned, and the only check
made on it is that the view has not passed the newest record.

The result is that the view stays on the log exactly as long as no turn takes it back by more than
the write address, that is, past slot 0 (`always_onLog_iff`).
-/

namespace PoorMansSmu
namespace Logger

def waitLogStart : ℕ := 5000

/-! ## The program -/

namespace LoggerClass

def updateViewData (l : LoggerClass) (samplesPr : ℤ) : LoggerClass :=
  let (viewBuffer, l) :=
    l.getLastSamples l.viewBuffer MAX_SAMPLES_IN_DISPLAY_BUFFER samplesPr.toNat
  { l with viewBuffer := viewBuffer, noViewBuffer := false }

/-- The scaling option of `registerValue2`. -/
def zoomView (l : LoggerClass) : LoggerClass :=
  let l := { l with scrollAddress := l.address }
  if l.oldRot ≠ l.rotary then { l.updateViewData l.samplesPrViewPoint with oldRot := l.rotary }
  else { l with samplesPrViewPoint := l.rotary }

/-- Where a turn of the knob puts the view, before the check. -/
def scrollTarget (l : LoggerClass) : ℤ :=
  if l.autoScrolling then l.address - l.scrollRotary
  else l.scrollAddress - (l.scrollRotary - l.oldRot)

def followNewest (l : LoggerClass) : LoggerClass :=
  if l.autoScrolling then { l with scrollAddress := l.address } else l

def turnView (l : LoggerClass) : LoggerClass :=
  let scrollAddress := uint32 l.scrollTarget
  let future := wrap32 (wrap32 l.address - wrap32 scrollAddress) ≤ 0
  -- at the latest sample: follow it again
  if future then
    { l with autoScrolling := true, scrollRotary := 0, scrollAddress := l.address, oldRot := 0 }
  else { l with autoScrolling := false, scrollAddress := scrollAddress, oldRot := l.scrollRotary }

/-- The manual scroll option of `registerValue2`. -/
def scrollView (l : LoggerClass) : LoggerClass :=
  let l := l.followNewest
  if l.oldRot ≠ l.scrollRotary then l.turnView else l

def moveView (l : LoggerClass) : LoggerClass :=
  if l.encButtonScroll then l.scrollView else l.zoomView

/-- The view is updated once for every `samplesPrViewPoint` samples. -/
def refreshView (l : LoggerClass) : LoggerClass :=
  if l.totalSamplesCounted.tmod l.samplesPrViewPoint = 0 then
    l.updateViewData l.samplesPrViewPoint
  else l

def registerValue2 (l : LoggerClass) (value : ℚ) (millis : ℕ) : LoggerClass :=
  if l.notAvailable then l
  else if millis < waitLogStart then l
  else (l.registerValue ⟨value, millis⟩).moveView.refreshView

def rotaryChangedFn (l : LoggerClass) (changeVal : ℚ) : LoggerClass :=
  if l.encButtonScroll then
    let changeVal := if changeVal > 10 then 10 else changeVal
    { l with scrollRotary := toInt (l.scrollRotary + changeVal * 10) }
  else
    let rotary := toInt (l.rotary + changeVal * 10)
    { l with rotary := if rotary ≤ 1 then 1 else rotary }

/-- The button in the knob; what kind of press it was does not matter. -/
def rotarySwitchFn (l : LoggerClass) : LoggerClass :=
  { l with encButtonScroll := !l.encButtonScroll, encButtonZoom := l.encButtonScroll }

end LoggerClass

inductive Event
  | registerValue2 (value : ℚ) (millis : ℕ)
  | rotaryChangedFn (changeVal : ℚ)
  | rotarySwitchFn

def step (l : LoggerClass) : Event → LoggerClass
  | .registerValue2 value millis => l.registerValue2 value millis
  | .rotaryChangedFn changeVal => l.rotaryChangedFn changeVal
  | .rotarySwitchFn => l.rotarySwitchFn

/-- The logger after power-up, with whatever the external RAM holds. -/
def start (memory : ℕ → LogDataWithTimeStamp) (size : ℕ) : LoggerClass :=
  LoggerClass.init { adrP := memory } size

/-- The view starts on the ring, and everything read so far had been written. -/
def OnLog (l : LoggerClass) : Prop :=
  l.scrollAddress ≤ maxSize ∧ ∀ adr ∈ l.reads, adr < maxSize ∧ adr ∈ l.writes

/-! ## What a view reads -/

/-- Where the next record leaves the write address. -/
def LoggerClass.nextAddress (l : LoggerClass) : ℕ :=
  (if l.address ≥ maxSize then 0 else l.address) + 1

theorem registerValue_eq (l : LoggerClass) (logData : LogDataWithTimeStamp) :
    ∃ minimum maximum, l.registerValue logData =
      { l.makeRoom.store logData with minimum := minimum, maximum := maximum } :=
  trackExtremes_eq (l.makeRoom.store logData) logData

/-- A new record does not touch the knob. -/
theorem registerValue_knob (l : LoggerClass) (logData : LogDataWithTimeStamp) :
    (l.registerValue logData).encButtonScroll = l.encButtonScroll ∧
      (l.registerValue logData).oldRot = l.oldRot ∧
      (l.registerValue logData).scrollRotary = l.scrollRotary := by
  obtain ⟨minimum, maximum, heq⟩ := registerValue_eq l logData
  rw [heq]
  exact ⟨rfl, rfl, rfl⟩

section Reading

variable {recs : List LogDataWithTimeStamp} {l : LoggerClass} {w : View}

theorem Registered.registerValue_address (h : Registered recs l) (logData : LogDataWithTimeStamp) :
    (l.registerValue logData).address = l.nextAddress := by
  obtain ⟨minimum, maximum, heq⟩ := registerValue_eq l logData
  rw [heq]
  simp [LoggerClass.store, LoggerClass.makeRoom, LoggerClass.nextAddress, h.empty]

/-- A walk that stands on the log and has met written slots only. -/
structure Reading (recs : List LogDataWithTimeStamp) (w : View) : Prop where
  stands : w.lastSampleAdr ≤ min recs.length maxSize
  reads : ∀ adr ∈ w.reads, adr < min recs.length maxSize

theorem Reading.fetch (h : Reading recs w) (hl : Registered recs l) (hpos : 1 ≤ recs.length)
    (i : ℕ) : Reading recs (l.fetch i w) := by
  have hstands := h.stands
  have hmax := maxSize_pos
  have hfull := hl.full
  have hnext : (l.fetch i w).lastSampleAdr < min recs.length maxSize ∧
      (l.fetch i w).reads = (l.fetch i w).lastSampleAdr :: w.reads := by
    unfold LoggerClass.fetch
    by_cases hzero : w.lastSampleAdr = 0
    · cases hfl : l.full with
      | true =>
          have := hfull.1 hfl
          simp only [hzero, and_self, if_true, and_true]
          omega
      | false =>
          simp only [hzero, Bool.false_eq_true, and_false, Bool.not_false, and_self, if_true,
            if_false, and_true]
          omega
    · simp only [hzero, false_and, if_false, and_true]
      omega
  obtain ⟨hlt, hreads⟩ := hnext
  refine ⟨hlt.le, ?_⟩
  rw [hreads]
  exact List.forall_mem_cons.2 ⟨hlt, h.reads⟩

theorem Reading.iterate (h : Reading recs w) (hl : Registered recs l) (hpos : 1 ≤ recs.length)
    (i p : ℕ) : Reading recs ((l.fetch i)^[p] w) := by
  induction p with
  | zero => exact h
  | succ p ih =>
      rw [Function.iterate_succ_apply']
      exact ih.fetch hl hpos i

theorem Reading.fillEntry (h : Reading recs w) (hl : Registered recs l) (hpos : 1 ≤ recs.length)
    (samplesPr i : ℕ) : Reading recs (l.fillEntry samplesPr w i) := by
  have hstart : Reading recs { w with mean := 0 } := ⟨h.stands, h.reads⟩
  obtain ⟨hstands, hreads⟩ := hstart.iterate hl hpos i samplesPr
  unfold LoggerClass.fillEntry
  dsimp only
  split
  · exact ⟨hstands, hreads⟩
  · exact ⟨hstands, hreads⟩

theorem Reading.foldl (h : Reading recs w) (hl : Registered recs l) (hpos : 1 ≤ recs.length)
    (samplesPr : ℕ) (entries : List ℕ) :
    Reading recs (entries.foldl (l.fillEntry samplesPr) w) := by
  induction entries generalizing w with
  | nil => exact h
  | cons i entries ih => exact ih (h.fillEntry hl hpos samplesPr i)

/-- The logger with a view that starts on the log, and with written slots read only. -/
structure Inside (recs : List LogDataWithTimeStamp) (l : LoggerClass) : Prop
    extends Registered recs l where
  scroll : l.scrollAddress ≤ min recs.length maxSize
  reads : ∀ adr ∈ l.reads, adr < min recs.length maxSize

theorem Inside.onLog (h : Inside recs l) : OnLog l := by
  have hscroll := h.scroll
  refine ⟨by omega, fun adr hadr => ?_⟩
  have hlt := h.reads adr hadr
  exact ⟨by omega, h.written adr hlt⟩

/-- However many samples make an entry, updating the view reads written slots. -/
theorem Inside.updateViewData (h : Inside recs l) (hpos : 1 ≤ recs.length) (samplesPr : ℤ) :
    Inside recs (l.updateViewData samplesPr) := by
  have hstart : Reading recs { lastSampleAdr := l.scrollAddress, buffer := l.viewBuffer } :=
    ⟨h.scroll, fun adr hadr => absurd hadr List.not_mem_nil⟩
  have hreading := hstart.foldl h.toRegistered hpos samplesPr.toNat
    (List.range MAX_SAMPLES_IN_DISPLAY_BUFFER)
  refine { h with reads := fun adr hadr => ?_ }
  rcases List.mem_append.1 hadr with hnew | hold
  · exact hreading.reads adr hnew
  · exact h.reads adr hold

/-- A new record leaves the view where it is. -/
theorem Inside.registerValue (h : Inside recs l) (logData : LogDataWithTimeStamp) :
    Inside (recs ++ [logData]) (l.registerValue logData) := by
  obtain ⟨minimum, maximum, heq⟩ := registerValue_eq l logData
  have hlength : (recs ++ [logData]).length = recs.length + 1 := by simp
  have hscroll := h.scroll
  refine ⟨h.toRegistered.registerValue logData, ?_, ?_⟩
  · rw [heq, hlength]
    show l.scrollAddress ≤ _
    omega
  · rw [heq, hlength]
    intro adr hadr
    have := h.reads adr hadr
    omega

end Reading

/-! ## Where a turn puts the view -/

theorem wrap32_uint32 (address : ℕ) (target : ℤ) :
    wrap32 (wrap32 address - wrap32 (uint32 target)) = wrap32 (address - target) := by
  unfold wrap32 uint32
  omega

/-- The view after a turn: the new place, or the newest record when that is not before it. -/
theorem turnView_scrollAddress (l : LoggerClass) :
    l.turnView.scrollAddress =
      if wrap32 (l.address - l.scrollTarget) ≤ 0 then l.address else uint32 l.scrollTarget := by
  have hfuture := wrap32_uint32 l.address l.scrollTarget
  simp only [LoggerClass.turnView, hfuture]
  split
  · rfl
  · rfl

/-- A turn that goes back by no more than the write address stays on the log. -/
theorem turnView_le {l : LoggerClass} (hback : wrap32 (l.address - l.scrollTarget) ≤ l.address) :
    l.turnView.scrollAddress ≤ l.address := by
  rw [turnView_scrollAddress]
  by_cases hfuture : wrap32 (l.address - l.scrollTarget) ≤ 0
  · -- the view follows the newest record again
    rw [if_pos hfuture]
  · rw [if_neg hfuture]
    unfold wrap32 at hback hfuture
    unfold uint32
    omega

/-- Any other turn puts the view far beyond the ring. -/
theorem turnView_gt {l : LoggerClass} (hback : ¬ wrap32 (l.address - l.scrollTarget) ≤ l.address) :
    maxSize < l.turnView.scrollAddress := by
  rw [turnView_scrollAddress, if_neg (by omega)]
  -- back by more than the write address, and by less than half of the 32 bit range
  unfold wrap32 at hback
  unfold uint32 maxSize
  omega

/-- A turn changes nothing but the scroll state. -/
theorem turnView_eq (l : LoggerClass) :
    ∃ scrollAddress autoScrolling scrollRotary oldRot, l.turnView =
      { l with
        scrollAddress := scrollAddress
        autoScrolling := autoScrolling
        scrollRotary := scrollRotary
        oldRot := oldRot } := by
  unfold LoggerClass.turnView
  dsimp only
  split
  · exact ⟨_, _, _, _, rfl⟩
  · exact ⟨_, _, _, _, rfl⟩

theorem followNewest_eq (l : LoggerClass) :
    l.followNewest =
      { l with scrollAddress := if l.autoScrolling then l.address else l.scrollAddress } := by
  unfold LoggerClass.followNewest
  split <;> rfl

@[simp] theorem followNewest_oldRot (l : LoggerClass) : l.followNewest.oldRot = l.oldRot := by
  rw [followNewest_eq]

@[simp] theorem followNewest_scrollRotary (l : LoggerClass) :
    l.followNewest.scrollRotary = l.scrollRotary := by
  rw [followNewest_eq]

@[simp] theorem followNewest_address (l : LoggerClass) : l.followNewest.address = l.address := by
  rw [followNewest_eq]

@[simp] theorem followNewest_scrollTarget (l : LoggerClass) :
    l.followNewest.scrollTarget = l.scrollTarget := by
  rw [followNewest_eq]
  unfold LoggerClass.scrollTarget
  cases l.autoScrolling <;> rfl

theorem scrollView_of_still {l : LoggerClass} (h : l.oldRot = l.scrollRotary) :
    l.scrollView = l.followNewest := by
  simp only [LoggerClass.scrollView, followNewest_oldRot, followNewest_scrollRotary,
    if_neg (not_not_intro h)]

theorem scrollView_of_turn {l : LoggerClass} (h : l.oldRot ≠ l.scrollRotary) :
    l.scrollView = l.followNewest.turnView := by
  simp only [LoggerClass.scrollView, followNewest_oldRot, followNewest_scrollRotary, if_pos h]

section Stays

variable {recs : List LogDataWithTimeStamp} {l : LoggerClass}

theorem Registered.address_le_min (h : Registered recs l) :
    l.address ≤ min recs.length maxSize := by
  have hle := h.address_le
  have hearly := h.address_early
  omega

theorem Inside.followNewest (h : Inside recs l) : Inside recs l.followNewest := by
  have haddress := h.address_le_min
  have hscroll := h.scroll
  rw [followNewest_eq]
  refine { h with scroll := ?_ }
  dsimp only
  split
  · exact haddress
  · exact hscroll

theorem Inside.turnView (h : Inside recs l)
    (hback : wrap32 (l.address - l.scrollTarget) ≤ l.address) : Inside recs l.turnView := by
  obtain ⟨scrollAddress, autoScrolling, scrollRotary, oldRot, heq⟩ := turnView_eq l
  have hle := (turnView_le hback).trans h.address_le_min
  rw [heq] at hle ⊢
  exact { h with scroll := hle }

theorem Inside.scrollView (h : Inside recs l)
    (hback : l.oldRot = l.scrollRotary ∨ wrap32 (l.address - l.scrollTarget) ≤ l.address) :
    Inside recs l.scrollView := by
  by_cases hstill : l.oldRot = l.scrollRotary
  · rw [scrollView_of_still hstill]
    exact h.followNewest
  · rw [scrollView_of_turn hstill]
    refine h.followNewest.turnView ?_
    rw [followNewest_address, followNewest_scrollTarget]
    exact hback.resolve_left hstill

/-- In zoom mode the view follows the newest record. -/
theorem Inside.zoomView (h : Inside recs l) (hpos : 1 ≤ recs.length) : Inside recs l.zoomView := by
  have hnewest : Inside recs { l with scrollAddress := l.address } :=
    { h with scroll := h.address_le_min }
  unfold LoggerClass.zoomView
  dsimp only
  split
  · exact { hnewest.updateViewData hpos l.samplesPrViewPoint with }
  · exact { hnewest with }

end Stays

/-! ## Runs -/

/-- How far the turn that the next sample finds takes the view back from the newest record, as the
program computes it. -/
def LoggerClass.turnedBack (l : LoggerClass) : ℤ :=
  wrap32 (if l.autoScrolling then l.scrollRotary
    else l.nextAddress - (l.scrollAddress - (l.scrollRotary - l.oldRot)))

/-- A sample that finds the knob turned in scroll mode does not find it turned back past slot 0. -/
def TurnStays (l : LoggerClass) : Event → Prop
  | .registerValue2 _ millis =>
      l.notAvailable = true ∨ millis < waitLogStart ∨ l.encButtonScroll = false ∨
        l.oldRot = l.scrollRotary ∨ l.turnedBack ≤ l.nextAddress
  | .rotaryChangedFn _ => True
  | .rotarySwitchFn => True

/-- The invariant: without external RAM nothing is stored, with it the view is inside. -/
def Steady (l : LoggerClass) : Prop :=
  (l.notAvailable = true ∧ OnLog l) ∨ ∃ recs, Inside recs l

theorem Steady.onLog {l : LoggerClass} (h : Steady l) : OnLog l := by
  rcases h with ⟨-, honlog⟩ | ⟨recs, hinside⟩
  · exact honlog
  · exact hinside.onLog

theorem steady_start (memory : ℕ → LogDataWithTimeStamp) (size : ℕ) :
    Steady (start memory size) := by
  unfold start LoggerClass.init
  by_cases hsize : size = 0
  · rw [if_pos hsize]
    exact Or.inl ⟨rfl, Nat.zero_le _, fun adr hadr => absurd hadr List.not_mem_nil⟩
  · rw [if_neg hsize]
    refine Or.inr ⟨[], registered_clear _, Nat.zero_le _, fun adr hadr => ?_⟩
    exact absurd hadr List.not_mem_nil

/-- The turn as the logger sees it once the record is stored. -/
theorem Registered.turnedBack_eq {recs : List LogDataWithTimeStamp} {l : LoggerClass}
    (h : Registered recs l) (logData : LogDataWithTimeStamp) :
    wrap32 ((l.registerValue logData).address - (l.registerValue logData).scrollTarget) =
      l.turnedBack := by
  have haddress := h.registerValue_address logData
  obtain ⟨minimum, maximum, heq⟩ := registerValue_eq l logData
  have htarget : (l.registerValue logData).scrollTarget =
      if l.autoScrolling then (l.registerValue logData).address - l.scrollRotary
      else l.scrollAddress - (l.scrollRotary - l.oldRot) := by
    rw [heq]
    rfl
  rw [htarget, haddress, LoggerClass.turnedBack]
  cases l.autoScrolling
  · rfl
  · simp

theorem Inside.refreshView {recs : List LogDataWithTimeStamp} {l : LoggerClass}
    (h : Inside recs l) (hpos : 1 ≤ recs.length) : Inside recs l.refreshView := by
  unfold LoggerClass.refreshView
  split
  · exact h.updateViewData hpos _
  · exact h

theorem refreshView_scrollAddress (l : LoggerClass) :
    l.refreshView.scrollAddress = l.scrollAddress := by
  unfold LoggerClass.refreshView
  split <;> rfl

/-- A sample that finds no turn past slot 0 leaves the view inside. -/
theorem Inside.registerValue2 {recs : List LogDataWithTimeStamp} {l : LoggerClass}
    (h : Inside recs l) {value : ℚ} {millis : ℕ}
    (hok : TurnStays l (.registerValue2 value millis)) :
    ∃ recs', Inside recs' (l.registerValue2 value millis) := by
  unfold LoggerClass.registerValue2
  split_ifs with hnot hwait
  · exact ⟨recs, h⟩
  · exact ⟨recs, h⟩
  · -- with the new record stored there is one, so every slot the view can start from is written
    have hstored := h.registerValue ⟨value, millis⟩
    have hpos : 1 ≤ (recs ++ [(⟨value, millis⟩ : LogDataWithTimeStamp)]).length := by simp
    have hback := h.toRegistered.turnedBack_eq ⟨value, millis⟩
    have haddress := h.toRegistered.registerValue_address ⟨value, millis⟩
    obtain ⟨hmode, hold, hrot⟩ := registerValue_knob l ⟨value, millis⟩
    refine ⟨_, Inside.refreshView ?_ hpos⟩
    unfold LoggerClass.moveView
    rw [hmode]
    cases hscroll : l.encButtonScroll
    · exact hstored.zoomView hpos
    · refine hstored.scrollView ?_
      rw [hback, haddress, hold, hrot]
      -- of the ways to meet the condition, only the last two are left for a sample that is logged
      rcases hok with hbad | hbad | hbad | hstay
      · exact absurd hbad hnot
      · exact absurd hbad hwait
      · exact absurd (hbad.symm.trans hscroll) Bool.false_ne_true
      · exact hstay

/-- A sample that finds the knob turned back past slot 0 puts the view off the ring. -/
theorem Registered.registerValue2_gt {recs : List LogDataWithTimeStamp} {l : LoggerClass}
    (h : Registered recs l) {value : ℚ} {millis : ℕ}
    (hbad : ¬ TurnStays l (.registerValue2 value millis)) :
    maxSize < (l.registerValue2 value millis).scrollAddress := by
  simp only [TurnStays, not_or] at hbad
  obtain ⟨hnot, hwait, hzoom, hturn, hfar⟩ := hbad
  have hback := h.turnedBack_eq ⟨value, millis⟩
  have haddress := h.registerValue_address ⟨value, millis⟩
  obtain ⟨hmode, hold, hrot⟩ := registerValue_knob l ⟨value, millis⟩
  have hmoved : (l.registerValue ⟨value, millis⟩).moveView =
      (l.registerValue ⟨value, millis⟩).followNewest.turnView := by
    unfold LoggerClass.moveView
    rw [hmode, if_pos (Bool.not_eq_false _ ▸ hzoom), scrollView_of_turn]
    rw [hold, hrot]
    exact hturn
  unfold LoggerClass.registerValue2
  rw [if_neg hnot, if_neg hwait, refreshView_scrollAddress, hmoved]
  refine turnView_gt ?_
  rw [followNewest_address, followNewest_scrollTarget, hback, haddress]
  exact hfar

/-- Turning and pressing the knob leaves the ring and the view alone. -/
theorem rotaryChangedFn_eq (l : LoggerClass) (changeVal : ℚ) :
    ∃ rotary scrollRotary,
      l.rotaryChangedFn changeVal = { l with rotary := rotary, scrollRotary := scrollRotary } := by
  unfold LoggerClass.rotaryChangedFn
  split
  · exact ⟨_, _, rfl⟩
  · exact ⟨_, _, rfl⟩

theorem Steady.step {l : LoggerClass} (h : Steady l) {e : Event} (hok : TurnStays l e) :
    Steady (Logger.step l e) := by
  cases e with
  | registerValue2 value millis =>
      rcases h with ⟨hnot, honlog⟩ | ⟨recs, hinside⟩
      · have hsame : l.registerValue2 value millis = l := by
          unfold LoggerClass.registerValue2
          rw [if_pos hnot]
        show Steady (l.registerValue2 value millis)
        rw [hsame]
        exact Or.inl ⟨hnot, honlog⟩
      · exact Or.inr (hinside.registerValue2 hok)
  | rotaryChangedFn changeVal =>
      obtain ⟨rotary, scrollRotary, heq⟩ := rotaryChangedFn_eq l changeVal
      show Steady (l.rotaryChangedFn changeVal)
      rw [heq]
      rcases h with ⟨hnot, honlog⟩ | ⟨recs, hinside⟩
      · exact Or.inl ⟨hnot, honlog⟩
      · exact Or.inr ⟨recs, { hinside with }⟩
  | rotarySwitchFn =>
      -- the mode is no part of the invariant
      rcases h with ⟨hnot, honlog⟩ | ⟨recs, hinside⟩
      · exact Or.inl ⟨hnot, honlog⟩
      · exact Or.inr ⟨recs, { hinside with }⟩

/-- A sample that finds the knob turned back past slot 0 ends the property at once. -/
theorem Steady.not_onLog {l : LoggerClass} (h : Steady l) {e : Event} (hbad : ¬ TurnStays l e) :
    ¬ OnLog (Logger.step l e) := by
  cases e with
  | registerValue2 value millis =>
      rcases h with ⟨hnot, -⟩ | ⟨recs, hinside⟩
      · exact absurd (Or.inl hnot) hbad
      · have hgt := hinside.toRegistered.registerValue2_gt hbad
        exact fun honlog => absurd honlog.1 (Nat.not_le_of_lt hgt)
  | rotaryChangedFn changeVal => exact absurd trivial hbad
  | rotarySwitchFn => exact absurd trivial hbad

/-- In every run the view stays on the ring, with written slots read only, exactly when no sample
finds the knob turned back past slot 0. -/
theorem always_onLog_iff (memory : ℕ → LogDataWithTimeStamp) (size : ℕ) (es : List Event) :
    Run.Always step OnLog (start memory size) es ↔
      Run.Guarded step TurnStays (start memory size) es :=
  Run.always_iff_guarded (fun _ hs => hs.onLog) (fun _ _ hs hok => hs.step hok)
    (fun _ _ hs hbad => hs.not_onLog hbad) (steady_start memory size) es

/-- Two samples, and one click back between them. -/
def clickBack : List Event :=
  [.registerValue2 1 5000, .rotaryChangedFn 1, .registerValue2 1 5001]

theorem clickBack_scrollAddress :
    (Run.exec step (start (fun _ => ⟨0, 0⟩) 8) clickBack).scrollAddress = 4294967288 := by
  decide +kernel

theorem not_always_onLog :
    ¬ ∀ (memory : ℕ → LogDataWithTimeStamp) (size : ℕ) (es : List Event),
      Run.Always step OnLog (start memory size) es := by
  intro hall
  have hlast := (hall (fun _ => ⟨0, 0⟩) 8 clickBack).exec.1
  rw [clickBack_scrollAddress] at hlast
  exact absurd hlast (by decide)

end Logger
end PoorMansSmu
