import Mathlib.Algebra.BigOperators.Group.List.Basic
import PoorMansSmu.Lib.RingBuffer
import PoorMansSmu.Lib.Run
import PoorMansSmu.Operations

/-!
# Logger — the log of measured values and its view

`LoggerClass` stores every record in a ring of `maxSize` slots in external RAM (`registerValue`) and
averages the records before `scrollAddress`, group by group, into the buffer that is drawn
(`getLastSamples`).  Turning the knob scrolls or zooms the view.

The results are that the ring holds the last `maxSize` records (`registerValue_run`) and that an entry
of the view is the mean of its group, or padding when the log does not reach that far back
(`getLastSamples_entry`).
-/

namespace PoorMansSmu
namespace Logger

structure LogDataWithTimeStamp where
  value : ℚ
  timestamp : ℕ
  deriving DecidableEq

/-- Number of records in the history. -/
def maxSize : ℕ := 1000000

def MAX_SAMPLES_IN_DISPLAY_BUFFER : ℕ := 300

/-- Marks `minimum` and `maximum` as not set. -/
def undefinedValue : ℚ := 999999999

/-- What stands in the view where there are no samples. -/
def padding : LogDataWithTimeStamp := ⟨-999999.99, 0⟩

/-- The value kept by a `uint32_t`. -/
def uint32 (n : ℤ) : ℕ := (n % 4294967296).toNat

/-- A floating point number stored in an `int`; the processor keeps it in range. -/
def toInt (x : ℚ) : ℤ := max (-2147483648) (min 2147483647 (truncate x))

/-- The logger, with the globals of its file.  `writes` and `reads` are not in the program: they
record the slots stored to since `clear` and the slots `getLastSamples` fetched from. -/
structure LoggerClass where
  adrP : ℕ → LogDataWithTimeStamp
  notAvailable : Bool := true
  full : Bool := false
  empty : Bool := false
  loggerMaxValue : ℚ := -10000
  loggerMinValue : ℚ := 10000
  samplesPrViewPoint : ℤ := 1
  totalSamplesCounted : ℤ := 0
  percentageFull : ℚ := 0
  minimum : ℚ := 0
  maximum : ℚ := 0
  samples : ℕ := 0
  address : ℕ := 0
  scrollAddress : ℕ := 0
  autoScrolling : Bool := false
  rotary : ℤ := 1
  scrollRotary : ℤ := 0
  encButtonScroll : Bool := true
  encButtonZoom : Bool := false
  oldRot : ℤ := 0
  viewBuffer : ℕ → LogDataWithTimeStamp := fun _ => ⟨0, 0⟩
  noViewBuffer : Bool := true
  writes : List ℕ := []
  reads : List ℕ := []

/-- The variables of `getLastSamples`. -/
structure View where
  lastSampleAdr : ℕ
  fillEmpty : Bool := false
  mean : ℚ := 0
  buffer : ℕ → LogDataWithTimeStamp
  loggerMaxValue : ℚ := -10000
  loggerMinValue : ℚ := 10000
  reads : List ℕ := []

namespace LoggerClass

/-! ## Storing -/

def clear (l : LoggerClass) : LoggerClass :=
  { l with
    minimum := undefinedValue
    maximum := undefinedValue
    samples := 0
    address := 0
    scrollAddress := 0
    full := false
    empty := true
    percentageFull := 0
    totalSamplesCounted := 0
    autoScrolling := true
    scrollRotary := 0
    writes := [] }

/-- `size` is the external RAM found, in megabytes. -/
def init (l : LoggerClass) (size : ℕ) : LoggerClass :=
  if size = 0 then { l with notAvailable := true }
  else { l with notAvailable := false }.clear

/-- `registerValue` up to the assignment to the slot. -/
def makeRoom (l : LoggerClass) : LoggerClass :=
  let address := if !l.empty then l.address + 1 else l.address
  let full := if address ≥ maxSize then true else l.full
  let address := if address ≥ maxSize then 0 else address
  let samples := if !full then l.samples + 1 else l.samples
  { l with
    totalSamplesCounted := wrap32 (l.totalSamplesCounted + 1)
    address := address
    full := full
    samples := samples
    percentageFull := 100 * (samples / maxSize) }

/-- `adrP[address++] = logData` -/
def store (l : LoggerClass) (logData : LogDataWithTimeStamp) : LoggerClass :=
  { l with
    adrP := Function.update l.adrP l.address logData
    writes := l.address :: l.writes
    address := l.address + 1 }

/-- The end of `registerValue`: the extreme values, from the eleventh sample on. -/
def trackExtremes (l : LoggerClass) (logData : LogDataWithTimeStamp) : LoggerClass :=
  if (l.minimum = undefinedValue ∨ l.maximum = undefinedValue) ∧ l.samples > 10 then
    { l with minimum := logData.value, maximum := logData.value }
  else if logData.value < l.minimum then { l with minimum := logData.value }
  else if logData.value > l.maximum then { l with maximum := logData.value }
  else l

def registerValue (l : LoggerClass) (logData : LogDataWithTimeStamp) : LoggerClass :=
  (l.makeRoom.store logData).trackExtremes logData

/-! ## Reading back -/

/-- One round of the inner loop of `getLastSamples`, for entry `i`. -/
def fetch (l : LoggerClass) (i : ℕ) (w : View) : View :=
  let w :=
    if w.lastSampleAdr = 0 ∧ l.full then { w with lastSampleAdr := maxSize - 1 }
    else if w.lastSampleAdr = 0 ∧ !l.full then
      { w with buffer := Function.update w.buffer i padding, fillEmpty := true }
    else { w with lastSampleAdr := w.lastSampleAdr - 1 }
  { w with
    mean := w.mean + (l.adrP w.lastSampleAdr).value
    reads := w.lastSampleAdr :: w.reads }

/-- One round of the outer loop: entry `i` gets the mean of its group, unless the log has ended. -/
def fillEntry (l : LoggerClass) (samplesPr : ℕ) (w : View) (i : ℕ) : View :=
  let w := (l.fetch i)^[samplesPr] { w with mean := 0 }
  let value := w.mean / samplesPr
  if !w.fillEmpty then
    { w with
      buffer := Function.update w.buffer i ⟨value, (l.adrP w.lastSampleAdr).timestamp⟩
      loggerMaxValue := if value > w.loggerMaxValue then value else w.loggerMaxValue
      loggerMinValue := if value < w.loggerMinValue then value else w.loggerMinValue }
  else w

/-- Both loops of `getLastSamples`. -/
def fillEntries (l : LoggerClass) (buffer : ℕ → LogDataWithTimeStamp) (bufferSize samplesPr : ℕ) :
    View :=
  (List.range bufferSize).foldl (l.fillEntry samplesPr)
    { lastSampleAdr := l.scrollAddress, buffer := buffer }

/-- What is in `buffer` after the call, and the logger. -/
def getLastSamples (l : LoggerClass) (buffer : ℕ → LogDataWithTimeStamp)
    (bufferSize samplesPr : ℕ) : (ℕ → LogDataWithTimeStamp) × LoggerClass :=
  let w := l.fillEntries buffer bufferSize samplesPr
  let span := w.loggerMaxValue - w.loggerMinValue
  -- the graph shows at least 20 mV
  let valueLeft := if span < 0.020 then 0.020 - span else 0
  (w.buffer, { l with
    loggerMaxValue := w.loggerMaxValue + valueLeft / 2
    loggerMinValue := w.loggerMinValue - valueLeft / 2
    reads := w.reads ++ l.reads })

end LoggerClass

/-! ## The ring -/

/-- The logger after the records `recs` have been stored since `clear`. -/
structure Registered (recs : List LogDataWithTimeStamp) (l : LoggerClass) : Prop where
  holds : RingBuffer.Holds maxSize l.adrP recs
  /-- The flag is not cleared when a record is stored, so that `address` only moves on there. -/
  empty : l.empty = true
  samples : l.samples = min recs.length maxSize
  full : l.full = true ↔ maxSize < recs.length
  /-- The place after the last slot is left by the next call only. -/
  address : l.address = if recs.length = 0 then 0 else (recs.length - 1) % maxSize + 1
  writes_lt : ∀ adr ∈ l.writes, adr < maxSize
  written : ∀ adr < min recs.length maxSize, adr ∈ l.writes

theorem maxSize_pos : 0 < maxSize := by decide

theorem registered_clear (l : LoggerClass) : Registered [] l.clear where
  holds := RingBuffer.holds_nil _
  empty := rfl
  samples := by simp [LoggerClass.clear]
  full := by simp [LoggerClass.clear]
  address := rfl
  writes_lt := by simp [LoggerClass.clear]
  written := by simp

section Register

variable {recs : List LogDataWithTimeStamp} {l : LoggerClass}

/-- The address stands past the last slot exactly when the ring is full to the end. -/
theorem Registered.address_ge_iff (h : Registered recs l) :
    l.address ≥ maxSize ↔ recs.length ≠ 0 ∧ recs.length % maxSize = 0 := by
  have haddress := h.address
  simp only [maxSize] at haddress ⊢
  by_cases hnil : recs.length = 0
  · rw [if_pos hnil] at haddress
    omega
  · rw [if_neg hnil] at haddress
    omega

theorem Registered.address_le (h : Registered recs l) : l.address ≤ maxSize := by
  have haddress := h.address
  have hlt := Nat.mod_lt (recs.length - 1) maxSize_pos
  split_ifs at haddress <;> omega

theorem Registered.address_mod (h : Registered recs l) :
    l.address % maxSize = recs.length % maxSize := by
  have haddress := h.address
  simp only [maxSize] at haddress ⊢
  split_ifs at haddress <;> omega

/-- Until the ring has gone around the address counts the records. -/
theorem Registered.address_early (h : Registered recs l) (hfew : recs.length ≤ maxSize) :
    l.address = recs.length := by
  have haddress := h.address
  simp only [maxSize] at haddress hfew
  split_ifs at haddress <;> omega

/-- The next record goes to the slot of its number. -/
theorem Registered.makeRoom_address (h : Registered recs l) :
    l.makeRoom.address = recs.length % maxSize := by
  have haddress := h.address
  have hroom : l.makeRoom.address = if l.address ≥ maxSize then 0 else l.address := by
    simp [LoggerClass.makeRoom, h.empty]
  rw [hroom]
  by_cases hend : l.address ≥ maxSize
  · -- the wrap that the call before has left to this one
    rw [if_pos hend, (h.address_ge_iff.1 hend).2]
  · rw [if_neg hend]
    simp only [maxSize] at haddress hend ⊢
    by_cases hnil : recs.length = 0
    · rw [if_pos hnil] at haddress
      omega
    · rw [if_neg hnil] at haddress
      omega

/-- From the first record on that finds all slots taken the ring is full. -/
theorem Registered.makeRoom_full (h : Registered recs l) :
    l.makeRoom.full = true ↔ maxSize ≤ recs.length := by
  have hend := h.address_ge_iff
  have hroom : l.makeRoom.full = if l.address ≥ maxSize then true else l.full := by
    simp [LoggerClass.makeRoom, h.empty]
  have hfull := h.full
  rw [hroom]
  by_cases hge : l.address ≥ maxSize
  · -- a number of records above zero that is a multiple of the number of slots
    obtain ⟨hpos, hmod⟩ := hend.1 hge
    have hle : maxSize ≤ recs.length :=
      Nat.le_of_dvd (by omega) (Nat.dvd_of_mod_eq_zero hmod)
    rw [if_pos hge]
    exact iff_of_true rfl hle
  · have hnot : ¬ (recs.length ≠ 0 ∧ recs.length % maxSize = 0) := fun hr => hge (hend.2 hr)
    rw [if_neg hge, hfull]
    simp only [maxSize] at hnot ⊢
    omega

theorem Registered.makeRoom_samples (h : Registered recs l) :
    l.makeRoom.samples = min (recs.length + 1) maxSize := by
  have hsamples := h.samples
  -- the count stops with the call that finds the ring full, before the record is stored
  have hcases : l.makeRoom.samples = if l.makeRoom.full then l.samples else l.samples + 1 := by
    simp only [LoggerClass.makeRoom]
    split_ifs <;> simp_all
  rw [hcases]
  by_cases hfull : l.makeRoom.full = true
  · have := h.makeRoom_full.1 hfull
    rw [if_pos hfull]
    omega
  · have : ¬ maxSize ≤ recs.length := fun hle => hfull (h.makeRoom_full.2 hle)
    rw [if_neg hfull]
    omega

end Register

/-- The extreme values are all that the end of `registerValue` changes. -/
theorem trackExtremes_eq (l : LoggerClass) (logData : LogDataWithTimeStamp) :
    ∃ minimum maximum,
      l.trackExtremes logData = { l with minimum := minimum, maximum := maximum } := by
  unfold LoggerClass.trackExtremes
  split_ifs
  · exact ⟨_, _, rfl⟩
  · exact ⟨_, _, rfl⟩
  · exact ⟨_, _, rfl⟩
  · exact ⟨_, _, rfl⟩

/-- Storing a record adds it to those the ring holds. -/
theorem Registered.registerValue {recs : List LogDataWithTimeStamp} {l : LoggerClass}
    (h : Registered recs l) (logData : LogDataWithTimeStamp) :
    Registered (recs ++ [logData]) (l.registerValue logData) := by
  obtain ⟨minimum, maximum, heq⟩ := trackExtremes_eq (l.makeRoom.store logData) logData
  have hslot := h.makeRoom_address
  have hlength : (recs ++ [logData]).length = recs.length + 1 := by simp
  unfold LoggerClass.registerValue
  rw [heq]
  refine ⟨?_, h.empty, ?_, ?_, ?_, ?_, ?_⟩
  · show RingBuffer.Holds maxSize (Function.update l.adrP l.makeRoom.address logData) _
    rw [hslot]
    exact h.holds.push logData
  · rw [hlength]
    exact h.makeRoom_samples
  · rw [hlength, Nat.lt_succ_iff]
    exact h.makeRoom_full
  · show l.makeRoom.address + 1 = _
    rw [hlength, hslot, if_neg (by omega), Nat.add_sub_cancel]
  · intro adr hadr
    rcases List.mem_cons.1 hadr with rfl | hadr
    -- the new write is at a number modulo the number of slots
    · rw [hslot]
      exact Nat.mod_lt _ maxSize_pos
    · exact h.writes_lt adr hadr
  · intro adr hadr
    rw [hlength] at hadr
    show adr ∈ l.makeRoom.address :: l.writes
    rw [hslot]
    rcases Nat.lt_or_ge adr recs.length with hold | hnew
    · exact List.mem_cons_of_mem _ (h.written adr (by omega))
    · -- only the slot of the new record is new
      obtain rfl : adr = recs.length := by omega
      rw [Nat.mod_eq_of_lt (by omega)]
      exact List.mem_cons_self ..

theorem Registered.exec {pre : List LogDataWithTimeStamp} {l : LoggerClass}
    (h : Registered pre l) (recs : List LogDataWithTimeStamp) :
    Registered (pre ++ recs) (Run.exec LoggerClass.registerValue l recs) := by
  induction recs generalizing pre l with
  | nil =>
      rw [List.append_nil]
      exact h
  | cons logData recs ih =>
      have hnext := ih (h.registerValue logData)
      rw [List.append_assoc, List.singleton_append] at hnext
      exact hnext

/-- The logger after `clear` and a call of `registerValue` for each record. -/
def logged (l : LoggerClass) (recs : List LogDataWithTimeStamp) : LoggerClass :=
  Run.exec LoggerClass.registerValue l.clear recs

theorem registered_logged (l : LoggerClass) (recs : List LogDataWithTimeStamp) :
    Registered recs (logged l recs) :=
  (registered_clear l).exec recs

/-- After any number of records stored since `clear`, slot `j` holds the last record with number `j`
modulo `maxSize`, the counters agree with the number of records, and every store was inside. -/
theorem registerValue_run (l : LoggerClass) (recs : List LogDataWithTimeStamp) :
    let s := logged l recs
    let N := recs.length
    (∀ j < min N maxSize, ∃ k, ∃ hk : k < N, k % maxSize = j ∧
      (∀ k' < N, k' % maxSize = j → k' ≤ k) ∧ s.adrP j = recs[k]) ∧
    s.samples = min N maxSize ∧
    (s.full = true ↔ maxSize < N) ∧
    (∀ _ : 1 ≤ N, 1 ≤ s.address ∧ s.address ≤ maxSize ∧ s.adrP (s.address - 1) = recs[N - 1]) ∧
    ∀ adr ∈ s.writes, adr < maxSize := by
  intro s N
  have h : Registered recs s := registered_logged l recs
  refine ⟨fun j hj => h.holds.latest hj, h.samples, h.full, fun hN => ?_, h.writes_lt⟩
  have hpos : recs.length ≠ 0 := Nat.ne_of_gt hN
  have haddress := h.address
  have hlt := Nat.mod_lt (recs.length - 1) maxSize_pos
  rw [if_neg hpos] at haddress
  refine ⟨by omega, by omega, ?_⟩
  rw [haddress, Nat.add_sub_cancel]
  exact h.holds (recs.length - 1) (by omega) (by omega)

/-! ## The view -/

/-- The records ranked `i * samplesPr` to `(i + 1) * samplesPr - 1` from the newest. -/
def group (recs : List LogDataWithTimeStamp) (samplesPr i : ℕ) : List LogDataWithTimeStamp :=
  (recs.reverse.drop (i * samplesPr)).take samplesPr

def mean (recs : List LogDataWithTimeStamp) : ℚ :=
  (recs.map (·.value)).sum / recs.length

/-- The view is scrolled to the newest record. -/
def LoggerClass.atNewest (l : LoggerClass) : LoggerClass :=
  { l with scrollAddress := l.address }

section Fetch

variable {recs : List LogDataWithTimeStamp} {l : LoggerClass} {w : View} {t : ℕ}

/-- The walk has gone back over the newest `t` records and stands at the slot of the last of them. -/
structure At (recs : List LogDataWithTimeStamp) (t : ℕ) (w : View) : Prop where
  le : w.lastSampleAdr ≤ maxSize
  slot : w.lastSampleAdr % maxSize = (recs.length - t) % maxSize
  early : recs.length ≤ maxSize → w.lastSampleAdr = recs.length - t
  fillEmpty : w.fillEmpty = false

/-- As long as there is an older record, a round steps back to its slot. -/
theorem At.fetch_eq (h : At recs t w) (hl : Registered recs l) (ht : t < min recs.length maxSize)
    (i : ℕ) : l.fetch i w =
      { w with
        lastSampleAdr := RingBuffer.before maxSize w.lastSampleAdr
        mean := w.mean + (l.adrP (RingBuffer.before maxSize w.lastSampleAdr)).value
        reads := RingBuffer.before maxSize w.lastSampleAdr :: w.reads } := by
  unfold LoggerClass.fetch RingBuffer.before
  by_cases hzero : w.lastSampleAdr = 0
  · -- at slot 0 the ring is full: a shorter log would have ended here
    have hfull : l.full = true := by
      rw [hl.full]
      by_contra hnot
      have := h.early (by omega)
      omega
    simp only [hzero, hfull, and_self, if_true]
  · simp only [hzero, false_and, if_false]

theorem At.fetch (h : At recs t w) (hl : Registered recs l) (ht : t < min recs.length maxSize)
    (i : ℕ) : At recs (t + 1) (l.fetch i w) := by
  have hslot : RingBuffer.before maxSize w.lastSampleAdr = (recs.length - (t + 1)) % maxSize := by
    refine RingBuffer.before_of_mod maxSize_pos h.le ?_
    rw [h.slot]
    congr 1
    omega
  have hlt : RingBuffer.before maxSize w.lastSampleAdr < maxSize :=
    RingBuffer.before_lt maxSize_pos h.le
  rw [h.fetch_eq hl ht]
  refine ⟨hlt.le, ?_, fun hfew => ?_, h.fillEmpty⟩
  · rw [hslot, Nat.mod_mod]
  · show RingBuffer.before maxSize w.lastSampleAdr = _
    rw [hslot, Nat.mod_eq_of_lt (by omega)]

/-- The slot the walk stands at holds the record it came to last. -/
theorem At.record (h : At recs (t + 1) w) (hl : Registered recs l)
    (ht : t < min recs.length maxSize) (hlt : w.lastSampleAdr < maxSize) :
    recs.reverse[t]? = some (l.adrP w.lastSampleAdr) := by
  have hslot := h.slot
  rw [Nat.mod_eq_of_lt hlt] at hslot
  have hk := hl.holds (recs.length - (t + 1)) (by omega) (by omega)
  rw [hslot, hk, List.getElem?_reverse (by omega)]
  have hindex : recs.length - 1 - t = recs.length - (t + 1) := by omega
  rw [hindex, List.getElem?_eq_getElem]

theorem At.fetch_lt (h : At recs t w) (hl : Registered recs l)
    (ht : t < min recs.length maxSize) (i : ℕ) : (l.fetch i w).lastSampleAdr < maxSize := by
  rw [h.fetch_eq hl ht]
  exact RingBuffer.before_lt maxSize_pos h.le

/-- The inner loop over a group that is there in full. -/
theorem At.iterate (h : At recs t w) (hl : Registered recs l) (i p : ℕ)
    (hp : t + p ≤ min recs.length maxSize) :
    At recs (t + p) ((l.fetch i)^[p] w) ∧
      ((l.fetch i)^[p] w).buffer = w.buffer ∧
      ((l.fetch i)^[p] w).mean =
        w.mean + (((recs.reverse.drop t).take p).map (·.value)).sum := by
  induction p generalizing t w with
  | zero =>
      refine ⟨h, rfl, ?_⟩
      simp
  | succ p ih =>
      have ht : t < min recs.length maxSize := by omega
      -- one round takes record `t`, the others take those behind it
      have hnext := h.fetch hl ht i
      have hfetch := h.fetch_eq hl ht i
      obtain ⟨hlen, hget⟩ :=
        List.getElem?_eq_some_iff.1 (hnext.record hl ht (h.fetch_lt hl ht i))
      have hsum : (l.fetch i w).mean = w.mean + recs.reverse[t].value := by
        rw [hget, hfetch]
      have hdrop : recs.reverse.drop t = recs.reverse[t] :: recs.reverse.drop (t + 1) :=
        List.drop_eq_getElem_cons hlen
      obtain ⟨hat, hbuffer, hmean⟩ := ih hnext (by omega)
      rw [Function.iterate_succ_apply]
      refine ⟨?_, ?_, ?_⟩
      · have hsucc : t + 1 + p = t + (p + 1) := by omega
        rwa [hsucc] at hat
      · rw [hbuffer, hfetch]
      · rw [hmean, hsum, hdrop, List.take_succ_cons, List.map_cons, List.sum_cons, add_assoc]

/-- After the inner loop the walk stands at the oldest record of the group. -/
theorem At.iterate_record (h : At recs t w) (hl : Registered recs l) (i p : ℕ)
    (hp : t + (p + 1) ≤ min recs.length maxSize) :
    recs.reverse[t + p]? = some (l.adrP ((l.fetch i)^[p + 1] w).lastSampleAdr) := by
  obtain ⟨hat, -, -⟩ := h.iterate hl i p (by omega)
  rw [Function.iterate_succ_apply']
  have ht : t + p < min recs.length maxSize := by omega
  exact (hat.fetch hl ht i).record hl ht (hat.fetch_lt hl ht i)

/-- What a round finds where the log ends. -/
theorem fetch_end (hfull : l.full = false) (hzero : w.lastSampleAdr = 0) (i : ℕ) :
    (l.fetch i w).lastSampleAdr = 0 ∧ (l.fetch i w).fillEmpty = true ∧
      (l.fetch i w).buffer = Function.update w.buffer i padding := by
  simp [LoggerClass.fetch, hfull, hzero]

theorem iterate_end (hfull : l.full = false) (hzero : w.lastSampleAdr = 0) (i p : ℕ) :
    ((l.fetch i)^[p + 1] w).lastSampleAdr = 0 ∧ ((l.fetch i)^[p + 1] w).fillEmpty = true ∧
      ((l.fetch i)^[p + 1] w).buffer = Function.update w.buffer i padding := by
  induction p with
  | zero => exact fetch_end hfull hzero i
  | succ p ih =>
      -- a round that finds the end once more writes the same padding to the same entry
      obtain ⟨hadr, -, hbuffer⟩ := ih
      rw [Function.iterate_succ_apply']
      obtain ⟨hadr', hfill', hbuffer'⟩ := fetch_end hfull hadr i
      refine ⟨hadr', hfill', ?_⟩
      rw [hbuffer', hbuffer, Function.update_idem]

/-- The inner loop over a group that the log does not fill ends with padding. -/
theorem At.iterate_end (h : At recs t w) (hl : Registered recs l) (i : ℕ) {p : ℕ}
    (hfew : recs.length ≤ maxSize) (ht : t ≤ recs.length) (hp : recs.length < t + p) :
    ((l.fetch i)^[p] w).lastSampleAdr = 0 ∧ ((l.fetch i)^[p] w).fillEmpty = true ∧
      ((l.fetch i)^[p] w).buffer = Function.update w.buffer i padding := by
  have hfull : l.full = false := by
    rw [← Bool.not_eq_true, hl.full]
    omega
  induction p generalizing t w with
  | zero => omega
  | succ p ih =>
      rcases Nat.eq_or_lt_of_le ht with hall | hmore
      · -- nothing is left: the rest of the rounds stay at slot 0
        have hzero : w.lastSampleAdr = 0 := by
          rw [h.early hfew]
          omega
        exact Logger.iterate_end hfull hzero i p
      · have hlt : t < min recs.length maxSize := by omega
        have hpast : recs.length < t + 1 + p := by omega
        have hnext := ih (h.fetch hl hlt i) hmore hpast
        rw [Function.iterate_succ_apply]
        rw [h.fetch_eq hl hlt] at hnext ⊢
        exact hnext

end Fetch

section Entries

variable {recs : List LogDataWithTimeStamp} {l : LoggerClass} {samplesPr : ℕ}

/-- What entry `i` of the view should show. -/
def IsEntry (recs : List LogDataWithTimeStamp) (samplesPr i : ℕ) (entry : LogDataWithTimeStamp) :
    Prop :=
  if (i + 1) * samplesPr ≤ min recs.length maxSize then
    ∃ oldest, (group recs samplesPr i).getLast? = some oldest ∧
      entry = ⟨mean (group recs samplesPr i), oldest.timestamp⟩
  else entry = padding

/-- The state of `getLastSamples` when it begins with entry `i`. -/
structure Viewed (recs : List LogDataWithTimeStamp) (samplesPr i : ℕ) (w : View) : Prop where
  inside : i * samplesPr ≤ min recs.length maxSize → At recs (i * samplesPr) w
  beyond : ¬ i * samplesPr ≤ min recs.length maxSize →
    recs.length ≤ maxSize ∧ w.lastSampleAdr = 0 ∧ w.fillEmpty = true
  entries : ∀ j < i, IsEntry recs samplesPr j (w.buffer j)

theorem length_group {i : ℕ} (hfits : (i + 1) * samplesPr ≤ recs.length) :
    (group recs samplesPr i).length = samplesPr := by
  have : (i + 1) * samplesPr = i * samplesPr + samplesPr := Nat.succ_mul i samplesPr
  simp only [group, List.length_take, List.length_drop, List.length_reverse]
  omega

/-- The oldest record of a group that is there in full. -/
theorem getLast_group {i : ℕ} (hpr : 1 ≤ samplesPr) (hfits : (i + 1) * samplesPr ≤ recs.length) :
    (group recs samplesPr i).getLast? = recs.reverse[i * samplesPr + (samplesPr - 1)]? := by
  rw [List.getLast?_eq_getElem?, length_group hfits, group, List.getElem?_take_of_lt (by omega),
    List.getElem?_drop]

/-- A group that is there in full is averaged. -/
theorem Viewed.fillEntry_inside {i : ℕ} {w : View} (h : Viewed recs samplesPr i w)
    (hl : Registered recs l) (hpr : 1 ≤ samplesPr)
    (hfits : (i + 1) * samplesPr ≤ min recs.length maxSize) :
    Viewed recs samplesPr (i + 1) (l.fillEntry samplesPr w i) := by
  have hsucc : (i + 1) * samplesPr = i * samplesPr + samplesPr := Nat.succ_mul i samplesPr
  obtain ⟨hle, hslot, hearly, hfill⟩ := h.inside (by omega)
  -- the mean starts again at 0, the walk goes on from where it stands
  have hstart : At recs (i * samplesPr) { w with mean := 0 } := ⟨hle, hslot, hearly, hfill⟩
  obtain ⟨hat, hbuffer, hmean⟩ := hstart.iterate hl i samplesPr (by omega)
  have holdest := hstart.iterate_record hl i (samplesPr - 1) (by omega)
  rw [Nat.sub_add_cancel hpr] at holdest
  have hvalue : ((l.fetch i)^[samplesPr] { w with mean := 0 }).mean / samplesPr =
      mean (group recs samplesPr i) := by
    rw [hmean, mean, length_group (by omega), zero_add, group]
  unfold LoggerClass.fillEntry
  simp only [hat.fillEmpty, hvalue, hbuffer, Bool.not_false, if_true]
  refine ⟨fun _ => ?_, fun hnot => absurd hfits hnot, fun j hj => ?_⟩
  · rw [hsucc]
    exact ⟨hat.le, hat.slot, hat.early, rfl⟩
  · rcases Nat.lt_succ_iff_lt_or_eq.1 hj with hlt | rfl
    · show IsEntry recs samplesPr j (Function.update w.buffer i _ j)
      rw [Function.update_of_ne (Nat.ne_of_lt hlt)]
      exact h.entries j hlt
    · show IsEntry recs samplesPr j (Function.update w.buffer j _ j)
      rw [Function.update_self, IsEntry, if_pos hfits, getLast_group hpr (by omega), holdest]
      exact ⟨_, rfl, rfl⟩

/-- A group that is not there in full is padded, and so is everything after it. -/
theorem Viewed.fillEntry_over {i : ℕ} {w : View} (h : Viewed recs samplesPr i w)
    (hl : Registered recs l) (hpr : 1 ≤ samplesPr) (hfew : recs.length ≤ maxSize)
    (hover : ¬ (i + 1) * samplesPr ≤ min recs.length maxSize) :
    Viewed recs samplesPr (i + 1) (l.fillEntry samplesPr w i) := by
  have hsucc : (i + 1) * samplesPr = i * samplesPr + samplesPr := Nat.succ_mul i samplesPr
  have hend : ((l.fetch i)^[samplesPr] { w with mean := 0 }).lastSampleAdr = 0 ∧
      ((l.fetch i)^[samplesPr] { w with mean := 0 }).fillEmpty = true ∧
      ((l.fetch i)^[samplesPr] { w with mean := 0 }).buffer =
        Function.update w.buffer i padding := by
    by_cases hin : i * samplesPr ≤ min recs.length maxSize
    · -- the log ends within this group
      obtain ⟨hle, hslot, hearly, hfill⟩ := h.inside hin
      have hstart : At recs (i * samplesPr) { w with mean := 0 } := ⟨hle, hslot, hearly, hfill⟩
      exact hstart.iterate_end hl i hfew (by omega) (by omega)
    · -- it has ended before
      obtain ⟨-, hzero, -⟩ := h.beyond hin
      have hfull : l.full = false := by
        rw [← Bool.not_eq_true, hl.full]
        omega
      have := iterate_end (w := { w with mean := 0 }) hfull hzero i (samplesPr - 1)
      rwa [Nat.sub_add_cancel hpr] at this
  obtain ⟨hzero, hfill, hbuffer⟩ := hend
  unfold LoggerClass.fillEntry
  simp only [hfill, Bool.not_true, Bool.false_eq_true, if_false]
  refine ⟨fun hin => absurd hin hover, fun _ => ⟨hfew, hzero, hfill⟩, fun j hj => ?_⟩
  rw [hbuffer]
  rcases Nat.lt_succ_iff_lt_or_eq.1 hj with hlt | rfl
  · rw [Function.update_of_ne (Nat.ne_of_lt hlt)]
    exact h.entries j hlt
  · rw [Function.update_self, IsEntry, if_neg hover]

/-- The outer loop. -/
theorem viewed_foldl (hl : Registered recs l) (hpr : 1 ≤ samplesPr) {bufferSize : ℕ}
    (hfit : bufferSize * samplesPr ≤ maxSize) {w : View} (hw : Viewed recs samplesPr 0 w) :
    ∀ n ≤ bufferSize,
      Viewed recs samplesPr n ((List.range n).foldl (l.fillEntry samplesPr) w) := by
  intro n hn
  induction n with
  | zero => exact hw
  | succ n ih =>
      rw [List.range_succ, List.foldl_append, List.foldl_cons, List.foldl_nil]
      have hbefore := ih (by omega)
      by_cases hin : (n + 1) * samplesPr ≤ min recs.length maxSize
      · exact hbefore.fillEntry_inside hl hpr hin
      · -- a full ring has enough records for all entries
        have hle : (n + 1) * samplesPr ≤ bufferSize * samplesPr := Nat.mul_le_mul_right _ hn
        exact hbefore.fillEntry_over hl hpr (by omega) hin

theorem viewed_start (hl : Registered recs l) (hscroll : l.scrollAddress = l.address)
    (buffer : ℕ → LogDataWithTimeStamp) :
    Viewed recs samplesPr 0 { lastSampleAdr := l.scrollAddress, buffer := buffer } := by
  refine ⟨fun _ => ?_, fun hnot => absurd (by simp) hnot, fun j hj => absurd hj (Nat.not_lt_zero j)⟩
  rw [Nat.zero_mul]
  exact
    { le := hscroll.trans_le hl.address_le
      slot := (congrArg (· % maxSize) hscroll).trans hl.address_mod
      early := fun hfew => hscroll.trans (hl.address_early hfew)
      fillEmpty := rfl }

end Entries

@[simp] theorem getLastSamples_fst (l : LoggerClass) (buffer : ℕ → LogDataWithTimeStamp)
    (bufferSize samplesPr : ℕ) :
    (l.getLastSamples buffer bufferSize samplesPr).1 =
      (l.fillEntries buffer bufferSize samplesPr).buffer := rfl

/-- Entry `i` of a view of the newest records is the mean of its group with the time of the oldest
record in it, as long as the group is in the ring, and padding from the first group that is not. -/
theorem getLastSamples_entry (l : LoggerClass) (recs : List LogDataWithTimeStamp)
    (buffer : ℕ → LogDataWithTimeStamp) (bufferSize samplesPr : ℕ) (hpr : 1 ≤ samplesPr)
    (hfit : bufferSize * samplesPr ≤ maxSize) (i : ℕ) (hi : i < bufferSize) :
    let view := ((logged l recs).atNewest.getLastSamples buffer bufferSize samplesPr).1
    if (i + 1) * samplesPr ≤ min recs.length maxSize then
      ∃ oldest, (group recs samplesPr i).getLast? = some oldest ∧
        view i = ⟨mean (group recs samplesPr i), oldest.timestamp⟩
    else view i = padding := by
  have hs : Registered recs (logged l recs).atNewest := { registered_logged l recs with }
  have hviewed := viewed_foldl hs hpr hfit (viewed_start hs rfl buffer) bufferSize (Nat.le_refl _)
  have hentry := hviewed.entries i hi
  rw [← LoggerClass.fillEntries, ← getLastSamples_fst] at hentry
  exact hentry

/-- Three samples, two at a time: the first group is averaged, the second one is padding. -/
theorem getLastSamples_entry_three :
    let recs : List LogDataWithTimeStamp := [⟨1, 10⟩, ⟨2, 20⟩, ⟨5, 30⟩]
    let l : LoggerClass := { adrP := fun _ => ⟨7, 7⟩ }
    let view := ((logged l recs).atNewest.getLastSamples (fun _ => ⟨0, 0⟩) 3 2).1
    view 0 = ⟨7 / 2, 20⟩ ∧ view 1 = padding := by
  intro recs l view
  have hfit : 3 * 2 ≤ maxSize := by norm_num [maxSize]
  have hfirst := getLastSamples_entry l recs (fun _ => ⟨0, 0⟩) 3 2 (by omega) hfit 0 (by omega)
  have hsecond := getLastSamples_entry l recs (fun _ => ⟨0, 0⟩) 3 2 (by omega) hfit 1 (by omega)
  have hfits : (0 + 1) * 2 ≤ min recs.length maxSize := by norm_num [recs, maxSize]
  have hover : ¬ (1 + 1) * 2 ≤ min recs.length maxSize := by norm_num [recs, maxSize]
  simp only [if_pos hfits] at hfirst
  simp only [if_neg hover] at hsecond
  obtain ⟨oldest, holdest, hentry⟩ := hfirst
  have hgroup : group recs 2 0 = [⟨5, 30⟩, ⟨2, 20⟩] := rfl
  have hmean : mean [⟨5, 30⟩, ⟨2, 20⟩] = 7 / 2 := by norm_num [mean]
  rw [hgroup] at holdest hentry
  obtain rfl : (⟨2, 20⟩ : LogDataWithTimeStamp) = oldest := Option.some.inj holdest
  rw [hmean] at hentry
  exact ⟨hentry, hsecond⟩

end Logger
end PoorMansSmu
