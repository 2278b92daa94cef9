import PoorMansSmu.Lib.RingBuffer
import PoorMansSmu.Lib.Run
import Mathlib.Data.Int.Notation
import Mathlib.Logic.Function.Iterate
import Mathlib.Tactic.SplitIfs

/-!
# RamLog — the log behind the trend graph

`RamClass` keeps timed values in a ring of `maxLogAddress + 1` slots, in arrays of the processor or
in an external RAM.  The writer goes upwards and starts again at 0 when it has passed the last slot;
the graph starts at the slot that will be written next and goes downwards with `nextAdr`.

The result is that the walk visits the entries from the newest one on, each in its own slot, until
there are no more (`walk_recent`), and that the graph therefore plots the newest 200
(`plot_newest`).
-/

namespace PoorMansSmu
namespace RamLog

open RingBuffer Run

/-! ## Memory -/

/-- The unions `flu` and `tiu`: a `float` or a `uint32_t` as its bytes. -/
abbrev FourBytes := Fin 4 → UInt8

structure TimedLog where
  value : FourBytes
  time : FourBytes

def ram_write (ram : ℕ → UInt8) (buf : FourBytes) (addr : ℕ) : ℕ → UInt8 :=
  fun a => if h : addr ≤ a ∧ a < addr + 4 then buf ⟨a - addr, by omega⟩ else ram a

def ram_read (ram : ℕ → UInt8) (addr : ℕ) : FourBytes := fun i => ram (addr + i)

theorem ram_read_write_same (ram : ℕ → UInt8) (buf : FourBytes) (addr : ℕ) :
    ram_read (ram_write ram buf addr) addr = buf := by
  funext i
  have hi : addr ≤ addr + (i : ℕ) ∧ addr + (i : ℕ) < addr + 4 := by omega
  simp only [ram_read, ram_write, dif_pos hi, Nat.add_sub_cancel_left]

theorem ram_read_write_apart (ram : ℕ → UInt8) (buf : FourBytes) {addr addr' : ℕ}
    (h : addr + 4 ≤ addr' ∨ addr' + 4 ≤ addr) :
    ram_read (ram_write ram buf addr) addr' = ram_read ram addr' := by
  funext i
  have hi : ¬ (addr ≤ addr' + (i : ℕ) ∧ addr' + (i : ℕ) < addr + 4) := by omega
  simp only [ram_read, ram_write, dif_neg hi]

/-! ## RamClass -/

def maxLogAddress : ℕ := 300

def logStartAddress : ℕ := 0

structure RamClass where
  USE_NORMAL_RAM : Bool
  normalRamValue : ℕ → FourBytes
  normalRamTime : ℕ → FourBytes
  /-- The external RAM. -/
  ram : ℕ → UInt8
  currentLogAddress : ℕ := 0
  full : Bool := false
  oldestLogAddress : ℤ := 0

namespace RamClass

def readLogData (r : RamClass) (address : ℕ) : TimedLog :=
  if r.USE_NORMAL_RAM then
    { time := r.normalRamTime address
      value := r.normalRamValue address }
  else
    { time := ram_read r.ram (logStartAddress + address * 8)
      value := ram_read r.ram (logStartAddress + address * 8 + 4) }

/-- Stored as 8 bytes: time and value. -/
def writeLogData (r : RamClass) (address : ℕ) (value time : FourBytes) : RamClass :=
  if r.USE_NORMAL_RAM then
    { r with
      normalRamValue := Function.update r.normalRamValue address value
      normalRamTime := Function.update r.normalRamTime address time }
  else
    { r with
      ram := ram_write (ram_write r.ram time (address * 8)) value
        (logStartAddress + address * 8 + 4) }

/-- The time is that of `timeElapsed`. -/
def logData (r : RamClass) (entry : TimedLog) : RamClass :=
  let r := r.writeLogData r.currentLogAddress entry.value entry.time
  let currentLogAddress := r.currentLogAddress + 1
  let r :=
    if currentLogAddress > maxLogAddress then { r with full := true, currentLogAddress := 0 }
    else { r with currentLogAddress := currentLogAddress }
  if r.full then
    let oldestLogAddress : ℤ := r.currentLogAddress - 1
    { r with
      oldestLogAddress := if oldestLogAddress < 0 then maxLogAddress else oldestLogAddress }
  else { r with oldestLogAddress := 0 }

def nextAdr (r : RamClass) (adr_ : ℤ) : ℤ :=
  let adr := adr_ - 1
  let adr := if adr < 0 ∧ r.full then (maxLogAddress : ℤ) else adr
  if adr < 0 ∧ !r.full then -1 else adr

/-- The second loop of `TrendGraphClass::loop`, with `n` rounds to go: the entries it draws. -/
def plot (r : RamClass) : (n : ℕ) → (adr : ℤ) → List TimedLog
  | 0, _ => []
  | n + 1, adr =>
      let adr := r.nextAdr adr
      if adr = -1 then r.plot n adr
      else r.readLogData adr.toNat :: r.plot n adr

end RamClass

/-- Before the first entry is logged; what stands in the memory may be anything. -/
def start (USE_NORMAL_RAM : Bool) (normalRamValue normalRamTime : ℕ → FourBytes)
    (ram : ℕ → UInt8) : RamClass :=
  { USE_NORMAL_RAM, normalRamValue, normalRamTime, ram }

/-- The `k`-th address that the graph visits. -/
def visited (r : RamClass) (k : ℕ) : ℤ := r.nextAdr^[k] r.currentLogAddress

/-! ## Writing -/

/-- How many entries there is room for. -/
def slots : ℕ := maxLogAddress + 1

/-- A write changes one entry, in either kind of memory. -/
theorem readLogData_writeLogData (r : RamClass) (address : ℕ) (value time : FourBytes) :
    (r.writeLogData address value time).readLogData =
      Function.update r.readLogData address ⟨value, time⟩ := by
  funext b
  simp only [RamClass.readLogData, RamClass.writeLogData]
  by_cases hnormal : r.USE_NORMAL_RAM = true
  · by_cases hb : b = address
    · subst hb
      simp [hnormal]
    · simp [hnormal, Function.update_of_ne hb, RamClass.readLogData]
  · by_cases hb : b = address
    · subst hb
      simp [hnormal, logStartAddress, ram_read_write_same, ram_read_write_apart]
    · -- entries of 8 bytes each lie apart
      have hapart : address * 8 + 8 ≤ b * 8 ∨ b * 8 + 8 ≤ address * 8 := by omega
      rw [Function.update_of_ne hb]
      simp only [hnormal, Bool.false_eq_true, if_false, RamClass.readLogData, logStartAddress,
        Nat.zero_add]
      rw [ram_read_write_apart _ _ (by omega), ram_read_write_apart _ _ (by omega),
        ram_read_write_apart _ _ (by omega), ram_read_write_apart _ _ (by omega)]

/-- The log after some entries: the next slot, whether the ring has gone round, and its contents. -/
structure Logged (r : RamClass) (entries : List TimedLog) : Prop where
  address : r.currentLogAddress = entries.length % slots
  full : r.full = true ↔ slots ≤ entries.length
  holds : Holds slots r.readLogData entries

theorem logged_start (USE_NORMAL_RAM : Bool) (normalRamValue normalRamTime : ℕ → FourBytes)
    (ram : ℕ → UInt8) : Logged (start USE_NORMAL_RAM normalRamValue normalRamTime ram) [] where
  address := rfl
  full := by simp [start, slots]
  holds := holds_nil _

/-- The counters after an entry: the address wraps when it has passed the last slot, and the ring is
full from then on. -/
theorem logData_fields (r : RamClass) (entry : TimedLog) :
    (r.logData entry).currentLogAddress =
        (if r.currentLogAddress + 1 > maxLogAddress then 0 else r.currentLogAddress + 1) ∧
      ((r.logData entry).full = true ↔
        r.full = true ∨ r.currentLogAddress + 1 > maxLogAddress) ∧
      (r.logData entry).readLogData =
        Function.update r.readLogData r.currentLogAddress entry := by
  have hread := readLogData_writeLogData r r.currentLogAddress entry.value entry.time
  have hsame : (r.writeLogData r.currentLogAddress entry.value entry.time).full = r.full ∧
      (r.writeLogData r.currentLogAddress entry.value entry.time).currentLogAddress =
        r.currentLogAddress := by
    unfold RamClass.writeLogData
    split_ifs <;> exact ⟨rfl, rfl⟩
  obtain ⟨hfull, haddress⟩ := hsame
  unfold RamClass.logData
  rw [← hread]
  generalize r.writeLogData r.currentLogAddress entry.value entry.time = r' at hfull haddress
  simp only
  rw [← hfull, ← haddress]
  -- counters are not part of what is read
  by_cases hwrap : r'.currentLogAddress + 1 > maxLogAddress
  · simp only [hwrap, if_true, or_true]
    exact ⟨trivial, trivial, rfl⟩
  · simp only [hwrap, if_false, or_false]
    split_ifs <;> exact ⟨rfl, Iff.rfl, rfl⟩

theorem Logged.logData {r : RamClass} {entries : List TimedLog} (h : Logged r entries)
    (entry : TimedLog) : Logged (r.logData entry) (entries ++ [entry]) := by
  obtain ⟨haddress, hfull, hread⟩ := logData_fields r entry
  have hslots : slots = maxLogAddress + 1 := rfl
  have hmax : maxLogAddress = 300 := rfl
  have hcurrent := h.address
  have holds := h.holds.push entry
  constructor
  case address =>
    rw [haddress, hcurrent, List.length_append, List.length_singleton, hslots, hmax]
    split_ifs <;> omega
  case full =>
    -- the ring gets full with the entry that fills its last slot
    rw [hfull, h.full, hcurrent, List.length_append, List.length_singleton, hslots, hmax]
    omega
  case holds =>
    rw [hread, hcurrent]
    exact holds

theorem logged_run {r : RamClass} {entries : List TimedLog} (h : Logged r entries)
    (more : List TimedLog) : Logged (exec RamClass.logData r more) (entries ++ more) := by
  induction more generalizing r entries with
  | nil =>
      rw [List.append_nil]
      exact h
  | cons entry more ih =>
      have hnext := ih (h.logData entry)
      rw [List.append_assoc, List.singleton_append] at hnext
      exact hnext

/-! ## Walking -/

theorem nextAdr_full {r : RamClass} (hfull : r.full = true) (a : ℕ) :
    r.nextAdr a = (before slots a : ℕ) := by
  have hslots : slots = maxLogAddress + 1 := rfl
  simp only [RamClass.nextAdr, hfull, and_true, Bool.not_true, Bool.false_eq_true, and_false,
    if_false, before]
  split_ifs <;> omega

theorem nextAdr_not_full {r : RamClass} (hfull : r.full = false) (a : ℤ) :
    r.nextAdr a = if a - 1 < 0 then -1 else a - 1 := by
  simp [RamClass.nextAdr, hfull]

theorem visited_succ (r : RamClass) (k : ℕ) : visited r (k + 1) = r.nextAdr (visited r k) :=
  Function.iterate_succ_apply' _ _ _

section Walk

variable {r : RamClass} {entries : List TimedLog} (h : Logged r entries)

include h

theorem Logged.not_full (hroom : entries.length < slots) : r.full = false := by
  rw [Bool.eq_false_iff]
  intro hfull
  exact absurd (h.full.1 hfull) (by omega)

/-- The walk goes down the numbers of the entries, slot by slot. -/
theorem Logged.visited_eq {k : ℕ} (hk : k ≤ min entries.length slots) :
    visited r k = ((entries.length - k) % slots : ℕ) := by
  induction k with
  | zero => simp [visited, h.address]
  | succ k ih =>
      have hpos : 0 < slots := Nat.succ_pos _
      rw [visited_succ, ih (by omega)]
      rcases Nat.lt_or_ge entries.length slots with hroom | hround
      · -- the ring has not gone round: addresses are numbers of entries
        rw [nextAdr_not_full (h.not_full hroom), Nat.mod_eq_of_lt (by omega),
          Nat.mod_eq_of_lt (by omega), if_neg (by omega)]
        omega
      · -- it has gone round: the slot before holds the entry before
        rw [nextAdr_full (h.full.2 hround)]
        congr 1
        refine before_of_mod hpos (Nat.le_of_lt (Nat.mod_lt _ hpos)) ?_
        rw [Nat.mod_mod]
        congr 1
        omega

/-- Beyond the first entry there is no address, and none follows. -/
theorem Logged.visited_end (hroom : entries.length < slots) {k : ℕ} (hk : entries.length < k) :
    visited r k = -1 := by
  induction k with
  | zero => exact absurd hk (Nat.not_lt_zero _)
  | succ k ih =>
      rw [visited_succ, nextAdr_not_full (h.not_full hroom)]
      rcases Nat.lt_or_ge entries.length k with hbeyond | hlast
      · -- from -1 the walk stays at -1
        rw [ih hbeyond]
        rfl
      · have hk' : k = entries.length := by omega
        rw [h.visited_eq (by omega), hk', Nat.sub_self]
        rfl

/-- The `k`-th address holds the `k`-th newest entry. -/
theorem Logged.read_visited {k : ℕ} (hk : 1 ≤ k) (hk' : k ≤ min entries.length slots) :
    r.readLogData (visited r k).toNat = entries[entries.length - k] := by
  rw [h.visited_eq hk', Int.toNat_natCast]
  exact h.holds _ (by omega) (by omega)

end Walk

/-- After any number of entries, with either kind of memory, the walk from the slot to be written
next visits the entries from the newest one on, each once; when the ring has not gone round, it ends
there for good. -/
theorem walk_recent (USE_NORMAL_RAM : Bool) (normalRamValue normalRamTime : ℕ → FourBytes)
    (ram : ℕ → UInt8) (entries : List TimedLog) :
    let r := exec RamClass.logData (start USE_NORMAL_RAM normalRamValue normalRamTime ram) entries
    (∀ k (_ : 1 ≤ k) (_ : k ≤ min entries.length (maxLogAddress + 1)),
        (0 ≤ visited r k ∧ visited r k ≤ maxLogAddress) ∧
          r.readLogData (visited r k).toNat = entries[entries.length - k]) ∧
      (∀ j k, 1 ≤ j → j < k → k ≤ min entries.length (maxLogAddress + 1) →
        visited r j ≠ visited r k) ∧
      (entries.length < maxLogAddress + 1 → ∀ k, entries.length < k → visited r k = -1) := by
  intro r
  have h : Logged r entries :=
    logged_run (logged_start USE_NORMAL_RAM normalRamValue normalRamTime ram) entries
  have hslots : slots = maxLogAddress + 1 := rfl
  refine ⟨fun k hk hk' => ⟨?_, h.read_visited hk hk'⟩, fun j k hj hjk hk => ?_,
    fun hroom k hk => h.visited_end hroom hk⟩
  · rw [h.visited_eq hk']
    have hlt : (entries.length - k) % slots < slots := Nat.mod_lt _ (Nat.succ_pos _)
    omega
  · -- numbers that are less than a round apart belong to different slots
    rw [h.visited_eq (by omega : j ≤ min entries.length slots), h.visited_eq hk]
    have hne := mod_ne_of_lt (m := slots) (by omega : entries.length - k < entries.length - j)
      (by omega)
    exact_mod_cast hne.symm

/-- The graph draws the newest entries, as many as it has rounds for. -/
theorem Logged.plot_eq {r : RamClass} {entries : List TimedLog} (h : Logged r entries) (n k : ℕ)
    (hn : k + n ≤ slots) :
    r.plot n (visited r k) = (entries.reverse.drop k).take n := by
  induction n generalizing k with
  | zero => rfl
  | succ n ih =>
      have hrest := ih (k + 1) (by omega)
      rw [RamClass.plot, ← visited_succ]
      rcases Nat.lt_or_ge k entries.length with hlt | hend
      · have hread := h.read_visited (Nat.le_add_left 1 k) (by omega)
        have hvisited := h.visited_eq (k := k + 1) (by omega)
        have hrev : k < entries.reverse.length := by rwa [List.length_reverse]
        rw [if_neg (by omega), hread, hrest, List.drop_eq_getElem_cons hrev, List.take_succ_cons,
          List.getElem_reverse]
        congr 2
        omega
      · -- nothing is left, and nothing is drawn
        have hend' : entries.length ≤ k + 1 := Nat.le_succ_of_le hend
        rw [if_pos (h.visited_end (by omega) (by omega)), hrest,
          List.drop_eq_nil_of_le (by rwa [List.length_reverse]),
          List.drop_eq_nil_of_le (by rwa [List.length_reverse]), List.take_nil, List.take_nil]

/-- The graph draws the newest 200 entries. -/
theorem plot_newest (USE_NORMAL_RAM : Bool) (normalRamValue normalRamTime : ℕ → FourBytes)
    (ram : ℕ → UInt8) (entries : List TimedLog) :
    let r := exec RamClass.logData (start USE_NORMAL_RAM normalRamValue normalRamTime ram) entries
    r.plot 200 r.currentLogAddress = entries.reverse.take 200 := by
  intro r
  have h : Logged r entries :=
    logged_run (logged_start USE_NORMAL_RAM normalRamValue normalRamTime ram) entries
  exact h.plot_eq 200 0 (by decide)

end RamLog
end PoorMansSmu
