import PoorMansSmu.Lib.Wire
import PoorMansSmu.RamLog

/-!
# LogBackends — the log in an external RAM

With `USE_NORMAL_RAM` off the log is kept in a serial RAM.  A write or a read of it is a message: an
instruction, an address of three bytes, and the data, which the chip takes from or puts to successive
addresses.  Between the two backends of the log stands the model of `RamLog`, in which the external
RAM is a memory of bytes:

- `ram_write_eq`, `ram_read_eq` : the messages do what that memory does, up to the end of the chip;
- `backends_agree`              : after the same calls, a record that was written reads back the same
  from the chip as from the arrays.
-/

namespace PoorMansSmu
namespace LogBackends

open RamLog Wire

/-! ## The chip -/

/-- 1 Mbit. -/
def ramBytes : ℕ := 131072

def RAM_INSTR_READ : Byte := 0x03

def RAM_INSTR_WRITE : Byte := 0x02

/-- Sequential mode: the data go to successive addresses, after the last one to the first. -/
def store (ram : ℕ → UInt8) (addr : ℕ) : List Byte → (ℕ → UInt8)
  | [] => ram
  | b :: data => store (Function.update ram (addr % ramBytes) (UInt8.ofBitVec b)) (addr + 1) data

/-- One selection of the chip: what is sent, and what comes back for the data. -/
def transfer (ram : ℕ → UInt8) : List Byte → (ℕ → UInt8) × List Byte
  | instruction :: a2 :: a1 :: a0 :: data =>
      let addr := fromBytes [a2, a1, a0]
      if instruction = RAM_INSTR_WRITE then (store ram addr data, data.map fun _ => 0)
      else if instruction = RAM_INSTR_READ then
        (ram, (List.range data.length).map fun i => (ram ((addr + i) % ramBytes)).toBitVec)
      else (ram, data.map fun _ => 0)
  | _ => (ram, [])

/-- `ram_write`: the instruction, the address from its high byte on, and the buffer. -/
def ram_write (ram : ℕ → UInt8) (buf : FourBytes) (addr : ℕ) : ℕ → UInt8 :=
  (transfer ram (RAM_INSTR_WRITE :: (toBytes 3 addr ++ (List.ofFn buf).map UInt8.toBitVec))).1

/-- `ram_read`: zeros are sent for the bytes that are to come. -/
def ram_read (ram : ℕ → UInt8) (addr : ℕ) : FourBytes :=
  let bytes := (transfer ram (RAM_INSTR_READ :: (toBytes 3 addr ++ [0, 0, 0, 0]))).2
  fun i => UInt8.ofBitVec (bytes.getD i 0)

/-! ## The log in the chip -/

def readRAMfloat (ram : ℕ → UInt8) (address : ℕ) : FourBytes := ram_read ram address

def writeRAMfloat (ram : ℕ → UInt8) (address : ℕ) (value : FourBytes) : ℕ → UInt8 :=
  ram_write ram value address

/-- The branch of `readLogData` for the external RAM. -/
def readLogData (ram : ℕ → UInt8) (address : ℕ) : TimedLog :=
  { time := ram_read ram (logStartAddress + address * 8)
    value := readRAMfloat ram (logStartAddress + address * 8 + 4) }

/-- The branch of `writeLogData` for the external RAM; the two addresses are not written in the same
way. -/
def writeLogData (ram : ℕ → UInt8) (address : ℕ) (value time : FourBytes) : ℕ → UInt8 :=
  writeRAMfloat (ram_write ram time (address * 8)) (logStartAddress + address * 8 + 4) value

inductive Call
  | writeLogData (address : ℕ) (value time : FourBytes)
  | readLogData (address : ℕ)

namespace Call

def address : Call → ℕ
  | writeLogData address _ _ => address
  | readLogData address => address

/-- A call as `RamClass` carries it out. -/
def onRamClass (r : RamClass) : Call → RamClass
  | writeLogData address value time => r.writeLogData address value time
  | readLogData _ => r

/-- A call as it is carried out with the chip. -/
def onChip (ram : ℕ → UInt8) : Call → (ℕ → UInt8)
  | writeLogData address value time => LogBackends.writeLogData ram address value time
  | readLogData _ => ram

end Call

/-- The address is written by one of the calls. -/
def Written (calls : List Call) (a : ℕ) : Prop := ∃ value time, .writeLogData a value time ∈ calls

/-! ## Messages -/

section Messages

variable {addr : ℕ}

/-- The chip sees the address that was sent. -/
theorem transfer_message (ram : ℕ → UInt8) (instruction : Byte) (data : List Byte)
    (haddr : addr < ramBytes) :
    transfer ram (instruction :: (toBytes 3 addr ++ data)) =
      if instruction = RAM_INSTR_WRITE then (store ram addr data, data.map fun _ => 0)
      else if instruction = RAM_INSTR_READ then
        (ram, (List.range data.length).map fun i => (ram ((addr + i) % ramBytes)).toBitVec)
      else (ram, data.map fun _ => 0) := by
  have hbytes := fromBytes_toBytes 3 addr
  rw [Nat.mod_eq_of_lt (haddr.trans (by decide))] at hbytes
  rcases hmessage : toBytes 3 addr with _ | ⟨a2, _ | ⟨a1, _ | ⟨a0, _ | ⟨a, rest⟩⟩⟩⟩
  all_goals
    have hlength := congrArg List.length hmessage
    rw [length_toBytes] at hlength
  case cons.cons.cons.nil =>
    rw [hmessage] at hbytes
    simp only [List.cons_append, List.nil_append, transfer, hbytes]
  all_goals simp at hlength

/-- Data that do not reach the end of the chip are stored where they are sent to. -/
theorem store_apply (ram : ℕ → UInt8) (data : List Byte) (hend : addr + data.length ≤ ramBytes)
    (a : ℕ) :
    store ram addr data a =
      if h : addr ≤ a ∧ a < addr + data.length then UInt8.ofBitVec (data.get ⟨a - addr, by omega⟩)
      else ram a := by
  induction data generalizing ram addr with
  | nil =>
      have hnone : ¬ (addr ≤ a ∧ a < addr + ([] : List Byte).length) := by
        rw [List.length_nil]
        omega
      rw [dif_neg hnone]
      rfl
  | cons b data ih =>
      rw [List.length_cons] at hend
      rw [store, ih _ (by omega), Nat.mod_eq_of_lt (by omega : addr < ramBytes)]
      rcases Nat.lt_trichotomy a addr with hlt | rfl | hgt
      · have hne : a ≠ addr := by omega
        rw [dif_neg (by omega), dif_neg (by omega), Function.update_of_ne hne]
      · -- the first byte
        rw [dif_neg (by omega), dif_pos (by simp), Function.update_self]
        simp
      · have hne : a ≠ addr := by omega
        by_cases hin : a < addr + 1 + data.length
        · rw [dif_pos ⟨by omega, hin⟩, dif_pos ⟨by omega, by rw [List.length_cons]; omega⟩]
          have hindex : a - addr = a - (addr + 1) + 1 := by omega
          simp [hindex]
        · rw [dif_neg (by omega), dif_neg (by rw [List.length_cons]; omega),
            Function.update_of_ne hne]

/-- `ram_write` writes the bytes of the buffer to successive addresses. -/
theorem ram_write_eq (ram : ℕ → UInt8) (buf : FourBytes) (hend : addr + 4 ≤ ramBytes) :
    ram_write ram buf addr = RamLog.ram_write ram buf addr := by
  funext a
  unfold LogBackends.ram_write RamLog.ram_write
  rw [transfer_message ram _ _ (by omega), if_pos rfl]
  dsimp only
  rw [store_apply ram _ (by simpa using hend)]
  simp only [List.length_map, List.length_ofFn]
  by_cases hin : addr ≤ a ∧ a < addr + 4
  · rw [dif_pos hin, dif_pos hin, List.get_eq_getElem, List.getElem_map, List.getElem_ofFn]
  · rw [dif_neg hin, dif_neg hin]

/-- `ram_read` reads successive addresses. -/
theorem ram_read_eq (ram : ℕ → UInt8) (hend : addr + 4 ≤ ramBytes) :
    ram_read ram addr = RamLog.ram_read ram addr := by
  have hne : RAM_INSTR_READ ≠ RAM_INSTR_WRITE := by decide
  funext i
  unfold LogBackends.ram_read RamLog.ram_read
  rw [transfer_message ram _ _ (by omega), if_neg hne, if_pos rfl]
  have hi : (addr + (i : ℕ)) % ramBytes = addr + i := Nat.mod_eq_of_lt (by omega)
  simp [List.getD, hi]

end Messages

/-! ## Records -/

section Records

variable {address : ℕ}

/-- The last record of the log ends far below the end of the chip. -/
theorem record_fits (h : address ≤ maxLogAddress) :
    logStartAddress + address * 8 + 4 + 4 ≤ ramBytes := by
  simp only [maxLogAddress, logStartAddress, ramBytes] at *
  omega

/-- The log in the chip is the one of the memory of bytes. -/
theorem readLogData_eq (r : RamClass) (hr : r.USE_NORMAL_RAM = false)
    (h : address ≤ maxLogAddress) : readLogData r.ram address = r.readLogData address := by
  have hfits := record_fits h
  have htime : logStartAddress + address * 8 + 4 ≤ ramBytes := by omega
  unfold LogBackends.readLogData readRAMfloat RamClass.readLogData
  rw [hr, if_neg Bool.false_ne_true, ram_read_eq _ htime, ram_read_eq _ hfits]

theorem writeLogData_eq (r : RamClass) (hr : r.USE_NORMAL_RAM = false)
    (h : address ≤ maxLogAddress) (value time : FourBytes) :
    writeLogData r.ram address value time = (r.writeLogData address value time).ram := by
  have hfits := record_fits h
  have htime : address * 8 + 4 ≤ ramBytes := by
    unfold logStartAddress at hfits
    omega
  unfold LogBackends.writeLogData writeRAMfloat RamClass.writeLogData
  rw [hr, if_neg Bool.false_ne_true, ram_write_eq _ _ htime, ram_write_eq _ _ hfits]

end Records

/-! ## Runs -/

/-- The log in the chip `ram` reads like that of `RamClass` at the addresses of `S`. -/
def Agree (S : Set ℕ) (r : RamClass) (ram : ℕ → UInt8) : Prop :=
  ∀ a ∈ S, a ≤ maxLogAddress → readLogData ram a = r.readLogData a

/-- A write changes one record of the log in the chip. -/
theorem readLogData_writeLogData_chip (ram : ℕ → UInt8) {address a : ℕ}
    (haddress : address ≤ maxLogAddress) (ha : a ≤ maxLogAddress) (value time : FourBytes) :
    readLogData (writeLogData ram address value time) a =
      Function.update (readLogData ram) address ⟨value, time⟩ a := by
  -- the memory of bytes is the external RAM of a `RamClass`
  let r : RamClass := start false (fun _ _ => 0) (fun _ _ => 0) ram
  have hwrite : writeLogData ram address value time = (r.writeLogData address value time).ram :=
    writeLogData_eq r rfl haddress value time
  have hkept : (r.writeLogData address value time).USE_NORMAL_RAM = false := rfl
  calc readLogData (writeLogData ram address value time) a
      = readLogData (r.writeLogData address value time).ram a := by rw [hwrite]
    _ = (r.writeLogData address value time).readLogData a := readLogData_eq _ hkept ha
    _ = Function.update r.readLogData address ⟨value, time⟩ a := by
      rw [readLogData_writeLogData]
    _ = Function.update (readLogData ram) address ⟨value, time⟩ a := by
      by_cases hsame : a = address
      · rw [hsame, Function.update_self, Function.update_self]
      · rw [Function.update_of_ne hsame, Function.update_of_ne hsame]
        exact (readLogData_eq r rfl ha).symm

/-- A call keeps the agreement, and a write extends it. -/
theorem Agree.call {S : Set ℕ} {r : RamClass} {ram : ℕ → UInt8} (h : Agree S r ram) {c : Call}
    (hc : c.address ≤ maxLogAddress) :
    Agree {a | a ∈ S ∨ Written [c] a} (c.onRamClass r) (c.onChip ram) := by
  intro a hmem ha
  cases c with
  | readLogData address =>
      rcases hmem with hmem | ⟨value, time, hwritten⟩
      · exact h a hmem ha
      · cases List.mem_singleton.1 hwritten
  | writeLogData address value time =>
      have haddress : address ≤ maxLogAddress := hc
      have hclass := congrFun (readLogData_writeLogData r address value time) a
      show readLogData (writeLogData ram address value time) a =
        (r.writeLogData address value time).readLogData a
      rw [hclass, readLogData_writeLogData_chip ram haddress ha]
      by_cases hsame : a = address
      · rw [hsame, Function.update_self, Function.update_self]
      · rw [Function.update_of_ne hsame, Function.update_of_ne hsame]
        rcases hmem with hmem | ⟨value', time', hwritten⟩
        · exact h a hmem ha
        · cases List.mem_singleton.1 hwritten
          exact absurd rfl hsame

theorem Agree.exec {S : Set ℕ} {r : RamClass} {ram : ℕ → UInt8} (h : Agree S r ram)
    {calls : List Call} (hcalls : ∀ c ∈ calls, c.address ≤ maxLogAddress) :
    Agree {a | a ∈ S ∨ Written calls a} (Run.exec Call.onRamClass r calls)
      (Run.exec Call.onChip ram calls) := by
  induction calls generalizing S r ram with
  | nil =>
      rintro a (hmem | ⟨value, time, hwritten⟩) ha
      · exact h a hmem ha
      · exact absurd hwritten List.not_mem_nil
  | cons c calls ih =>
      have hnext := ih (h.call (hcalls c (List.mem_cons_self ..)))
        fun c' hc' => hcalls c' (List.mem_cons_of_mem _ hc')
      rintro a hmem ha
      apply hnext a _ ha
      rcases hmem with hmem | ⟨value, time, hwritten⟩
      · exact Or.inl (Or.inl hmem)
      · rcases List.mem_cons.1 hwritten with hfirst | hrest
        · exact Or.inl (Or.inr ⟨value, time, List.mem_singleton.2 hfirst⟩)
        · exact Or.inr ⟨value, time, hrest⟩

/-- Whatever the two memories hold at first: after any calls at addresses of the log, a record that
was written reads back the same, value and time, from the arrays and from the chip. -/
theorem backends_agree (normalRamValue normalRamTime : ℕ → FourBytes) (ram ram' : ℕ → UInt8)
    {calls : List Call} (hcalls : ∀ c ∈ calls, c.address ≤ maxLogAddress) {a : ℕ}
    (ha : Written calls a) :
    readLogData (Run.exec Call.onChip ram calls) a =
      (Run.exec Call.onRamClass (start true normalRamValue normalRamTime ram') calls).readLogData
        a := by
  have hnone : Agree ∅ (start true normalRamValue normalRamTime ram') ram :=
    fun _ hmem => False.elim hmem
  have hmax : a ≤ maxLogAddress := by
    rcases ha with ⟨value, time, hwritten⟩
    exact hcalls _ hwritten
  exact hnone.exec hcalls a (Or.inr ha) hmax

/-- The last record of the log and the one before it. -/
def lastCalls : List Call :=
  [.writeLogData 300 (fun _ => 1) (fun _ => 2), .writeLogData 299 (fun _ => 3) (fun _ => 4)]

theorem backends_agree_last :
    let r : RamClass := start true (fun _ _ => 0) (fun _ _ => 0) (fun _ => 0)
    readLogData (Run.exec Call.onChip (fun _ => 0) lastCalls) 300 =
      (Run.exec Call.onRamClass r lastCalls).readLogData 300 := by
  have hcalls : ∀ c ∈ lastCalls, c.address ≤ maxLogAddress := by decide
  have hwritten : Written lastCalls 300 := ⟨fun _ => 1, fun _ => 2, List.mem_cons_self ..⟩
  exact backends_agree (fun _ _ => 0) (fun _ _ => 0) (fun _ => 0) (fun _ => 0) hcalls hwritten

end LogBackends
end PoorMansSmu
