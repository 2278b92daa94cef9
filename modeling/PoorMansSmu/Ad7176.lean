import PoorMansSmu.Lib.Run
import PoorMansSmu.Lib.Wire
import PoorMansSmu.SmuHal

/-!
# Ad7176 — the register file of the ADC, and `setGPIO` as a read, a change and a write

The driver reads and writes the registers of the chip in messages of bytes, with or without a check
byte behind them.  Driver and chip take the kind of check from the interface mode register, and then
a read brings the content of the register and a write puts it there, `readRegister` and
`writeRegister`.

`setGPIO` reads entry 6 of `AD7176_regs`, which is the identity register, and writes the GPIO
register.  By `gpio_framed_iff` its calls keep the upper bits of the GPIO register exactly when the
two registers agree there to begin with.
-/

namespace PoorMansSmu
namespace Ad7176

open Run Wire SmuHal Hardware

/-! ## The driver -/

inductive CRC_MODE
  | disable
  | use_CRC
  | use_XOR
  deriving DecidableEq, Repr

/-- `AD7176_st` -/
structure State where
  useCRC : CRC_MODE
  dataStatus : Bool

/-- `st_reg` -/
structure StReg where
  addr : ℕ
  size : ℕ
  extra : ℕ := 0
  value : ℕ
  deriving DecidableEq, Repr

def AD7176_regs : List StReg :=
  [⟨0x00, 1, 0, 0x0000⟩, ⟨0x01, 2, 0, 0x0000⟩, ⟨0x02, 2, 0, 0x0100⟩, ⟨0x03, 3, 0, 0x0000⟩,
    ⟨0x04, 3, 0, 0x0000⟩, ⟨0x06, 2, 0, 0x0000⟩, ⟨0x07, 2, 0, 0x0000⟩, ⟨0x10, 2, 0, 0x8002⟩,
    ⟨0x11, 2, 0, 0x0000⟩, ⟨0x12, 2, 0, 0x0000⟩, ⟨0x13, 2, 0, 0x0000⟩, ⟨0x20, 2, 0, 0x0000⟩,
    ⟨0x21, 2, 0, 0x0000⟩, ⟨0x22, 2, 0, 0x0000⟩, ⟨0x23, 2, 0, 0x0000⟩, ⟨0x28, 2, 0, 0x020A⟩,
    ⟨0x29, 2, 0, 0x0200⟩, ⟨0x2a, 2, 0, 0x0200⟩, ⟨0x2b, 2, 0, 0x0200⟩, ⟨0x30, 3, 0, 0⟩,
    ⟨0x31, 3, 0, 0⟩, ⟨0x32, 3, 0, 0⟩, ⟨0x33, 3, 0, 0⟩, ⟨0x38, 3, 0, 0⟩, ⟨0x39, 3, 0, 0⟩,
    ⟨0x3a, 3, 0, 0⟩, ⟨0x3b, 3, 0, 0⟩, ⟨0xFF, 1, 0, 0⟩]

def CRC8_POLYNOMIAL_REPRESENTATION : Byte := 0x07

/-- The inner loop of `AD7176_ComputeCRC8`, over the last `n` bits of a byte. -/
def crcBits (byte : Byte) : (n : ℕ) → (crc : Byte) → Byte
  | 0, crc => crc
  | n + 1, crc =>
      let shifted := crc <<< 1
      crcBits byte n (if crc.getLsbD 7 != byte.getLsbD n then
        shifted ^^^ CRC8_POLYNOMIAL_REPRESENTATION else shifted)

def AD7176_ComputeCRC8 : List Byte → Byte := digest (fun crc byte => crcBits byte 8 crc) 0#8

def AD7176_ComputeXOR8 : List Byte → Byte := digest (fun xorv byte => xorv ^^^ byte) 0#8

def AD7176_UpdateSettings (interfaceMode : ℕ) : State where
  useCRC :=
    if interfaceMode &&& 0x08 = 0x08 then .use_CRC
    else if interfaceMode &&& 0x04 = 0x04 then .use_XOR
    else .disable
  dataStatus := interfaceMode &&& 0x40 ≠ 0

/-- The command word of a read; that of a write is the address alone. -/
def readCommand (addr : ℕ) : Byte := BitVec.ofNat 8 (0x40 ||| addr)

/-! ## The chip -/

/-- The registers of the chip. -/
structure Chip where
  adc : ℕ → ℕ

namespace Chip

def registerSize (addr : ℕ) : ℕ :=
  ((AD7176_regs.find? fun reg => reg.addr = addr).map StReg.size).getD 2

/-- The check and the status byte that the chip's own settings ask for. -/
def settings (chip : Chip) : State := AD7176_UpdateSettings (chip.adc 0x02)

/-- The bytes of a register, with the status byte behind the data where it is asked for. -/
def payload (chip : Chip) (addr : ℕ) : List Byte :=
  toBytes (registerSize addr) (chip.adc addr) ++
    if chip.settings.dataStatus ∧ addr = 0x04 then [BitVec.ofNat 8 (chip.adc 0x00)] else []

/-- The check byte covers the command too. -/
def checkByte (chip : Chip) (msg : List Byte) : List Byte :=
  match chip.settings.useCRC with
  | .disable => []
  | .use_CRC => [AD7176_ComputeCRC8 msg]
  | .use_XOR => [AD7176_ComputeXOR8 msg]

def answer (chip : Chip) (addr : ℕ) : List Byte :=
  chip.payload addr ++ chip.checkByte (readCommand addr :: chip.payload addr)

/-- A message with a read command is answered from its second byte on. -/
def transferRead (chip : Chip) (command : Byte) (bytesNumber : ℕ) : List Byte :=
  (0xFF :: chip.answer (command.toNat % 0x40)).take bytesNumber

/-- A message with a write command sets a register, if its check byte is right. -/
def transferWrite (chip : Chip) (data : List Byte) : Chip :=
  let addr := (data.headD 0).toNat % 0x40
  if chip.settings.useCRC ≠ .disable ∧ AD7176_ComputeCRC8 data ≠ 0 then chip
  else
    { adc := Function.update chip.adc addr
        (fromBytes ((data.drop 1).take (registerSize addr))) }

end Chip

/-! ## Reading and writing registers -/

/-- The check of a message received. -/
def check8 (useCRC : CRC_MODE) (msgBuf : List Byte) : Byte :=
  match useCRC with
  | .disable => 0
  | .use_CRC => AD7176_ComputeCRC8 msgBuf
  | .use_XOR => AD7176_ComputeXOR8 msgBuf

/-- `read_len` -/
def readLen (st : State) (pReg : StReg) : ℕ :=
  let read_len := pReg.size + 1
  let read_len := if st.useCRC ≠ .disable then read_len + 1 else read_len
  if st.dataStatus ∧ pReg.addr = 0x04 then read_len + 1 else read_len

/-- What is returned is the return value and the entry read; a message that fails its check leaves
the entry as it was.  The transfer itself always succeeds. -/
def AD7176_ReadRegister (st : State) (chip : Chip) (pReg : StReg) : ℤ × StReg :=
  let buffer := chip.transferRead (readCommand pReg.addr) (readLen st pReg)
  if check8 st.useCRC (readCommand pReg.addr :: buffer.drop 1) ≠ 0 then (-1, pReg)
  else
    (readLen st pReg, { pReg with
      extra :=
        if st.dataStatus ∧ pReg.addr = 0x04 then (buffer.getD (pReg.size + 1) 0).toNat
        else pReg.extra
      value := fromBytes ((buffer.drop 1).take pReg.size) })

def AD7176_WriteRegister (st : State) (chip : Chip) (reg : StReg) : Chip :=
  let wrBuf := BitVec.ofNat 8 reg.addr :: toBytes reg.size reg.value
  let wrBuf := if st.useCRC ≠ .disable then wrBuf ++ [AD7176_ComputeCRC8 wrBuf] else wrBuf
  chip.transferWrite wrBuf

/-- Behind a message, its own check byte brings the check to `0`. -/
theorem crc_concat_self (msg : List Byte) :
    AD7176_ComputeCRC8 (msg ++ [AD7176_ComputeCRC8 msg]) = 0 :=
  digest_concat_self _ _ (by decide +kernel) msg

theorem xor_concat_self (msg : List Byte) :
    AD7176_ComputeXOR8 (msg ++ [AD7176_ComputeXOR8 msg]) = 0 :=
  digest_concat_self _ _ (fun _ => BitVec.xor_self) msg

theorem readCommand_addr {addr : ℕ} (haddr : addr < 0x40) :
    (readCommand addr).toNat % 0x40 = addr := by
  have hor : 0x40 ||| addr = addr + 0x40 := by
    rw [Nat.or_comm]
    exact Nat.or_two_pow_eq_add_of_lt (n := 6) haddr
  rw [readCommand, BitVec.toNat_ofNat, hor]
  omega

section SameSettings

variable (chip : Chip)

/-- An answer passes the check of a driver with the chip's own settings. -/
theorem check8_answer (addr : ℕ) :
    check8 chip.settings.useCRC (readCommand addr :: chip.answer addr) = 0 := by
  rw [Chip.answer, Chip.checkByte, ← List.cons_append]
  cases chip.settings.useCRC with
  | disable => rfl
  | use_CRC => exact crc_concat_self _
  | use_XOR => exact xor_concat_self _

/-- The driver asks for as many bytes as the chip has to send. -/
theorem length_answer {pReg : StReg} (hsize : pReg.size = Chip.registerSize pReg.addr) :
    (chip.answer pReg.addr).length + 1 = readLen chip.settings pReg := by
  rw [Chip.answer, List.length_append, Chip.payload, List.length_append, length_toBytes]
  have hcheck (msg : List Byte) :
      (chip.checkByte msg).length = if chip.settings.useCRC ≠ .disable then 1 else 0 := by
    rw [Chip.checkByte]
    cases chip.settings.useCRC <;> rfl
  simp only [hcheck, readLen, hsize]
  split_ifs <;> rfl

/-- With the chip's own settings, a read brings the content of the register. -/
theorem readRegister (pReg : StReg) (haddr : pReg.addr < 0x40)
    (hsize : pReg.size = Chip.registerSize pReg.addr) :
    (AD7176_ReadRegister chip.settings chip pReg).2 = { pReg with
      extra := (AD7176_ReadRegister chip.settings chip pReg).2.extra
      value := chip.adc pReg.addr % 256 ^ pReg.size } := by
  -- the transfer is as long as the answer, and the data stand in front of status and check byte
  have hall : chip.transferRead (readCommand pReg.addr) (readLen chip.settings pReg) =
      0xFF :: chip.answer pReg.addr := by
    rw [Chip.transferRead, readCommand_addr haddr]
    exact List.take_of_length_le (length_answer chip hsize).le
  have hdata : (chip.answer pReg.addr).take pReg.size =
      toBytes pReg.size (chip.adc pReg.addr) := by
    rw [Chip.answer, Chip.payload, ← hsize, List.append_assoc]
    exact List.take_left' (length_toBytes ..)
  simp only [AD7176_ReadRegister, hall, List.drop_succ_cons, List.drop_zero, check8_answer,
    ne_eq, not_true_eq_false, if_false, hdata, fromBytes_toBytes]

/-- With the chip's own settings, a write puts the value into the register. -/
theorem writeRegister (reg : StReg) (haddr : reg.addr < 0x40)
    (hsize : reg.size = Chip.registerSize reg.addr) :
    AD7176_WriteRegister chip.settings chip reg =
      { adc := Function.update chip.adc reg.addr (reg.value % 256 ^ reg.size) } := by
  have hcommand : (BitVec.ofNat 8 reg.addr).toNat % 0x40 = reg.addr := by
    rw [BitVec.toNat_ofNat]
    omega
  -- with or without a check byte, the chip takes the data if the check is right
  have haccepted (check : List Byte) (hright : chip.settings.useCRC ≠ .disable →
      AD7176_ComputeCRC8 (BitVec.ofNat 8 reg.addr :: (toBytes reg.size reg.value ++ check)) = 0) :
      chip.transferWrite (BitVec.ofNat 8 reg.addr :: (toBytes reg.size reg.value ++ check)) =
        { adc := Function.update chip.adc reg.addr (reg.value % 256 ^ reg.size) } := by
    have hdata : (toBytes reg.size reg.value ++ check).take reg.size =
        toBytes reg.size reg.value := List.take_left' (length_toBytes ..)
    simp only [Chip.transferWrite, List.headD_cons, hcommand, List.drop_succ_cons, List.drop_zero,
      ← hsize, hdata, fromBytes_toBytes]
    rw [if_neg fun h => h.2 (hright h.1)]
  by_cases hcrc : chip.settings.useCRC ≠ .disable
  · simp only [AD7176_WriteRegister, if_pos hcrc]
    exact haccepted _ fun _ => crc_concat_self (BitVec.ofNat 8 reg.addr :: _)
  · have hplain := haccepted [] fun h => absurd h hcrc
    rw [List.append_nil] at hplain
    simp only [AD7176_WriteRegister, if_neg hcrc]
    exact hplain

end SameSettings

/-! ## setGPIO -/

/-- The driver, the two bits remembered, and the chip. -/
structure Driver where
  chip : Chip
  AD7176_st : State
  regs : ℕ → StReg
  gpio0 : Bool := false
  gpio1 : Bool := false

/-- After `initADC`, which ends with the settings of the chip. -/
def initADC (adc : ℕ → ℕ) : Driver where
  chip := ⟨adc⟩
  AD7176_st := AD7176_UpdateSettings (adc 0x02)
  regs := fun i => AD7176_regs.getD i ⟨0xFF, 1, 0, 0⟩

/-- The output enables, and the bits remembered as data. -/
def gpioBits (gpio0 gpio1 : Bool) : ℕ :=
  if gpio0 = false ∧ gpio1 = false then 0xC
  else if gpio0 = true ∧ gpio1 = false then 0x0D
  else if gpio0 = false ∧ gpio1 = true then 0x0E
  else 0x0F

def setGpio (d : Driver) (nr : ℤ) (on : Bool) : Driver :=
  let reg := (AD7176_ReadRegister d.AD7176_st d.chip (d.regs 6)).2
  let v := reg.value &&& 0xfff0
  let gpio0 := if nr = 0 ∧ on then true else d.gpio0
  let gpio0 := if nr = 0 ∧ !on then false else gpio0
  let gpio1 := if nr = 1 ∧ on then true else d.gpio1
  let gpio1 := if nr = 1 ∧ !on then false else gpio1
  let v := v + gpioBits gpio0 gpio1
  { d with
    chip := AD7176_WriteRegister d.AD7176_st d.chip ⟨0x06, 2, 0, v⟩
    regs := Function.update d.regs 6 reg
    gpio0, gpio1 }

/-- The driver has the settings of the chip, and entry 6 is that of the identity register. -/
structure InStep (d : Driver) : Prop where
  settings : d.AD7176_st = d.chip.settings
  addr : (d.regs 6).addr = 0x07
  size : (d.regs 6).size = 2

theorem initADC_inStep (adc : ℕ → ℕ) : InStep (initADC adc) := ⟨rfl, rfl, rfl⟩

/-- The bits remembered after a call. -/
def remember (nr : ℤ) (on : Bool) (i : ℤ) (bit : Bool) : Bool := if nr = i then on else bit

theorem remember_eq (nr i : ℤ) (on bit : Bool) :
    (if nr = i ∧ !on then false else if nr = i ∧ on then true else bit) = remember nr on i bit := by
  unfold remember
  cases on <;> by_cases h : nr = i <;> simp [h]

theorem remember_update (requested : ℤ → Bool) (nr i : ℤ) (on : Bool) :
    remember nr on i (requested i) = Function.update requested nr on i := by
  unfold remember
  rw [Function.update_apply]
  simp only [eq_comm]

theorem gpioBits_lt (gpio0 gpio1 : Bool) : gpioBits gpio0 gpio1 < 16 := by
  cases gpio0 <;> cases gpio1 <;> decide

/-- Bits 15..4 of a register. -/
def upperBits (v : ℕ) : ℕ := v / 16 % 4096

theorem and_fff0 (v : ℕ) : v &&& 0xfff0 = upperBits v * 16 := by
  have hmask : (0xfff0 : ℕ) = (2 ^ 12 - 1) <<< 4 := rfl
  calc
    v &&& 0xfff0 = ((v >>> 4) &&& (2 ^ 12 - 1)) <<< 4 := by
          -- bit by bit, with the lowest four cut off
          rw [hmask]
          apply Nat.eq_of_testBit_eq
          intro i
          simp only [Nat.testBit_and, Nat.testBit_shiftLeft, Nat.testBit_shiftRight]
          by_cases hi : 4 ≤ i
          · simp [hi, Nat.add_sub_cancel' hi]
          · simp [hi]
    _ = upperBits v * 16 := by
          rw [Nat.and_two_pow_sub_one_eq_mod, Nat.shiftLeft_eq, Nat.shiftRight_eq_div_pow]
          rfl

/-- What a call comes to: the upper bits of the identity register, and the bits remembered, go to
the GPIO register. -/
theorem InStep.setGpio_eq {d : Driver} (h : InStep d) (nr : ℤ) (on : Bool) :
    InStep (setGpio d nr on) ∧
      (setGpio d nr on).gpio0 = remember nr on 0 d.gpio0 ∧
      (setGpio d nr on).gpio1 = remember nr on 1 d.gpio1 ∧
      (setGpio d nr on).chip.adc = Function.update d.chip.adc 0x06
        (upperBits (d.chip.adc 0x07) * 16 +
          gpioBits (remember nr on 0 d.gpio0) (remember nr on 1 d.gpio1)) := by
  have hread := readRegister d.chip (d.regs 6) (by rw [h.addr]; decide)
    (by rw [h.addr, h.size]; decide)
  rw [← h.settings] at hread
  -- what is read fits the register
  have hvalue : (AD7176_ReadRegister d.AD7176_st d.chip (d.regs 6)).2.value &&& 0xfff0 =
      upperBits (d.chip.adc 0x07) * 16 := by
    rw [hread, and_fff0]
    simp only [h.addr, h.size, upperBits]
    omega
  have hbits := gpioBits_lt (remember nr on 0 d.gpio0) (remember nr on 1 d.gpio1)
  have hwrite := writeRegister d.chip ⟨0x06, 2, 0, upperBits (d.chip.adc 0x07) * 16 +
    gpioBits (remember nr on 0 d.gpio0) (remember nr on 1 d.gpio1)⟩
    (by change 0x06 < 0x40; decide) (by rfl)
  rw [← h.settings, Nat.mod_eq_of_lt (by simp only [upperBits]; omega)] at hwrite
  have hchip : (setGpio d nr on).chip =
      { adc := Function.update d.chip.adc 0x06 (upperBits (d.chip.adc 0x07) * 16 +
          gpioBits (remember nr on 0 d.gpio0) (remember nr on 1 d.gpio1)) } := by
    simp only [setGpio, remember_eq, hvalue]
    exact hwrite
  have hentry : (setGpio d nr on).regs 6 =
      (AD7176_ReadRegister d.AD7176_st d.chip (d.regs 6)).2 := by
    simp only [setGpio, Function.update_self]
  rw [hread] at hentry
  refine ⟨⟨?_, ?_, ?_⟩, ?_, ?_, ?_⟩
  · -- the interface mode register is not written
    rw [Chip.settings, hchip]
    exact h.settings
  · rw [hentry]
    exact h.addr
  · rw [hentry]
    exact h.size
  · simp only [setGpio, remember_eq]
  · simp only [setGpio, remember_eq]
  · rw [hchip]

/-- The object in `SmuHal` sees the same registers and remembers the same bits. -/
structure Shows (d : Driver) (s : ADCClass) : Prop where
  adc : s.hw.adc = d.chip.adc
  gpio0 : s.gpio0 = d.gpio0
  gpio1 : s.gpio1 = d.gpio1

theorem shows_setGpio {d : Driver} {s : ADCClass} (h : Shows d s) (hd : InStep d) (nr : ℕ)
    (on : Bool) : Shows (setGpio d nr on) (s.setGpio nr on) := by
  obtain ⟨-, hgpio0, hgpio1, hchip⟩ := hd.setGpio_eq nr on
  have h0 : (s.setGpio nr on).gpio0 = remember nr on 0 d.gpio0 := by
    rw [← h.gpio0]
    simp only [ADCClass.setGpio, ADCClass.write, remember, Nat.cast_eq_zero]
    split_ifs <;> rfl
  have h1 : (s.setGpio nr on).gpio1 = remember nr on 1 d.gpio1 := by
    rw [← h.gpio1]
    simp only [ADCClass.setGpio, ADCClass.write, remember, Nat.cast_eq_one]
    split_ifs <;> rfl
  have hwritten : (s.setGpio nr on).hw.adc = Function.update s.hw.adc 0x06
      ((s.hw.adc 0x07 &&& 0xfff0) + gpioBits (s.setGpio nr on).gpio0 (s.setGpio nr on).gpio1) := by
    funext a
    simp only [ADCClass.setGpio, ADCClass.write, Hw.apply, Function.update_apply]
    split_ifs <;> cases s.gpio0 <;> cases s.gpio1 <;> cases on <;> rfl
  constructor
  · rw [hwritten, h0, h1, hchip, h.adc, and_fff0]
  · rw [h0, hgpio0]
  · rw [h1, hgpio1]

/-! ## Calls -/

/-- The driver, and what was asked for last. -/
structure Calls where
  driver : Driver
  requested : ℤ → Bool := fun _ => false

/-- A call of `setGPIO`: number and level. -/
abbrev Call := ℤ × Bool

def step (c : Calls) (call : Call) : Calls where
  driver := setGpio c.driver call.1 call.2
  requested := Function.update c.requested call.1 call.2

def start (adc : ℕ → ℕ) : Calls where
  driver := initADC adc

/-- The call writes the GPIO register only, keeps its upper bits, enables both outputs and sets them
to what was asked for last. -/
structure Framed (c : Calls) (call : Call) : Prop where
  others : ∀ a ≠ 0x06, (step c call).driver.chip.adc a = c.driver.chip.adc a
  width : (step c call).driver.chip.adc 0x06 < 2 ^ 16
  upper : upperBits ((step c call).driver.chip.adc 0x06) = upperBits (c.driver.chip.adc 0x06)
  enabled1 : ((step c call).driver.chip.adc 0x06).testBit 3 = true
  enabled0 : ((step c call).driver.chip.adc 0x06).testBit 2 = true
  data1 : ((step c call).driver.chip.adc 0x06).testBit 1 = (step c call).requested 1
  data0 : ((step c call).driver.chip.adc 0x06).testBit 0 = (step c call).requested 0

/-- The bits remembered are those asked for. -/
structure Inv (c : Calls) : Prop where
  inStep : InStep c.driver
  gpio0 : c.driver.gpio0 = c.requested 0
  gpio1 : c.driver.gpio1 = c.requested 1

theorem start_inv (adc : ℕ → ℕ) : Inv (start adc) := ⟨initADC_inStep adc, rfl, rfl⟩

section Step

variable {c : Calls} (h : Inv c) (call : Call)

include h

theorem Inv.step : Inv (step c call) := by
  obtain ⟨hstep, hgpio0, hgpio1, -⟩ := h.inStep.setGpio_eq call.1 call.2
  refine ⟨hstep, ?_, ?_⟩
  · exact hgpio0.trans (by rw [h.gpio0, remember_update]; rfl)
  · exact hgpio1.trans (by rw [h.gpio1, remember_update]; rfl)

theorem Inv.written :
    (Ad7176.step c call).driver.chip.adc = Function.update c.driver.chip.adc 0x06
      (upperBits (c.driver.chip.adc 0x07) * 16 +
        gpioBits ((Ad7176.step c call).requested 0) ((Ad7176.step c call).requested 1)) := by
  have hnext := h.step call
  obtain ⟨-, hgpio0, hgpio1, hchip⟩ := h.inStep.setGpio_eq call.1 call.2
  rw [← hnext.gpio0, ← hnext.gpio1]
  change (setGpio c.driver call.1 call.2).chip.adc = Function.update c.driver.chip.adc 0x06
    (upperBits (c.driver.chip.adc 0x07) * 16 +
      gpioBits (setGpio c.driver call.1 call.2).gpio0 (setGpio c.driver call.1 call.2).gpio1)
  rw [hgpio0, hgpio1, hchip]

/-- A call is in order exactly when the upper bits of the identity register are those of the GPIO
register. -/
theorem Inv.framed_iff :
    Framed c call ↔ upperBits (c.driver.chip.adc 0x06) = upperBits (c.driver.chip.adc 0x07) := by
  have hwritten := h.written call
  have hnew : (Ad7176.step c call).driver.chip.adc 0x06 = upperBits (c.driver.chip.adc 0x07) * 16 +
      gpioBits ((Ad7176.step c call).requested 0) ((Ad7176.step c call).requested 1) := by
    rw [hwritten, Function.update_self]
  have hlow := gpioBits_lt ((Ad7176.step c call).requested 0) ((Ad7176.step c call).requested 1)
  have hupper : upperBits ((Ad7176.step c call).driver.chip.adc 0x06) =
      upperBits (c.driver.chip.adc 0x07) := by
    rw [hnew]
    simp only [upperBits]
    omega
  constructor
  · intro hframed
    exact hframed.upper.symm.trans hupper
  · intro hsame
    -- the low bits are the ones added
    have hbit (i : ℕ) (hi : i < 4) : ((Ad7176.step c call).driver.chip.adc 0x06).testBit i =
        (gpioBits ((Ad7176.step c call).requested 0)
          ((Ad7176.step c call).requested 1)).testBit i := by
      rw [hnew, Nat.mul_comm]
      exact Nat.testBit_two_pow_mul_add (i := 4) _ hlow i |>.trans (if_pos hi)
    constructor
    case others =>
      intro a ha
      rw [hwritten, Function.update_of_ne ha]
    case width =>
      rw [hnew]
      simp only [upperBits]
      omega
    case upper => exact hupper.trans hsame.symm
    case enabled1 =>
      rw [hbit 3 (by decide)]
      cases (Ad7176.step c call).requested 0 <;> cases (Ad7176.step c call).requested 1 <;> rfl
    case enabled0 =>
      rw [hbit 2 (by decide)]
      cases (Ad7176.step c call).requested 0 <;> cases (Ad7176.step c call).requested 1 <;> rfl
    case data1 =>
      rw [hbit 1 (by decide)]
      cases (Ad7176.step c call).requested 0 <;> cases (Ad7176.step c call).requested 1 <;> rfl
    case data0 =>
      rw [hbit 0 (by decide)]
      cases (Ad7176.step c call).requested 0 <;> cases (Ad7176.step c call).requested 1 <;> rfl

end Step

/-- After one call the two registers agree, so that only the first call matters. -/
theorem Inv.guarded_framed_iff {c : Calls} (h : Inv c) (calls : List Call) :
    Guarded Ad7176.step Framed c calls ↔
      calls = [] ∨ upperBits (c.driver.chip.adc 0x06) = upperBits (c.driver.chip.adc 0x07) := by
  induction calls generalizing c with
  | nil => simp
  | cons call calls ih =>
      rw [guarded_cons, ih (h.step call), h.framed_iff call]
      -- a call copies the upper bits of the identity register, which it does not change
      have hnext : upperBits ((Ad7176.step c call).driver.chip.adc 0x06) =
          upperBits ((Ad7176.step c call).driver.chip.adc 0x07) := by
        rw [h.written call, Function.update_self, Function.update_of_ne (by decide)]
        have hlow := gpioBits_lt ((Ad7176.step c call).requested 0)
          ((Ad7176.step c call).requested 1)
        simp only [upperBits]
        omega
      constructor
      · rintro ⟨hsame, -⟩
        exact Or.inr hsame
      · rintro (hnil | hsame)
        · exact absurd hnil (List.cons_ne_nil _ _)
        · exact ⟨hsame, Or.inr hnext⟩

/-- Whatever is in the registers at the start, all calls keep the frame exactly when the upper bits
of the GPIO register are those of the identity register, or there is no call. -/
theorem gpio_framed_iff (adc : ℕ → ℕ) (calls : List Call) :
    Guarded step Framed (start adc) calls ↔
      calls = [] ∨ upperBits (adc 0x06) = upperBits (adc 0x07) :=
  (start_inv adc).guarded_framed_iff calls

/-- The registers as `initADC` sets them up, with an identity. -/
def initialised (a : ℕ) : ℕ :=
  if a = 0x06 then 0x080C else if a = 0x07 then 0x0C94 else 0

/-- The first call on the board sets bits 4, 7 and 10 of the GPIO register. -/
theorem gpio_not_framed : ¬ Guarded step Framed (start initialised) [(1, false)] := by
  rintro ⟨hframed, -⟩
  have hupper := hframed.upper
  revert hupper
  decide +kernel

end Ad7176
end PoorMansSmu
