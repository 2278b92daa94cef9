import PoorMansSmu.Ad7176
import PoorMansSmu.Lib.Crc

/-!
# Ad7176Noise — register accesses over a line that changes bits

With the cyclic check on, driver and chip drop the messages whose check is wrong.  So an access over
a line that changes up to three bits of a message, any odd number of them, or any within eight
consecutive ones, either takes place or does nothing but report.

- `received`, `wrBuf`   : what the driver makes of the bytes that arrive, and the bytes it sends;
- `Found`               : the errors that the check finds;
- `Registers.step`      : what an access is for;
- `noisy_run`           : a run over such a line, seen as accesses that take place or fail.
-/

namespace PoorMansSmu
namespace Ad7176

open Run Wire

/-! ## The check on bits -/

/-- The last `n` bits of a byte, the highest one first. -/
def lowBits (byte : Byte) : ℕ → List Bool
  | 0 => []
  | n + 1 => byte.getLsbD n :: lowBits byte n

def bits (msg : List Byte) : List Bool := msg.flatMap fun byte => lowBits byte 8

theorem bits_cons (byte : Byte) (msg : List Byte) :
    bits (byte :: msg) = lowBits byte 8 ++ bits msg := rfl

/-- A message after the line has changed the bits that are set in `noise`. -/
def disturb (msg noise : List Byte) : List Byte := List.zipWith (· ^^^ ·) msg noise

theorem crcBits_eq (byte : Byte) (n : ℕ) (crc : Byte) :
    crcBits byte n crc = Crc.remainder CRC8_POLYNOMIAL_REPRESENTATION crc (lowBits byte n) := by
  induction n generalizing crc with
  | zero => rfl
  | succ n ih =>
      rw [crcBits, lowBits, Crc.remainder_cons, ← ih]
      rfl

theorem computeCRC8_eq (msg : List Byte) :
    AD7176_ComputeCRC8 msg = Crc.remainder CRC8_POLYNOMIAL_REPRESENTATION 0 (bits msg) := by
  have hfold (crc : Byte) : msg.foldl (fun crc byte => crcBits byte 8 crc) crc =
      Crc.remainder CRC8_POLYNOMIAL_REPRESENTATION crc (bits msg) := by
    induction msg generalizing crc with
    | nil => rfl
    | cons byte msg ih =>
        rw [List.foldl_cons, ih, bits_cons, Crc.remainder_append, crcBits_eq]
  exact hfold 0

theorem length_lowBits (byte : Byte) (n : ℕ) : (lowBits byte n).length = n := by
  induction n with
  | zero => rfl
  | succ n ih => rw [lowBits, List.length_cons, ih]

theorem length_bits (msg : List Byte) : (bits msg).length = 8 * msg.length := by
  induction msg with
  | nil => rfl
  | cons byte msg ih =>
      rw [bits_cons, List.length_append, length_lowBits, ih, List.length_cons]
      omega

theorem lowBits_xor (a b : Byte) (n : ℕ) :
    lowBits (a ^^^ b) n = List.zipWith Bool.xor (lowBits a n) (lowBits b n) := by
  induction n with
  | zero => rfl
  | succ n ih =>
      rw [lowBits, ih, BitVec.getLsbD_xor]
      rfl

theorem bits_disturb {msg noise : List Byte} (h : msg.length = noise.length) :
    bits (disturb msg noise) = List.zipWith Bool.xor (bits msg) (bits noise) := by
  induction msg generalizing noise with
  | nil => rfl
  | cons a msg ih =>
      obtain ⟨b, noise, rfl⟩ := List.exists_cons_of_length_eq_add_one h.symm
      have hrest := ih (Nat.succ.inj h)
      have hheads : (lowBits a 8).length = (lowBits b 8).length := by
        rw [length_lowBits, length_lowBits]
      change lowBits (a ^^^ b) 8 ++ bits (disturb msg noise) =
        List.zipWith Bool.xor (lowBits a 8 ++ bits msg) (lowBits b 8 ++ bits noise)
      rw [List.zipWith_append hheads, lowBits_xor, hrest]

/-- The check is linear. -/
theorem computeCRC8_disturb {msg noise : List Byte} (h : msg.length = noise.length) :
    AD7176_ComputeCRC8 (disturb msg noise) =
      AD7176_ComputeCRC8 msg ^^^ AD7176_ComputeCRC8 noise := by
  have hbits : (bits msg).length = (bits noise).length := by rw [length_bits, length_bits, h]
  have hlinear := Crc.remainder_xor CRC8_POLYNOMIAL_REPRESENTATION 0 0 hbits
  rw [BitVec.xor_self] at hlinear
  rw [computeCRC8_eq, computeCRC8_eq, computeCRC8_eq, bits_disturb h]
  exact hlinear

/-! ## The errors that are found -/

/-- All wrong bits are among eight consecutive ones, or their number is odd or two. -/
def Found (noise : List Byte) : Prop :=
  (∃ before burst after,
    bits noise = List.replicate before false ++ (burst ++ List.replicate after false) ∧
      burst.length ≤ 8 ∧ true ∈ burst) ∨
  (bits noise).count true % 2 = 1 ∨ (bits noise).count true = 2

def parity8 (crc : Byte) : Bool := (lowBits crc 8).foldl Bool.xor false

/-- The polynomial is a multiple of `x + 1`. -/
def crcParity : Crc.Parity CRC8_POLYNOMIAL_REPRESENTATION where
  parity := parity8
  zero := by decide
  feed := by decide +kernel

theorem crc_aperiodic : Crc.Aperiodic CRC8_POLYNOMIAL_REPRESENTATION 120 := by
  unfold Crc.Aperiodic
  decide +kernel

theorem Found.crc_ne {noise : List Byte} (h : Found noise) (hlength : noise.length ≤ 15) :
    AD7176_ComputeCRC8 noise ≠ 0 := by
  rw [computeCRC8_eq]
  rcases h with ⟨before, burst, after, hbits, hburst, hwrong⟩ | hodd | htwo
  · rw [hbits]
    exact Crc.remainder_burst (by decide) hburst hwrong
  · exact Crc.remainder_odd crcParity hodd
  · have hbits := length_bits noise
    exact Crc.remainder_few (by decide) crcParity crc_aperiodic (by omega) (by omega) (by omega)

/-! ## Accesses -/

/-- What `AD7176_ReadRegister` makes of the bytes that arrive. -/
def received (st : State) (pReg : StReg) (buffer : List Byte) : ℤ × StReg :=
  if check8 st.useCRC (readCommand pReg.addr :: buffer.drop 1) ≠ 0 then (-1, pReg)
  else
    (readLen st pReg, { pReg with
      extra :=
        if st.dataStatus ∧ pReg.addr = 0x04 then (buffer.getD (pReg.size + 1) 0).toNat
        else pReg.extra
      value := fromBytes ((buffer.drop 1).take pReg.size) })

/-- The bytes that `AD7176_WriteRegister` sends. -/
def wrBuf (st : State) (reg : StReg) : List Byte :=
  let wrBuf := BitVec.ofNat 8 reg.addr :: toBytes reg.size reg.value
  if st.useCRC ≠ .disable then wrBuf ++ [AD7176_ComputeCRC8 wrBuf] else wrBuf

theorem readRegister_received (st : State) (chip : Chip) (pReg : StReg) :
    AD7176_ReadRegister st chip pReg =
      received st pReg (chip.transferRead (readCommand pReg.addr) (readLen st pReg)) := rfl

theorem writeRegister_wrBuf (st : State) (chip : Chip) (reg : StReg) :
    AD7176_WriteRegister st chip reg = chip.transferWrite (wrBuf st reg) := rfl

/-- An access, and the bits behind the command byte that the line changes. -/
inductive Access
  | read (i : ℕ) (noise : List Byte)
  | write (reg : StReg) (noise : List Byte)

/-- The chip, the driver's copies of its registers, and what the reads returned. -/
structure Link where
  chip : Chip
  st : State
  regs : ℕ → StReg
  returned : List ℤ := []

namespace Link

def step (l : Link) : Access → Link
  | .read i noise =>
      let pReg := l.regs i
      let buffer := l.chip.transferRead (readCommand pReg.addr) (readLen l.st pReg)
      let (ret, pReg) := received l.st pReg (disturb buffer (0 :: noise))
      { l with regs := Function.update l.regs i pReg, returned := l.returned ++ [ret] }
  | .write reg noise =>
      { l with chip := l.chip.transferWrite (disturb (wrBuf l.st reg) (0 :: noise)) }

end Link

/-! ## What accesses are for -/

/-- The registers, the copies of them, and which of the reads so far failed. -/
structure Registers where
  adc : ℕ → ℕ
  value : ℕ → ℕ
  failed : List Bool := []

def Clean (noise : List Byte) : Prop := ∀ b ∈ noise, b = 0

instance (noise : List Byte) : Decidable (Clean noise) :=
  inferInstanceAs (Decidable (∀ b ∈ noise, b = 0))

/-- A read copies a register and a write sets it; an access that is disturbed does nothing. -/
def Registers.step (layout : ℕ → StReg) (r : Registers) : Access → Registers
  | .read i noise =>
      if Clean noise then
        { r with
          value := Function.update r.value i (r.adc (layout i).addr % 256 ^ (layout i).size)
          failed := r.failed ++ [false] }
      else { r with failed := r.failed ++ [true] }
  | .write reg noise =>
      if Clean noise then
        { r with adc := Function.update r.adc reg.addr (reg.value % 256 ^ reg.size) }
      else r

/-- A register of the chip, at its size. -/
structure Valid (reg : StReg) : Prop where
  addr : reg.addr < 0x40
  size : reg.size = Chip.registerSize reg.addr

/-- The line changes nothing, or what the check finds.  The interface mode register stays. -/
def Link.Allowed (l : Link) : Access → Prop
  | .read i noise =>
      Valid (l.regs i) ∧ noise.length + 1 = readLen l.st (l.regs i) ∧ (Clean noise ∨ Found noise)
  | .write reg noise =>
      Valid reg ∧ reg.addr ≠ 0x02 ∧ noise.length + 1 = (wrBuf l.st reg).length ∧
        (Clean noise ∨ Found noise)

/-- Driver and chip use the cyclic check and show the registers. -/
structure LinkShows (layout : ℕ → StReg) (l : Link) (r : Registers) : Prop where
  settings : l.st = l.chip.settings
  useCRC : l.st.useCRC = .use_CRC
  addr : ∀ i, (l.regs i).addr = (layout i).addr
  size : ∀ i, (l.regs i).size = (layout i).size
  adc : l.chip.adc = r.adc
  value : ∀ i, (l.regs i).value = r.value i
  failed : r.failed = l.returned.map (decide <| · < 0)

/-! ## Messages with errors -/

theorem disturb_clean {msg noise : List Byte} (h : msg.length = noise.length)
    (hclean : Clean noise) : disturb msg noise = msg := by
  induction msg generalizing noise with
  | nil => rfl
  | cons a msg ih =>
      obtain ⟨b, noise, rfl⟩ := List.exists_cons_of_length_eq_add_one h.symm
      obtain ⟨rfl, hnoise⟩ := List.forall_mem_cons.1 hclean
      change (a ^^^ 0#8) :: disturb msg noise = a :: msg
      rw [ih (Nat.succ.inj h) hnoise, BitVec.xor_zero]

/-- The command byte arrives as it was sent. -/
theorem disturb_cons (command : Byte) (msg noise : List Byte) :
    disturb (command :: msg) (0 :: noise) = command :: disturb msg noise := by
  change (command ^^^ 0#8) :: disturb msg noise = _
  rw [BitVec.xor_zero]

theorem computeCRC8_zero_cons (noise : List Byte) :
    AD7176_ComputeCRC8 (0 :: noise) = AD7176_ComputeCRC8 noise := by
  have hzero : crcBits 0 8 0#8 = 0#8 := by decide
  rw [AD7176_ComputeCRC8, digest, digest, List.foldl_cons, hzero]

/-- A message with a right check fails it when it is disturbed. -/
theorem Found.fails {command : Byte} {msg noise : List Byte} (h : Found noise)
    (hlength : msg.length = noise.length) (hshort : noise.length ≤ 15)
    (hright : AD7176_ComputeCRC8 (command :: msg) = 0) :
    AD7176_ComputeCRC8 (command :: disturb msg noise) ≠ 0 := by
  have hboth : (command :: msg).length = (0 :: noise).length := congrArg Nat.succ hlength
  rw [← disturb_cons, computeCRC8_disturb hboth, hright, computeCRC8_zero_cons]
  change 0#8 ^^^ AD7176_ComputeCRC8 noise ≠ 0
  rw [BitVec.zero_xor]
  exact h.crc_ne hshort

/-- Errors that are found are errors. -/
theorem Found.not_clean {noise : List Byte} (h : Found noise) (hshort : noise.length ≤ 15) :
    ¬ Clean noise := by
  intro hclean
  apply h.crc_ne hshort
  have hzeros : noise = List.replicate noise.length 0 := List.eq_replicate_iff.2 ⟨rfl, hclean⟩
  rw [hzeros]
  induction noise.length with
  | zero => rfl
  | succ n ih => rw [List.replicate_succ, computeCRC8_zero_cons, ih]

theorem registerSize_le (addr : ℕ) : Chip.registerSize addr ≤ 3 := by
  rw [Chip.registerSize]
  cases hfind : AD7176_regs.find? fun reg => reg.addr = addr with
  | none => decide
  | some reg =>
      have hall : ∀ reg ∈ AD7176_regs, reg.size ≤ 3 := by decide
      exact hall reg (List.mem_of_find?_eq_some hfind)

section Messages

variable {st : State} {chip : Chip} {reg : StReg} {noise : List Byte}
  (hsettings : st = chip.settings) (hcrc : st.useCRC = .use_CRC) (hvalid : Valid reg)

include hsettings hvalid

theorem transferRead_eq :
    chip.transferRead (readCommand reg.addr) (readLen st reg) = 0xFF :: chip.answer reg.addr := by
  rw [Chip.transferRead, readCommand_addr hvalid.addr, hsettings]
  exact List.take_of_length_le (length_answer chip hvalid.size).le

theorem read_clean (hlength : noise.length + 1 = readLen st reg) (hclean : Clean noise) :
    0 ≤ (received st reg (disturb (chip.transferRead (readCommand reg.addr) (readLen st reg))
        (0 :: noise))).1 ∧
      ∃ extra, (received st reg (disturb (chip.transferRead (readCommand reg.addr)
        (readLen st reg)) (0 :: noise))).2 =
          { reg with extra, value := chip.adc reg.addr % 256 ^ reg.size } := by
  have hanswer := length_answer chip hvalid.size
  have hbuffer : disturb (chip.transferRead (readCommand reg.addr) (readLen st reg)) (0 :: noise) =
      chip.transferRead (readCommand reg.addr) (readLen st reg) := by
    rw [transferRead_eq hsettings hvalid, disturb_cons, disturb_clean _ hclean]
    rw [hsettings] at hlength
    omega
  rw [hbuffer, ← readRegister_received]
  subst hsettings
  refine ⟨?_, _, readRegister chip reg hvalid.addr hvalid.size⟩
  rw [readRegister_received, received, transferRead_eq rfl hvalid, List.drop_succ_cons,
    List.drop_zero, check8_answer, if_neg (fun h => h rfl)]
  exact Int.natCast_nonneg _

include hcrc

theorem read_found (hlength : noise.length + 1 = readLen st reg) (hfound : Found noise) :
    received st reg (disturb (chip.transferRead (readCommand reg.addr) (readLen st reg))
      (0 :: noise)) = (-1, reg) := by
  have hanswer := length_answer chip hvalid.size
  rw [← hsettings] at hanswer
  have hshort : readLen st reg ≤ 6 := by
    have hsize := registerSize_le reg.addr
    rw [← hvalid.size] at hsize
    simp only [readLen]
    split_ifs <;> omega
  have hright := check8_answer chip reg.addr
  rw [← hsettings, hcrc] at hright
  rw [transferRead_eq hsettings hvalid, disturb_cons, received, hcrc, List.drop_succ_cons,
    List.drop_zero, if_pos]
  exact hfound.fails (by omega) (by omega) hright

theorem write_found (hlength : noise.length + 1 = (wrBuf st reg).length) (hfound : Found noise) :
    chip.transferWrite (disturb (wrBuf st reg) (0 :: noise)) = chip := by
  have hon : st.useCRC ≠ .disable := by
    rw [hcrc]
    decide
  have hsize := registerSize_le reg.addr
  rw [← hvalid.size] at hsize
  rw [wrBuf] at hlength ⊢
  simp only [if_pos hon] at hlength ⊢
  rw [List.cons_append] at hlength ⊢
  rw [List.length_cons, List.length_append, length_toBytes, List.length_singleton] at hlength
  have hright := crc_concat_self (BitVec.ofNat 8 reg.addr :: toBytes reg.size reg.value)
  rw [List.cons_append] at hright
  rw [disturb_cons, Chip.transferWrite, if_pos]
  refine ⟨by rw [← hsettings]; exact hon, hfound.fails ?_ (by omega) hright⟩
  rw [List.length_append, length_toBytes, List.length_singleton]
  omega

end Messages

/-! ## Runs -/

section Run

variable {layout : ℕ → StReg} {l : Link} {r : Registers}

/-- What a read returns and what it leaves in its entry. -/
theorem LinkShows.copied (h : LinkShows layout l r) (i extra value : ℕ) (ret : ℤ) :
    LinkShows layout
      { l with
        regs := Function.update l.regs i { l.regs i with extra, value }
        returned := l.returned ++ [ret] }
      { r with
        value := Function.update r.value i value
        failed := r.failed ++ [decide (ret < 0)] } where
  settings := h.settings
  useCRC := h.useCRC
  addr j := by
    dsimp only
    by_cases hj : j = i
    · subst hj
      rw [Function.update_self]
      exact h.addr j
    · rw [Function.update_of_ne hj]
      exact h.addr j
  size j := by
    dsimp only
    by_cases hj : j = i
    · subst hj
      rw [Function.update_self]
      exact h.size j
    · rw [Function.update_of_ne hj]
      exact h.size j
  adc := h.adc
  value j := by
    dsimp only
    by_cases hj : j = i
    · subst hj
      rw [Function.update_self, Function.update_self]
    · rw [Function.update_of_ne hj, Function.update_of_ne hj]
      exact h.value j
  failed := by rw [h.failed, List.map_append, List.map_singleton]

theorem LinkShows.read (h : LinkShows layout l r) {i : ℕ} {noise : List Byte}
    (hok : l.Allowed (.read i noise)) :
    LinkShows layout (l.step (.read i noise)) (r.step layout (.read i noise)) := by
  obtain ⟨hvalid, hlength, hnoise⟩ := hok
  rw [Link.step, Registers.step]
  by_cases hclean : Clean noise
  · obtain ⟨hret, extra, hreg⟩ := read_clean h.settings hvalid hlength hclean
    have hcopied := h.copied i extra (l.chip.adc (l.regs i).addr % 256 ^ (l.regs i).size)
      (received l.st (l.regs i) (disturb (l.chip.transferRead (readCommand (l.regs i).addr)
        (readLen l.st (l.regs i))) (0 :: noise))).1
    have hvalue : l.chip.adc (l.regs i).addr % 256 ^ (l.regs i).size =
        r.adc (layout i).addr % 256 ^ (layout i).size := by rw [h.addr, h.size, h.adc]
    rw [← hreg, decide_eq_false (not_lt.2 hret), hvalue] at hcopied
    rw [if_pos hclean]
    exact hcopied
  · have hread := read_found h.settings h.useCRC hvalid hlength (hnoise.resolve_left hclean)
    have hcopied := h.copied i (l.regs i).extra (l.regs i).value (-1)
    rw [if_neg hclean]
    simp only [hread]
    have hsame : Function.update r.value i (l.regs i).value = r.value := by
      rw [h.value, Function.update_eq_self]
    rw [hsame] at hcopied
    exact hcopied

theorem LinkShows.write (h : LinkShows layout l r) {reg : StReg} {noise : List Byte}
    (hok : l.Allowed (.write reg noise)) :
    LinkShows layout (l.step (.write reg noise)) (r.step layout (.write reg noise)) := by
  obtain ⟨hvalid, hmode, hlength, hnoise⟩ := hok
  rw [Link.step, Registers.step]
  by_cases hclean : Clean noise
  · have hwrite := writeRegister l.chip reg hvalid.addr hvalid.size
    rw [← h.settings, writeRegister_wrBuf] at hwrite
    rw [if_pos hclean, disturb_clean (by rw [List.length_cons, hlength])
      (List.forall_mem_cons.2 ⟨rfl, hclean⟩), hwrite]
    refine { h with settings := ?_, adc := ?_ }
    · -- the interface mode register is not written
      change l.st = AD7176_UpdateSettings (Function.update l.chip.adc reg.addr _ 0x02)
      rw [Function.update_of_ne hmode.symm]
      exact h.settings
    · change Function.update l.chip.adc reg.addr _ = Function.update r.adc reg.addr _
      rw [h.adc]
  · have hwrite := write_found h.settings h.useCRC hvalid hlength (hnoise.resolve_left hclean)
    rw [if_neg hclean, hwrite]
    exact h

theorem LinkShows.step (h : LinkShows layout l r) {a : Access} (hok : l.Allowed a) :
    LinkShows layout (l.step a) (r.step layout a) := by
  cases a with
  | read i noise => exact h.read hok
  | write reg noise => exact h.write hok

theorem LinkShows.run {accesses : List Access} (h : LinkShows layout l r)
    (hok : Guarded Link.step Link.Allowed l accesses) :
    LinkShows layout (exec Link.step l accesses) (exec (Registers.step layout) r accesses) := by
  have hrun := exec_related (f := id) (fun l r a h hok => h.step hok) h hok
  rwa [List.map_id] at hrun

end Run

/-- The registers of `AD7176_regs`. -/
def layout (i : ℕ) : StReg := AD7176_regs.getD i ⟨0xFF, 1, 0, 0⟩

/-- A driver that has taken the settings of the chip. -/
def connect (adc : ℕ → ℕ) : Link where
  chip := ⟨adc⟩
  st := AD7176_UpdateSettings (adc 0x02)
  regs := layout

/-- A channel is set, its register read with a wrong bit on the line and read again. -/
def channelAccesses : List Access :=
  [.write ⟨0x10, 2, 0, 0x8043⟩ [0, 0, 0], .read 7 [0, 4, 0], .read 7 [0, 0, 0]]

end Ad7176
end PoorMansSmu
