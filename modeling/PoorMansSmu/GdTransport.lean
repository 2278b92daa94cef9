import PoorMansSmu.Lib.Fifo
import PoorMansSmu.Lib.Wire
import Mathlib.Data.Nat.Bitwise
import Mathlib.Logic.Function.Iterate

/-!
# GdTransport — the line between the processor and the display chip

The display chip has a coprocessor that executes commands from a ring of 4096 bytes in its memory.
The driver writes commands into the ring over a serial line, publishes how far it has come in one
register of the chip and learns from another how far the coprocessor has come.  For accesses to
other memory it leaves the stream of commands and takes it up again afterwards.

The chip takes what is written in one transaction when it is deselected, and answers a read from the
memory as it was when the transaction began.  Between two transactions the coprocessor goes any
number of words further, as a function `pace` has it.  What commands do to other memory is left out.

Loops that wait for the coprocessor look as often as `fuel` allows, and give `none` when that is not
enough.
-/

set_option linter.style.nameCheck false

namespace PoorMansSmu
namespace GdTransport

open Wire

/-! ## The chip -/

def lowByte (v : ℕ) : Byte := BitVec.ofNat 8 v

def highByte (v : ℕ) : Byte := BitVec.ofNat 8 (v >>> 8)

/-- The start of the command ring. -/
def RAM_CMD (ft8xx_model : ℕ) : ℕ := if ft8xx_model ≠ 0 then 0x308000 else 0x108000

def REG_CMD_READ (ft8xx_model : ℕ) : ℕ := if ft8xx_model ≠ 0 then 0x3020f8 else 0x1024e4

def REG_CMD_WRITE (ft8xx_model : ℕ) : ℕ := if ft8xx_model ≠ 0 then 0x3020fc else 0x1024e8

/-- The memory of the chip, and the bytes of commands that its coprocessor has executed. -/
structure Ft8xx where
  ram : ℕ → Byte
  executed : List Byte

/-- Two bytes of memory, the lower one first. -/
def word (ram : ℕ → Byte) (addr : ℕ) : ℕ := (ram addr).toNat + (ram (addr + 1)).toNat * 256

def storeWord (ram : ℕ → Byte) (addr v : ℕ) : ℕ → Byte :=
  Function.update (Function.update ram addr (lowByte v)) (addr + 1) (highByte v)

namespace Ft8xx

variable (ft8xx_model : ℕ)

/-- Where byte `i` of an access from `start` on lies; in the command ring addresses go round. -/
def place (start i : ℕ) : ℕ :=
  if RAM_CMD ft8xx_model ≤ start ∧ start < RAM_CMD ft8xx_model + 4096 then
    RAM_CMD ft8xx_model + (start - RAM_CMD ft8xx_model + i) % 4096
  else start + i

/-- Bytes from number `i` on go to memory. -/
def storeFrom (start : ℕ) : (i : ℕ) → (ram : ℕ → Byte) → List Byte → ℕ → Byte
  | _, ram, [] => ram
  | i, ram, b :: data =>
      storeFrom start (i + 1) (Function.update ram (place ft8xx_model start i) b) data

/-- The first two bits of an address tell a write from a read. -/
def latch (chip : Ft8xx) : List Byte → Ft8xx
  | a :: b :: c :: data =>
      if a.toNat / 64 = 2 then
        { chip with ram := storeFrom ft8xx_model (fromBytes [a, b, c] % 0x400000) 0 chip.ram data }
      else chip
  | _ => chip

/-- The byte that comes back with the next one: a read gets its first byte after a dummy. -/
def answer (chip : Ft8xx) : List Byte → Byte
  | a :: b :: c :: _ :: data =>
      if a.toNat / 64 = 0 then chip.ram (place ft8xx_model (fromBytes [a, b, c]) data.length) else 0
  | _ => 0

/-- The coprocessor executes the next word, if there is one. -/
def executeWord (chip : Ft8xx) : Ft8xx :=
  let cmdRead := word chip.ram (REG_CMD_READ ft8xx_model)
  if cmdRead = word chip.ram (REG_CMD_WRITE ft8xx_model) then chip
  else
    { ram := storeWord chip.ram (REG_CMD_READ ft8xx_model) ((cmdRead + 4) % 4096)
      executed := chip.executed ++
        (List.range 4).map fun i => chip.ram (RAM_CMD ft8xx_model + (cmdRead + i) % 4096) }

def run (n : ℕ) : Ft8xx → Ft8xx := (executeWord ft8xx_model)^[n]

end Ft8xx

/-! ## The driver -/

/-- `GDTransport`, the chip, the bytes of the open transaction and the number of transactions. -/
structure GDTransport where
  wp : ℕ
  freespace : ℕ
  chip : Ft8xx
  wire : Option (List Byte) := none
  accesses : ℕ := 0

namespace GDTransport

variable (ft8xx_model : ℕ) (pace : ℕ → ℕ)

/-- `digitalWriteFast(CS, LOW)` -/
def select (g : GDTransport) : GDTransport :=
  match g.wire with
  | none =>
      { g with
        chip := g.chip.run ft8xx_model (pace g.accesses)
        wire := some []
        accesses := g.accesses + 1 }
  | some _ => g

/-- `SPI.transfer`, whose result is what the chip answers. -/
def transfer (g : GDTransport) (b : Byte) : Byte × GDTransport :=
  ((g.wire.map (g.chip.answer ft8xx_model)).getD 0, { g with wire := g.wire.map (· ++ [b]) })

/-- `SPI.transfer` where nothing is done with the answer. -/
def send (g : GDTransport) (b : Byte) : GDTransport := { g with wire := g.wire.map (· ++ [b]) }

def __start (addr : ℕ) (g : GDTransport) : GDTransport :=
  (((g.select ft8xx_model pace).send (BitVec.ofNat 8 (addr >>> 16))).send (highByte addr)).send
    (lowByte addr)

def __wstart (addr : ℕ) (g : GDTransport) : GDTransport :=
  (((g.select ft8xx_model pace).send (BitVec.ofNat 8 (0x80 ||| addr >>> 16))).send
    (highByte addr)).send (lowByte addr)

/-- `digitalWriteFast(CS, HIGH)` -/
def __end (g : GDTransport) : GDTransport :=
  match g.wire with
  | some bytes => { g with chip := g.chip.latch ft8xx_model bytes, wire := none }
  | none => g

def __rd16 (addr : ℕ) (g : GDTransport) : ℕ × GDTransport :=
  let g := (g.__start ft8xx_model pace addr).send 0  -- dummy
  let (low, g) := g.transfer ft8xx_model 0
  let (high, g) := g.transfer ft8xx_model 0
  (low.toNat ||| high.toNat <<< 8, g.__end ft8xx_model)

def __wr16 (addr v : ℕ) (g : GDTransport) : GDTransport :=
  (((g.__wstart ft8xx_model pace addr).send (lowByte v)).send (highByte v)).__end ft8xx_model

def stream (g : GDTransport) : GDTransport :=
  (g.__end ft8xx_model).__wstart ft8xx_model pace (RAM_CMD ft8xx_model + (g.wp &&& 0xfff))

/-- The end of `begin1`, after the model of the chip is known. -/
def begin1 (chip : Ft8xx) : GDTransport :=
  stream ft8xx_model pace { wp := 0, freespace := 4096 - 4, chip }

def resume (g : GDTransport) : GDTransport := g.stream ft8xx_model pace

def rp (g : GDTransport) : ℕ × GDTransport := g.__rd16 ft8xx_model pace (REG_CMD_READ ft8xx_model)

/-- The loop of `getfree`. -/
def waitFree (n : ℕ) : (fuel : ℕ) → GDTransport → Option GDTransport
  | 0, _ => none
  | fuel + 1, g =>
      let (r, g) := g.rp ft8xx_model pace
      let fullness := (g.wp + 65536 - r) &&& 4095
      let g := { g with freespace := (65536 + (4096 - 4) - fullness) % 65536 }
      if g.freespace < n then waitFree n fuel g else some g

def getfree (fuel n : ℕ) (g : GDTransport) : Option GDTransport :=
  let g := { g with wp := g.wp &&& 0xfff }
  let g := (g.__end ft8xx_model).__wr16 ft8xx_model pace (REG_CMD_WRITE ft8xx_model)
    (g.wp &&& 0xffc)
  (g.waitFree ft8xx_model pace n fuel).map (stream ft8xx_model pace)

/-- Room for `n` bytes, in the ring and in the counters. -/
def reserve (n : ℕ) (g : GDTransport) : GDTransport :=
  { g with wp := (g.wp + n) % 65536, freespace := (g.freespace + 65536 - n) % 65536 }

def cmd32 (fuel x : ℕ) (g : GDTransport) : Option GDTransport :=
  (if g.freespace < 4 then g.getfree ft8xx_model pace fuel 4 else some g).map fun g =>
    ((((g.reserve 4).send (lowByte x)).send (lowByte (x >>> 8))).send (lowByte (x >>> 16))).send
      (lowByte (x >>> 24))

def cmdbyte (fuel : ℕ) (x : Byte) (g : GDTransport) : Option GDTransport :=
  (if g.freespace = 0 then g.getfree ft8xx_model pace fuel 1 else some g).map fun g =>
    (g.reserve 1).send x

/-- The two loops of `cmd_n`: eight bytes at a time while there are more, then the rest. -/
def sendEights (s : List Byte) (g : GDTransport) : GDTransport :=
  if 8 < s.length then sendEights (s.drop 8) ((s.take 8).foldl send g) else s.foldl send g
termination_by s.length

def cmd_n (fuel : ℕ) (s : List Byte) (g : GDTransport) : Option GDTransport :=
  (if g.freespace < s.length then g.getfree ft8xx_model pace fuel s.length else some g).map fun g =>
    sendEights s (g.reserve s.length)

def flush (fuel : ℕ) (g : GDTransport) : Option GDTransport := g.getfree ft8xx_model pace fuel 0

/-- The loop of `finish`. -/
def waitAll : (fuel : ℕ) → GDTransport → Option GDTransport
  | 0, _ => none
  | fuel + 1, g =>
      let (r, g) := g.rp ft8xx_model pace
      if r ≠ g.wp then waitAll fuel g else some g

def finish (fuel : ℕ) (g : GDTransport) : Option GDTransport :=
  let g := { g with wp := g.wp &&& 0xffc }
  let g := (g.__end ft8xx_model).__wr16 ft8xx_model pace (REG_CMD_WRITE ft8xx_model) g.wp
  (g.waitAll ft8xx_model pace fuel).map (stream ft8xx_model pace)

def stop (g : GDTransport) : GDTransport :=
  let g := { g with wp := g.wp &&& 0xffc }
  (g.__end ft8xx_model).__wr16 ft8xx_model pace (REG_CMD_WRITE ft8xx_model) g.wp

/-- Where the next command goes. -/
def getwp (g : GDTransport) : ℕ := RAM_CMD ft8xx_model + (g.wp &&& 0xffc)

/-! ### Other memory -/

/-- The first `n` bytes that a read brings. -/
def receive : (n : ℕ) → GDTransport → List Byte × GDTransport
  | 0, g => ([], g)
  | n + 1, g =>
      let (b, g) := g.transfer ft8xx_model 0
      let (bytes, g) := receive n g
      (b :: bytes, g)

def rd_n (addr n : ℕ) (g : GDTransport) : List Byte × GDTransport :=
  let g := ((g.__end ft8xx_model).__start ft8xx_model pace addr).send 0  -- dummy
  let (dst, g) := g.receive ft8xx_model n
  (dst, g.stream ft8xx_model pace)

def rd (addr : ℕ) (g : GDTransport) : Byte × GDTransport :=
  let g := ((g.__end ft8xx_model).__start ft8xx_model pace addr).send 0  -- dummy
  let (r, g) := g.transfer ft8xx_model 0
  (r, g.stream ft8xx_model pace)

def rd16 (addr : ℕ) (g : GDTransport) : ℕ × GDTransport :=
  let g := ((g.__end ft8xx_model).__start ft8xx_model pace addr).send 0
  let (low, g) := g.transfer ft8xx_model 0
  let (high, g) := g.transfer ft8xx_model 0
  (low.toNat ||| high.toNat <<< 8, g.stream ft8xx_model pace)

def wr_n (addr : ℕ) (src : List Byte) (g : GDTransport) : GDTransport :=
  (src.foldl send ((g.__end ft8xx_model).__wstart ft8xx_model pace addr)).stream ft8xx_model pace

def wr (addr : ℕ) (v : Byte) (g : GDTransport) : GDTransport :=
  (((g.__end ft8xx_model).__wstart ft8xx_model pace addr).send v).stream ft8xx_model pace

def wr16 (addr v : ℕ) (g : GDTransport) : GDTransport :=
  ((((g.__end ft8xx_model).__wstart ft8xx_model pace addr).send (lowByte v)).send
    (lowByte (v >>> 8))).stream ft8xx_model pace

def wr32 (addr v : ℕ) (g : GDTransport) : GDTransport :=
  ((((((g.__end ft8xx_model).__wstart ft8xx_model pace addr).send (lowByte v)).send
    (lowByte (v >>> 8))).send (lowByte (v >>> 16))).send (lowByte (v >>> 24))).stream
      ft8xx_model pace

end GDTransport

/-! ## Words in memory -/

theorem byte_word (v : ℕ) : (lowByte v).toNat + (highByte v).toNat * 256 = v % 65536 := by
  rw [lowByte, highByte, BitVec.toNat_ofNat, BitVec.toNat_ofNat, Nat.shiftRight_eq_div_pow]
  omega

theorem word_storeWord_self (ram : ℕ → Byte) (addr v : ℕ) :
    word (storeWord ram addr v) addr = v % 65536 := by
  rw [word, storeWord, Function.update_self, Function.update_of_ne (Nat.ne_of_lt addr.lt_succ_self),
    Function.update_self, byte_word]

theorem storeWord_of_ne (ram : ℕ → Byte) {addr a : ℕ} (v : ℕ) (ha : a < addr ∨ addr + 1 < a) :
    storeWord ram addr v a = ram a := by
  rw [storeWord, Function.update_of_ne (by omega), Function.update_of_ne (by omega)]

theorem word_congr {ram ram' : ℕ → Byte} {addr : ℕ} (h : ram' addr = ram addr)
    (h' : ram' (addr + 1) = ram (addr + 1)) : word ram' addr = word ram addr := by
  rw [word, word, h, h']

/-- The two registers lie before the command ring, and all of them inside the address space. -/
theorem addresses (ft8xx_model : ℕ) :
    REG_CMD_READ ft8xx_model + 4 = REG_CMD_WRITE ft8xx_model ∧
      REG_CMD_WRITE ft8xx_model + 4 ≤ RAM_CMD ft8xx_model ∧
      RAM_CMD ft8xx_model + 4096 ≤ 0x400000 := by
  unfold REG_CMD_READ REG_CMD_WRITE RAM_CMD
  split_ifs <;> omega

/-! ## Transactions -/

namespace Ft8xx

variable {ft8xx_model : ℕ}

theorem place_ring {s : ℕ} (hs : s < 4096) (i : ℕ) :
    place ft8xx_model (RAM_CMD ft8xx_model + s) i = RAM_CMD ft8xx_model + (s + i) % 4096 := by
  rw [place, if_pos (by omega), Nat.add_sub_cancel_left]

theorem place_of_lt {start : ℕ} (h : start < RAM_CMD ft8xx_model) (i : ℕ) :
    place ft8xx_model start i = start + i := if_neg (by omega)

theorem storeFrom_append (start i : ℕ) (ram : ℕ → Byte) (data data' : List Byte) :
    storeFrom ft8xx_model start i ram (data ++ data') =
      storeFrom ft8xx_model start (i + data.length) (storeFrom ft8xx_model start i ram data)
        data' := by
  induction data generalizing i ram with
  | nil => rfl
  | cons b data ih =>
      rw [List.cons_append, storeFrom, ih, storeFrom, List.length_cons]
      congr 1
      omega

/-- The first three bytes of a transaction that writes. -/
def header (addr : ℕ) : List Byte :=
  [BitVec.ofNat 8 (0x80 ||| addr >>> 16), highByte addr, lowByte addr]

theorem latch_header (chip : Ft8xx) {addr : ℕ} (haddr : addr < 0x400000) (data : List Byte) :
    chip.latch ft8xx_model (header addr ++ data) =
      { chip with ram := storeFrom ft8xx_model addr 0 chip.ram data } := by
  have hor : 0x80 ||| addr >>> 16 = 128 + addr / 65536 := by
    rw [Nat.shiftRight_eq_div_pow]
    exact (Nat.two_pow_add_eq_or_of_lt (i := 7) (by omega) 1).symm
  have hfirst : (BitVec.ofNat 8 (0x80 ||| addr >>> 16)).toNat = 128 + addr / 65536 := by
    rw [BitVec.toNat_ofNat, hor]
    omega
  have hbytes : fromBytes (header addr) % 0x400000 = addr := by
    have hlow := byte_word addr
    rw [header, fromBytes, List.foldl_cons, List.foldl_cons, List.foldl_cons, List.foldl_nil,
      hfirst]
    omega
  rw [header, List.cons_append, List.cons_append, List.cons_append, List.nil_append, latch,
    if_pos (by rw [hfirst]; omega), ← header, hbytes]

/-- The first three bytes of a transaction that reads. -/
def readHeader (addr : ℕ) : List Byte :=
  [BitVec.ofNat 8 (addr >>> 16), highByte addr, lowByte addr]

theorem first_of_read {addr : ℕ} (haddr : addr < 0x400000) :
    (BitVec.ofNat 8 (addr >>> 16)).toNat = addr / 65536 := by
  rw [BitVec.toNat_ofNat, Nat.shiftRight_eq_div_pow]
  omega

theorem latch_readHeader (chip : Ft8xx) {addr : ℕ} (haddr : addr < 0x400000) (data : List Byte) :
    chip.latch ft8xx_model (readHeader addr ++ data) = chip := by
  have hfirst := first_of_read haddr
  rw [readHeader, List.cons_append, List.cons_append, List.cons_append, List.nil_append, latch,
    if_neg (by omega)]

theorem answer_readHeader (chip : Ft8xx) {addr : ℕ} (haddr : addr < 0x400000) (dummy : Byte)
    (data : List Byte) :
    chip.answer ft8xx_model (readHeader addr ++ dummy :: data) =
      chip.ram (place ft8xx_model addr data.length) := by
  have hfirst := first_of_read haddr
  have hbytes : fromBytes (readHeader addr) = addr := by
    have hlow := byte_word addr
    rw [readHeader, fromBytes, List.foldl_cons, List.foldl_cons, List.foldl_cons, List.foldl_nil,
      hfirst]
    omega
  rw [readHeader, List.cons_append, List.cons_append, List.cons_append, List.nil_append, answer,
    if_pos (by omega), ← readHeader, hbytes]

end Ft8xx

namespace GDTransport

open Ft8xx

variable {ft8xx_model : ℕ} {pace : ℕ → ℕ} {g : GDTransport}

theorem foldl_send (data : List Byte) (g : GDTransport) :
    data.foldl send g = { g with wire := g.wire.map (· ++ data) } := by
  induction data generalizing g with
  | nil =>
      simp only [List.foldl_nil, List.append_nil, Option.map_id']
  | cons b data ih =>
      rw [List.foldl_cons, ih, send, Option.map_map]
      congr 2
      funext bytes
      exact List.append_assoc bytes [b] data

/-- The loop over eight bytes at a time sends what a loop over single bytes does. -/
theorem sendEights_eq (s : List Byte) (g : GDTransport) : sendEights s g = s.foldl send g := by
  fun_induction sendEights s g with
  | case1 s g _ ih => rw [ih, ← List.foldl_append, List.take_append_drop]
  | case2 => rfl

variable (ft8xx_model pace) in
/-- The chip after a transaction that writes, and the line closed again. -/
def written (g : GDTransport) (addr : ℕ) (data : List Byte) : GDTransport :=
  let chip := g.chip.run ft8xx_model (pace g.accesses)
  { g with
    chip := { chip with ram := storeFrom ft8xx_model addr 0 chip.ram data }
    wire := none
    accesses := g.accesses + 1 }

variable (ft8xx_model pace) in
/-- The chip after a transaction that reads. -/
def looked (g : GDTransport) : GDTransport :=
  { g with
    chip := g.chip.run ft8xx_model (pace g.accesses)
    wire := none
    accesses := g.accesses + 1 }

theorem __end_closed (h : g.wire = none) : g.__end ft8xx_model = g := by
  rw [__end, h]

theorem __wstart_eq (h : g.wire = none) (addr : ℕ) :
    g.__wstart ft8xx_model pace addr =
      { g.looked ft8xx_model pace with wire := some (header addr) } := by
  rw [__wstart, select, h]
  rfl

/-- What a transaction does that writes bytes and is closed again. -/
theorem write_transaction (h : g.wire = none) {addr : ℕ} (haddr : addr < 0x400000)
    (data : List Byte) :
    (data.foldl send (g.__wstart ft8xx_model pace addr)).__end ft8xx_model =
      g.written ft8xx_model pace addr data := by
  rw [__wstart_eq h, foldl_send]
  exact congrArg (fun chip => ({ g.looked ft8xx_model pace with chip } : GDTransport))
    (latch_header _ haddr data)

theorem __wr16_eq (h : g.wire = none) {addr : ℕ} (haddr : addr < 0x400000) (v : ℕ) :
    g.__wr16 ft8xx_model pace addr v = g.written ft8xx_model pace addr [lowByte v, highByte v] :=
  write_transaction h haddr [lowByte v, highByte v]

variable (ft8xx_model pace) in
/-- A transaction that reads, after `n` bytes. -/
def reading (g : GDTransport) (addr n : ℕ) : GDTransport :=
  { g.looked ft8xx_model pace with
    wire := some (readHeader addr ++ 0 :: List.replicate n 0) }

theorem __start_eq (h : g.wire = none) (addr : ℕ) :
    (g.__start ft8xx_model pace addr).send 0 = g.reading ft8xx_model pace addr 0 := by
  rw [__start, select, h]
  rfl

theorem transfer_reading {addr : ℕ} (haddr : addr < 0x400000) (n : ℕ) :
    (g.reading ft8xx_model pace addr n).transfer ft8xx_model 0 =
      ((g.looked ft8xx_model pace).chip.ram (place ft8xx_model addr n),
        g.reading ft8xx_model pace addr (n + 1)) := by
  have hanswer := @answer_readHeader ft8xx_model (g.looked ft8xx_model pace).chip
    addr haddr 0 (List.replicate n 0)
  rw [List.length_replicate] at hanswer
  have hwire : (readHeader addr ++ 0 :: List.replicate n 0) ++ [0] =
      readHeader addr ++ 0 :: List.replicate (n + 1) (0 : Byte) := by
    rw [List.replicate_succ', List.append_assoc, List.cons_append]
  exact Prod.ext hanswer (congrArg (fun bytes =>
    ({ g.looked ft8xx_model pace with wire := some bytes } : GDTransport)) hwire)

theorem __end_reading {addr : ℕ} (haddr : addr < 0x400000) (n : ℕ) :
    (g.reading ft8xx_model pace addr n).__end ft8xx_model = g.looked ft8xx_model pace :=
  congrArg (fun chip => ({ g.looked ft8xx_model pace with chip } : GDTransport))
    (latch_readHeader _ haddr _)

theorem receive_reading {addr : ℕ} (haddr : addr < 0x400000) (n k : ℕ) :
    (g.reading ft8xx_model pace addr k).receive ft8xx_model n =
      ((List.range n).map fun i =>
          (g.looked ft8xx_model pace).chip.ram (place ft8xx_model addr (k + i)),
        g.reading ft8xx_model pace addr (k + n)) := by
  induction n generalizing k with
  | zero => rfl
  | succ n ih =>
      rw [receive, transfer_reading haddr]
      simp only [ih]
      rw [List.range_succ_eq_map, List.map_cons, List.map_map, Nat.add_zero, Nat.add_right_comm,
        Nat.add_assoc k n 1]
      refine congrArg (fun bytes => (_ :: bytes, _)) (List.map_congr_left fun i _ => ?_)
      rw [Function.comp_apply, Nat.succ_eq_add_one, Nat.add_right_comm, Nat.add_assoc k i 1]

theorem or_word (ram : ℕ → Byte) (addr : ℕ) :
    (ram addr).toNat ||| (ram (addr + 1)).toNat <<< 8 = word ram addr := by
  rw [word, Nat.or_comm, ← Nat.shiftLeft_add_eq_or_of_lt (ram addr).isLt, Nat.shiftLeft_eq,
    Nat.add_comm]

theorem __rd16_eq (h : g.wire = none) {addr : ℕ} (haddr : addr < RAM_CMD ft8xx_model) :
    g.__rd16 ft8xx_model pace addr =
      (word (g.looked ft8xx_model pace).chip.ram addr, g.looked ft8xx_model pace) := by
  have hspace : addr < 0x400000 := by
    have := addresses ft8xx_model
    omega
  rw [__rd16, __start_eq h, transfer_reading hspace]
  simp only [transfer_reading hspace, __end_reading hspace, place_of_lt haddr, Nat.add_zero,
    or_word]

theorem rp_eq (h : g.wire = none) :
    g.rp ft8xx_model pace =
      (word (g.looked ft8xx_model pace).chip.ram (REG_CMD_READ ft8xx_model),
        g.looked ft8xx_model pace) :=
  __rd16_eq h (by have := addresses ft8xx_model; omega)

end GDTransport

end GdTransport
end PoorMansSmu
