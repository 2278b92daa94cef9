import PoorMansSmu.GdTransport
import PoorMansSmu.Lib.BitFields
import PoorMansSmu.Lib.Run

/-!
# CommandQueue — the display driver and the coprocessor as a queue

- `Holds` : the chip has the bytes of the stream that are not executed yet, and both registers;
- `Closed`, `Streaming` : the same of the driver, between two transactions and while it writes;
- `Counted` : what the driver's two counters say about the stream.
-/

namespace PoorMansSmu
namespace GdTransport

open Wire Fifo Ft8xx GDTransport

variable {ft8xx_model : ℕ} {pace : ℕ → ℕ} {memory : ℕ → Byte}

/-! ## The chip -/

/-- The command ring in the memory of the chip. -/
def ring (ft8xx_model : ℕ) (ram : ℕ → Byte) (i : ℕ) : Byte := ram (RAM_CMD ft8xx_model + i)

/-- Bytes outside the ring and its two registers. -/
def Elsewhere (ft8xx_model addr n : ℕ) : Prop :=
  addr + n ≤ REG_CMD_READ ft8xx_model ∨
    (REG_CMD_WRITE ft8xx_model + 4 ≤ addr ∧ addr + n ≤ RAM_CMD ft8xx_model) ∨
    (RAM_CMD ft8xx_model + 4096 ≤ addr ∧ addr + n ≤ 0x400000)

/-- The chip while `sent` has been written into the ring and the first `published` bytes of it have
been announced to the coprocessor, and `memory` is what stands elsewhere. -/
structure Holds (ft8xx_model : ℕ) (memory : ℕ → Byte) (chip : Ft8xx) (sent : List Byte)
    (published : ℕ) : Prop where
  queued : Queued 4096 (ring ft8xx_model chip.ram) sent chip.executed.length
  room : sent.length ≤ chip.executed.length + 4092
  executed : chip.executed = sent.take chip.executed.length
  read : word chip.ram (REG_CMD_READ ft8xx_model) = chip.executed.length % 4096
  write : word chip.ram (REG_CMD_WRITE ft8xx_model) = published % 4096
  executed_aligned : chip.executed.length % 4 = 0
  published_aligned : published % 4 = 0
  executed_le : chip.executed.length ≤ published
  published_le : published ≤ sent.length
  memory : ∀ a, Elsewhere ft8xx_model a 1 → chip.ram a = memory a

section Chip

variable {chip : Ft8xx} {sent : List Byte} {published : ℕ}

/-- The coprocessor has done everything that was announced, or does the next word of it. -/
theorem Holds.executeWord_cases (h : Holds ft8xx_model memory chip sent published) :
    (chip.executed.length = published ∧ chip.executeWord ft8xx_model = chip) ∨
      (chip.executed.length + 4 ≤ published ∧
        chip.executeWord ft8xx_model =
          { ram := storeWord chip.ram (REG_CMD_READ ft8xx_model) ((chip.executed.length + 4) % 4096)
            executed := sent.take (chip.executed.length + 4) }) := by
  have hroom := h.room
  have hexecuted := h.executed_aligned
  have hpublished := h.published_aligned
  have hle := h.executed_le
  have hle' := h.published_le
  by_cases hdone : chip.executed.length = published
  · refine Or.inl ⟨hdone, ?_⟩
    rw [executeWord, h.read, h.write, hdone]
    exact if_pos rfl
  · refine Or.inr ⟨by omega, ?_⟩
    have hne : chip.executed.length % 4096 ≠ published % 4096 := by omega
    have hfront := h.queued.front (n := 4) (by omega)
    rw [executeWord, h.read, h.write, if_neg hne, Nat.mod_add_mod, List.take_add, ← h.executed,
      ← hfront]
    rfl

theorem Elsewhere.bounds {addr n : ℕ} (h : Elsewhere ft8xx_model addr n) :
    addr + n ≤ 0x400000 ∧
      (addr + n ≤ REG_CMD_READ ft8xx_model ∨ REG_CMD_WRITE ft8xx_model + 4 ≤ addr) ∧
      (addr + n ≤ RAM_CMD ft8xx_model ∨ RAM_CMD ft8xx_model + 4096 ≤ addr) := by
  have haddresses := addresses ft8xx_model
  unfold Elsewhere at h
  omega

theorem Holds.executeWord (h : Holds ft8xx_model memory chip sent published) :
    Holds ft8xx_model memory (chip.executeWord ft8xx_model) sent published := by
  obtain ⟨-, heq⟩ | ⟨hmore, heq⟩ := h.executeWord_cases
  · rwa [heq]
  have haddresses := addresses ft8xx_model
  have hle := h.published_le
  have hlength : (sent.take (chip.executed.length + 4)).length = chip.executed.length + 4 := by
    rw [List.length_take]
    omega
  have hcells : ∀ i < 4096, ring ft8xx_model (storeWord chip.ram (REG_CMD_READ ft8xx_model)
      ((chip.executed.length + 4) % 4096)) i = ring ft8xx_model chip.ram i := fun i _ =>
    storeWord_of_ne _ _ (by omega)
  rw [heq]
  exact
    { queued := by
        simp only [hlength]
        exact (h.queued.take (by omega) (by omega)).congr hcells
      room := by
        have := h.room
        simp only [hlength]
        omega
      executed := by simp only [hlength]
      read := by
        simp only [hlength]
        rw [word_storeWord_self]
        omega
      write := by
        rw [word_congr (storeWord_of_ne _ _ (by omega)) (storeWord_of_ne _ _ (by omega)), h.write]
      executed_aligned := by
        have := h.executed_aligned
        simp only [hlength]
        omega
      published_aligned := h.published_aligned
      executed_le := by simpa only [hlength] using hmore
      published_le := hle
      memory := fun a ha => by
        have := ha.bounds
        exact (storeWord_of_ne _ _ (by omega)).trans (h.memory a ha) }

/-- However far the coprocessor goes, the chip holds the rest. -/
theorem Holds.run (h : Holds ft8xx_model memory chip sent published) (n : ℕ) :
    Holds ft8xx_model memory (chip.run ft8xx_model n) sent published := by
  induction n with
  | zero => exact h
  | succ n ih =>
      rw [Ft8xx.run, Function.iterate_succ_apply', ← Ft8xx.run]
      exact ih.executeWord

theorem Holds.le_executeWord (h : Holds ft8xx_model memory chip sent published) :
    min published (chip.executed.length + 4) ≤ (chip.executeWord ft8xx_model).executed.length := by
  have hle := h.published_le
  obtain ⟨hdone, heq⟩ | ⟨hmore, heq⟩ := h.executeWord_cases
  · rw [heq]
    omega
  · rw [heq, List.length_take]
    omega

theorem Holds.executed_le_run (h : Holds ft8xx_model memory chip sent published) (n : ℕ) :
    chip.executed.length ≤ (chip.run ft8xx_model n).executed.length := by
  induction n with
  | zero => exact Nat.le_refl _
  | succ n ih =>
      have hstep := (h.run n).le_executeWord
      have hle := (h.run n).executed_le
      rw [Ft8xx.run, Function.iterate_succ_apply', ← Ft8xx.run]
      omega

/-- A word is done when the coprocessor goes on and there is one. -/
theorem Holds.progress (h : Holds ft8xx_model memory chip sent published) {n : ℕ} (hn : n ≠ 0) :
    min published (chip.executed.length + 4) ≤ (chip.run ft8xx_model n).executed.length := by
  obtain ⟨n, rfl⟩ := Nat.exists_eq_succ_of_ne_zero hn
  have hstep := h.le_executeWord
  have hrest := h.executeWord.executed_le_run n
  rw [Ft8xx.run, Function.iterate_succ_apply, ← Ft8xx.run]
  omega

theorem storeFrom_word (ram : ℕ → Byte) {addr : ℕ} (haddr : addr + 1 < RAM_CMD ft8xx_model)
    (v : ℕ) :
    storeFrom ft8xx_model addr 0 ram [lowByte v, highByte v] = storeWord ram addr v := by
  rw [storeFrom, storeFrom, storeFrom, place_of_lt (by omega), place_of_lt (by omega)]
  rfl

/-- More of the stream is announced. -/
theorem Holds.publish (h : Holds ft8xx_model memory chip sent published) {p : ℕ}
    (hmono : chip.executed.length ≤ p) (haligned : p % 4 = 0) (hle : p ≤ sent.length) {v : ℕ}
    (hv : v = p % 4096) :
    Holds ft8xx_model memory
      { chip with
        ram := storeFrom ft8xx_model (REG_CMD_WRITE ft8xx_model) 0 chip.ram
          [lowByte v, highByte v] } sent p := by
  have haddresses := addresses ft8xx_model
  rw [storeFrom_word _ (by omega)]
  exact
    { h with
      queued := h.queued.congr fun i _ => storeWord_of_ne _ _ (by omega)
      read := by
        rw [word_congr (storeWord_of_ne _ _ (by omega)) (storeWord_of_ne _ _ (by omega)), h.read]
      write := by
        rw [word_storeWord_self]
        omega
      published_aligned := haligned
      executed_le := hmono
      published_le := hle
      memory := fun a ha => by
        have := ha.bounds
        exact (storeWord_of_ne _ _ (by omega)).trans (h.memory a ha) }

/-- The end of the stream is taken back. -/
theorem Holds.cut (h : Holds ft8xx_model memory chip sent published) {n : ℕ} (hn : published ≤ n)
    (hle : n ≤ sent.length) : Holds ft8xx_model memory chip (sent.take n) published := by
  have hexecuted := h.executed_le
  have hlength : (sent.take n).length = n := by
    rw [List.length_take]
    omega
  exact
    { h with
      queued := h.queued.cut (by omega) hle
      room := by
        have := h.room
        omega
      executed := by rw [List.take_take, min_eq_left (by omega), ← h.executed]
      published_le := by omega }

theorem ring_update (ram : ℕ → Byte) (j : ℕ) (b : Byte) :
    ring ft8xx_model (Function.update ram (RAM_CMD ft8xx_model + j) b) =
      Function.update (ring ft8xx_model ram) j b := by
  funext i
  simp only [ring, Function.update_apply, Nat.add_right_inj]

/-- One more byte of the stream. -/
theorem Holds.push (h : Holds ft8xx_model memory chip sent published)
    (hroom : sent.length + 1 ≤ chip.executed.length + 4092) (b : Byte) :
    Holds ft8xx_model memory
      { chip with
        ram := Function.update chip.ram (RAM_CMD ft8xx_model + sent.length % 4096) b }
      (sent ++ [b]) published := by
  have haddresses := addresses ft8xx_model
  have hle := h.published_le
  have hexecuted := h.executed_le
  have hlength : (sent ++ [b]).length = sent.length + 1 := by
    rw [List.length_append, List.length_singleton]
  have hne : ∀ a < RAM_CMD ft8xx_model,
      Function.update chip.ram (RAM_CMD ft8xx_model + sent.length % 4096) b a = chip.ram a :=
    fun a ha => Function.update_of_ne (by omega) _ _
  exact
    { h with
      queued := by
        rw [ring_update]
        exact h.queued.push b (by omega)
      room := hlength.trans_le hroom
      executed := by
        rw [List.take_append_of_le_length (hexecuted.trans hle), ← h.executed]
      read := by rw [word_congr (hne _ (by omega)) (hne _ (by omega)), h.read]
      write := by rw [word_congr (hne _ (by omega)) (hne _ (by omega)), h.write]
      published_le := by omega
      memory := fun a ha => by
        have := ha.bounds
        exact (Function.update_of_ne (by omega) _ _).trans (h.memory a ha) }

end Chip

/-! ## The driver between transactions and in the stream -/

/-- No transaction is open. -/
structure Closed (ft8xx_model : ℕ) (memory : ℕ → Byte) (g : GDTransport) (sent : List Byte)
    (published : ℕ) : Prop where
  wire : g.wire = none
  holds : Holds ft8xx_model memory g.chip sent published

/-- A transaction is open that takes the next bytes of the stream. -/
structure Streaming (ft8xx_model : ℕ) (memory : ℕ → Byte) (g : GDTransport) (sent : List Byte)
    (published : ℕ) : Prop where
  wire : ∃ start < 4096, ∃ data, g.wire = some (header (RAM_CMD ft8xx_model + start) ++ data) ∧
    (start + data.length) % 4096 = sent.length % 4096
  holds : Holds ft8xx_model memory (g.__end ft8xx_model).chip sent published

/-- The counters of the driver after `n` bytes of the stream. -/
structure Counted (g : GDTransport) (n : ℕ) : Prop where
  wp : g.wp % 4096 = n % 4096
  free : g.freespace + n ≤ g.chip.executed.length + 4092
  bound : g.wp + g.freespace < 8192

section Driver

variable {g : GDTransport} {sent : List Byte} {published : ℕ}

theorem executed_latch (chip : Ft8xx) (bytes : List Byte) :
    (chip.latch ft8xx_model bytes).executed = chip.executed := by
  unfold latch
  split
  · split_ifs <;> rfl
  · rfl

variable (ft8xx_model) in
@[simp] theorem executed_end (g : GDTransport) :
    (g.__end ft8xx_model).chip.executed = g.chip.executed := by
  unfold __end
  split
  · exact executed_latch _ _
  · rfl

@[simp] theorem wire_end (g : GDTransport) : (g.__end ft8xx_model).wire = none := by
  unfold __end
  split
  · rfl
  · assumption

theorem Streaming.closed (h : Streaming ft8xx_model memory g sent published) :
    Closed ft8xx_model memory (g.__end ft8xx_model) sent published := ⟨wire_end g, h.holds⟩

variable (pace) in
theorem Closed.looked (h : Closed ft8xx_model memory g sent published) :
    Closed ft8xx_model memory (g.looked ft8xx_model pace) sent published := ⟨rfl, h.holds.run _⟩

/-- Opening the stream where the counter says. -/
theorem Closed.stream (h : Closed ft8xx_model memory g sent published)
    (hwp : g.wp % 4096 = sent.length % 4096) :
    Streaming ft8xx_model memory (g.stream ft8xx_model pace) sent published := by
  have haddresses := addresses ft8xx_model
  have hstart : g.wp &&& 0xfff = sent.length % 4096 := by
    rw [← hwp]
    exact Nat.and_two_pow_sub_one_eq_mod g.wp 12
  have hlt : sent.length % 4096 < 4096 := Nat.mod_lt _ (by omega)
  rw [GDTransport.stream, __end_closed h.wire, __wstart_eq h.wire, hstart]
  refine ⟨⟨sent.length % 4096, hlt, [], ?_, by simp⟩, ?_⟩
  · rw [List.append_nil]
  · have hend : (({ g.looked ft8xx_model pace with
        wire := some (header (RAM_CMD ft8xx_model + sent.length % 4096)) } :
          GDTransport).__end ft8xx_model).chip = (g.looked ft8xx_model pace).chip := by
      have := @latch_header ft8xx_model (g.looked ft8xx_model pace).chip
        (RAM_CMD ft8xx_model + sent.length % 4096) (by omega) []
      rwa [List.append_nil] at this
    rw [hend]
    exact h.holds.run _

/-- One more byte while there is room. -/
theorem Streaming.send (h : Streaming ft8xx_model memory g sent published)
    (hroom : sent.length + 1 ≤ g.chip.executed.length + 4092) (b : Byte) :
    Streaming ft8xx_model memory (g.send b) (sent ++ [b]) published := by
  have haddresses := addresses ft8xx_model
  obtain ⟨start, hstart, data, hwire, hpos⟩ := h.wire
  have hspace : RAM_CMD ft8xx_model + start < 0x400000 := by omega
  have hsend : (g.send b).wire =
      some (header (RAM_CMD ft8xx_model + start) ++ (data ++ [b])) := by
    rw [GDTransport.send, hwire, ← List.append_assoc]
    rfl
  have hbefore : (g.__end ft8xx_model).chip = { g.chip with
      ram := storeFrom ft8xx_model (RAM_CMD ft8xx_model + start) 0 g.chip.ram data } := by
    rw [__end, hwire]
    exact latch_header _ hspace data
  have hafter : ((g.send b).__end ft8xx_model).chip = { (g.__end ft8xx_model).chip with
      ram := Function.update (g.__end ft8xx_model).chip.ram
        (RAM_CMD ft8xx_model + sent.length % 4096) b } := by
    rw [hbefore, __end, hsend]
    simp only []
    rw [latch_header _ hspace, storeFrom_append, storeFrom, storeFrom, Nat.zero_add,
      place_ring hstart, hpos]
    rfl
  refine ⟨⟨start, hstart, data ++ [b], hsend, ?_⟩, ?_⟩
  · rw [List.length_append, List.length_append, List.length_singleton, ← Nat.add_assoc,
      Nat.add_mod, hpos, ← Nat.add_mod]
  · rw [hafter]
    exact h.holds.push (by rwa [executed_end]) b

theorem Streaming.sendAll (h : Streaming ft8xx_model memory g sent published) (data : List Byte)
    (hroom : sent.length + data.length ≤ g.chip.executed.length + 4092) :
    Streaming ft8xx_model memory (data.foldl GDTransport.send g) (sent ++ data) published := by
  induction data generalizing g sent with
  | nil => rwa [List.append_nil]
  | cons b data ih =>
      rw [List.length_cons] at hroom
      have hrest : (sent ++ [b]).length + data.length ≤ g.chip.executed.length + 4092 := by
        rw [List.length_append, List.length_singleton]
        omega
      have hnext := ih (h.send (by omega) b) hrest
      rwa [List.append_assoc] at hnext

/-! ### Waiting for the coprocessor -/

/-- The length of the complete words of a stream. -/
def fullWords (n : ℕ) : ℕ := n / 4 * 4

theorem and_ffc (w : ℕ) : w &&& 0xffc = fullWords (w % 4096) := by
  calc
    w &&& 0xffc = w / 4 % 1024 * 4 := BitFields.and_mask 2 10 w
    _ = fullWords (w % 4096) := by
          unfold fullWords
          omega

theorem and_fff (w : ℕ) : w &&& 0xfff = w % 4096 := Nat.and_two_pow_sub_one_eq_mod w 12

variable (ft8xx_model pace) in
/-- The driver after a look at the read pointer, with the room there is for the stream. -/
def counted (g : GDTransport) (sent : List Byte) : GDTransport :=
  { g.looked ft8xx_model pace with
    freespace := 4092 - (sent.length - (g.looked ft8xx_model pace).chip.executed.length) }

/-- A round of the loop of `getfree` finds out how much room there is. -/
theorem Closed.waitFree_succ (h : Closed ft8xx_model memory g sent published)
    (hwp : g.wp % 4096 = sent.length % 4096) (n fuel : ℕ) :
    g.waitFree ft8xx_model pace n (fuel + 1) =
      if (counted ft8xx_model pace g sent).freespace < n then
        (counted ft8xx_model pace g sent).waitFree ft8xx_model pace n fuel
      else some (counted ft8xx_model pace g sent) := by
  have hlooked := (h.looked pace).holds
  have hroom := hlooked.room
  have hle := hlooked.executed_le.trans hlooked.published_le
  have hfull : ((g.looked ft8xx_model pace).wp + 65536 -
      word (g.looked ft8xx_model pace).chip.ram (REG_CMD_READ ft8xx_model)) &&& 4095 =
        sent.length - (g.looked ft8xx_model pace).chip.executed.length := by
    have hfill := fill_eq (N := 4096) hle (by omega)
    rw [hlooked.read, and_fff, ← hfill, fill, ← hwp]
    change (g.wp + 65536 - _) % 4096 = _
    omega
  have hfree : (65536 + (4096 - 4) - (((g.looked ft8xx_model pace).wp + 65536 -
      word (g.looked ft8xx_model pace).chip.ram (REG_CMD_READ ft8xx_model)) &&& 4095)) % 65536 =
        4092 - (sent.length - (g.looked ft8xx_model pace).chip.executed.length) := by
    rw [hfull]
    omega
  rw [waitFree, rp_eq h.wire]
  simp only [hfree]
  rfl

variable (pace) in
theorem Closed.counted (h : Closed ft8xx_model memory g sent published) :
    Closed ft8xx_model memory (counted ft8xx_model pace g sent) sent published :=
  ⟨rfl, h.holds.run _⟩

theorem waitFree_spec {n fuel : ℕ} {g' : GDTransport}
    (h : Closed ft8xx_model memory g sent published)
    (hwp : g.wp % 4096 = sent.length % 4096)
    (hret : g.waitFree ft8xx_model pace n fuel = some g') :
    Closed ft8xx_model memory g' sent published ∧ g'.wp = g.wp ∧ n ≤ g'.freespace ∧
      g'.freespace + sent.length = g'.chip.executed.length + 4092 := by
  induction fuel generalizing g with
  | zero => exact absurd hret (by simp [waitFree])
  | succ fuel ih =>
      have hcounted := h.counted pace
      rw [h.waitFree_succ hwp] at hret
      split_ifs at hret with hmore
      · exact ih (g := GdTransport.counted ft8xx_model pace g sent) hcounted hwp hret
      · obtain rfl := Option.some.inj hret
        have hroom := hcounted.holds.room
        have hle := hcounted.holds.executed_le.trans hcounted.holds.published_le
        refine ⟨hcounted, rfl, not_lt.1 hmore, ?_⟩
        change 4092 - (sent.length - (g.looked ft8xx_model pace).chip.executed.length) + _ = _
        change _ ≤ (g.looked ft8xx_model pace).chip.executed.length + 4092 at hroom
        change (g.looked ft8xx_model pace).chip.executed.length ≤ _ at hle
        change _ = (g.looked ft8xx_model pace).chip.executed.length + 4092
        omega

/-! ### The operations -/

/-- The complete words of a stream. -/
def wholeWords (sent : List Byte) : List Byte := sent.take (fullWords sent.length)

theorem fullWords_le (n : ℕ) : fullWords n ≤ n := by
  unfold fullWords
  omega

theorem length_wholeWords (sent : List Byte) :
    (wholeWords sent).length = fullWords sent.length := by
  rw [wholeWords, List.length_take, min_eq_left (fullWords_le _)]

theorem Holds.published_le_fullWords {chip : Ft8xx}
    (h : Holds ft8xx_model memory chip sent published) :
    published ≤ fullWords sent.length := by
  have hle := h.published_le
  have haligned := h.published_aligned
  unfold fullWords
  omega

theorem end_wp (g : GDTransport) (w : ℕ) :
    ({ g with wp := w } : GDTransport).__end ft8xx_model =
      { g.__end ft8xx_model with wp := w } := by
  obtain ⟨wp, freespace, chip, wire, accesses⟩ := g
  cases wire <;> rfl

variable (pace) in
/-- The complete words are announced. -/
theorem Closed.publish (h : Closed ft8xx_model memory g sent published) {v : ℕ}
    (hv : v = fullWords sent.length % 4096) :
    Closed ft8xx_model memory
      (g.__wr16 ft8xx_model pace (REG_CMD_WRITE ft8xx_model) v) sent (fullWords sent.length) := by
  have haddresses := addresses ft8xx_model
  have hlooked := (h.looked pace).holds
  rw [__wr16_eq h.wire (by omega)]
  refine ⟨rfl, hlooked.publish (hlooked.executed_le.trans hlooked.published_le_fullWords) ?_
    (fullWords_le _) hv⟩
  exact Nat.mul_mod_left _ _

variable (pace) in
theorem Closed.executed_le_wr16 (h : Closed ft8xx_model memory g sent published) (addr : ℕ)
    (haddr : addr < 0x400000) (v : ℕ) :
    g.chip.executed.length ≤ (g.__wr16 ft8xx_model pace addr v).chip.executed.length := by
  rw [__wr16_eq h.wire haddr]
  exact h.holds.executed_le_run _

theorem chip_stream (h : g.wire = none) :
    (g.stream ft8xx_model pace).chip = (g.looked ft8xx_model pace).chip := by
  rw [GDTransport.stream, __end_closed h, __wstart_eq h]

variable (pace) in
theorem Closed.executed_le_stream (h : Closed ft8xx_model memory g sent published) :
    g.chip.executed.length ≤ (g.stream ft8xx_model pace).chip.executed.length := by
  rw [chip_stream h.wire]
  exact h.holds.executed_le_run _

@[simp] theorem wp_stream (g : GDTransport) : (g.stream ft8xx_model pace).wp = g.wp := by
  rw [GDTransport.stream, __wstart_eq (wire_end g)]
  unfold __end
  cases g.wire <;> rfl

@[simp] theorem freespace_stream (g : GDTransport) :
    (g.stream ft8xx_model pace).freespace = g.freespace := by
  rw [GDTransport.stream, __wstart_eq (wire_end g)]
  unfold __end
  cases g.wire <;> rfl

/-- `getfree` announces what is complete and finds the room it asks for. -/
theorem getfree_spec {n fuel : ℕ} {g' : GDTransport}
    (h : Closed ft8xx_model memory (g.__end ft8xx_model) sent published)
    (hwp : g.wp % 4096 = sent.length % 4096)
    (hret : g.getfree ft8xx_model pace fuel n = some g') :
    Streaming ft8xx_model memory g' sent (fullWords sent.length) ∧ Counted g' sent.length ∧
      n ≤ g'.freespace := by
  have hwords : g.wp % 4096 &&& 0xffc = fullWords sent.length % 4096 := by
    rw [and_ffc, Nat.mod_mod, hwp]
    unfold fullWords
    omega
  rw [getfree, and_fff, end_wp, Option.map_eq_some_iff] at hret
  obtain ⟨g₁, hwait, rfl⟩ := hret
  have hbase : Closed ft8xx_model memory { g.__end ft8xx_model with wp := g.wp % 4096 } sent
      published := ⟨h.wire, h.holds⟩
  have hpublished := hbase.publish pace hwords
  obtain ⟨hclosed, hwp₁, hn, hfree⟩ := waitFree_spec hpublished (by
    rw [__wr16_eq hbase.wire (by have := addresses ft8xx_model; omega)]
    change g.wp % 4096 % 4096 = _
    rw [Nat.mod_mod, hwp]) hwait
  rw [__wr16_eq hbase.wire (by have := addresses ft8xx_model; omega)] at hwp₁
  change g₁.wp = g.wp % 4096 at hwp₁
  have hgrows := hclosed.executed_le_stream pace
  have hbound := hclosed.holds.executed_le.trans hclosed.holds.published_le
  have hlt := Nat.mod_lt g.wp (by omega : 4096 > 0)
  refine ⟨hclosed.stream (by rw [hwp₁, Nat.mod_mod, hwp]), ⟨?_, ?_, ?_⟩, ?_⟩
  · rw [wp_stream, hwp₁, Nat.mod_mod, hwp]
  · rw [freespace_stream]
    omega
  · rw [wp_stream, freespace_stream]
    omega
  · rwa [freespace_stream]

theorem waitAll_spec {fuel : ℕ} {g' : GDTransport}
    (h : Closed ft8xx_model memory g sent sent.length)
    (hwp : g.wp = sent.length % 4096) (hret : g.waitAll ft8xx_model pace fuel = some g') :
    Closed ft8xx_model memory g' sent sent.length ∧ g'.wp = g.wp ∧ g'.freespace = g.freespace ∧
      g'.chip.executed = sent := by
  induction fuel generalizing g with
  | zero => exact absurd hret (by simp [waitAll])
  | succ fuel ih =>
      have hlooked := h.looked pace
      rw [waitAll, rp_eq h.wire] at hret
      simp only [] at hret
      split_ifs at hret with hmore
      · exact ih (g := g.looked ft8xx_model pace) hlooked hwp hret
      · obtain rfl := Option.some.inj hret
        have hroom := hlooked.holds.room
        have hle := hlooked.holds.executed_le
        have hread := hlooked.holds.read
        rw [not_not] at hmore
        have hwp' : (g.looked ft8xx_model pace).wp = sent.length % 4096 := hwp
        have hall : (g.looked ft8xx_model pace).chip.executed.length = sent.length := by omega
        refine ⟨hlooked, rfl, rfl, ?_⟩
        rw [hlooked.holds.executed, hall, List.take_length]

variable (pace) in
/-- The driver after a stop at a complete word, which is announced. -/
theorem stop_spec (h : Closed ft8xx_model memory (g.__end ft8xx_model) sent published)
    (hwp : g.wp % 4096 = sent.length % 4096) :
    Closed ft8xx_model memory (g.stop ft8xx_model pace) (wholeWords sent) (fullWords sent.length) ∧
      (g.stop ft8xx_model pace).wp = fullWords sent.length % 4096 ∧
      (g.stop ft8xx_model pace).freespace = g.freespace ∧
      g.chip.executed.length ≤ (g.stop ft8xx_model pace).chip.executed.length := by
  have haddresses := addresses ft8xx_model
  have hwords : g.wp &&& 0xffc = fullWords (wholeWords sent).length % 4096 := by
    rw [and_ffc, hwp, length_wholeWords]
    unfold fullWords
    omega
  have hbase : Closed ft8xx_model memory { g.__end ft8xx_model with wp := g.wp &&& 0xffc }
      (wholeWords sent) published :=
    ⟨h.wire, h.holds.cut h.holds.published_le_fullWords (fullWords_le _)⟩
  have hpublished := hbase.publish pace hwords
  have hgrows := hbase.executed_le_wr16 pace (REG_CMD_WRITE ft8xx_model)
    (by omega) (g.wp &&& 0xffc)
  have hsame : fullWords (wholeWords sent).length = fullWords sent.length := by
    rw [length_wholeWords]
    unfold fullWords
    omega
  rw [hsame] at hpublished hwords
  rw [GDTransport.stop, end_wp]
  refine ⟨hpublished, ?_, ?_, ?_⟩
  · rw [__wr16_eq hbase.wire (by omega)]
    exact hwords
  · rw [__wr16_eq hbase.wire (by omega)]
    change (g.__end ft8xx_model).freespace = g.freespace
    unfold __end
    cases g.wire <;> rfl
  · rwa [← executed_end ft8xx_model g]

/-- `finish` comes back when everything is executed. -/
theorem finish_spec {fuel : ℕ} {g' : GDTransport}
    (h : Closed ft8xx_model memory (g.__end ft8xx_model) sent published)
    (hcounted : Counted g sent.length)
    (hret : g.finish ft8xx_model pace fuel = some g') :
    Streaming ft8xx_model memory g' (wholeWords sent) (fullWords sent.length) ∧
      Counted g' (fullWords sent.length) ∧ g'.chip.executed = wholeWords sent := by
  have hlength := length_wholeWords sent
  have hfull := fullWords_le sent.length
  obtain ⟨hclosed, hwp, hfree, hgrows⟩ := stop_spec pace h hcounted.wp
  rw [finish, Option.map_eq_some_iff] at hret
  obtain ⟨g₁, hwait, rfl⟩ := hret
  have hstop : (({ g with wp := g.wp &&& 0xffc } : GDTransport).__end ft8xx_model).__wr16
      ft8xx_model pace (REG_CMD_WRITE ft8xx_model) (g.wp &&& 0xffc) =
        g.stop ft8xx_model pace := rfl
  rw [hstop] at hwait
  rw [← hlength] at hclosed hwp
  obtain ⟨hclosed₁, hwp₁, hfree₁, hall⟩ := waitAll_spec hclosed hwp hwait
  rw [hwp, hlength] at hwp₁
  have hstream := hclosed₁.executed_le_stream pace
  have hexecuted : (g₁.stream ft8xx_model pace).chip.executed = wholeWords sent := by
    have hrun := hclosed₁.holds.run (pace g₁.accesses)
    have hle := hrun.executed_le
    rw [chip_stream hclosed₁.wire]
    rw [chip_stream hclosed₁.wire, hall] at hstream
    change (wholeWords sent).length ≤ (g₁.chip.run ft8xx_model _).executed.length at hstream
    change (g₁.chip.run ft8xx_model _).executed = _
    rw [hrun.executed, le_antisymm hle hstream, List.take_length]
  have hbound := hcounted.bound
  have hfree₀ := hcounted.free
  have hlt := Nat.mod_lt (fullWords sent.length) (by omega : 4096 > 0)
  have hroom := h.holds.room
  rw [hlength] at hclosed₁
  refine ⟨hclosed₁.stream (by rw [hwp₁, hlength, Nat.mod_mod]), ⟨?_, ?_, ?_⟩, hexecuted⟩
  · rw [wp_stream, hwp₁, Nat.mod_mod]
  · rw [freespace_stream, hfree₁, hfree, hexecuted, hlength]
    have hle := hclosed.holds.executed_le
    omega
  · rw [wp_stream, freespace_stream, hfree₁, hfree, hwp₁]
    have hle := h.holds.executed_le.trans h.holds.published_le
    rw [executed_end] at hle
    omega

/-- Bytes for which there is room go into the stream. -/
theorem reserve_spec (h : Streaming ft8xx_model memory g sent published)
    (hcounted : Counted g sent.length) {data : List Byte} (hroom : data.length ≤ g.freespace) :
    Streaming ft8xx_model memory (data.foldl GDTransport.send (g.reserve data.length))
        (sent ++ data) published ∧
      Counted (data.foldl GDTransport.send (g.reserve data.length)) (sent ++ data).length := by
  have hfree := hcounted.free
  have hbound := hcounted.bound
  have hwp := hcounted.wp
  have hreserved : Streaming ft8xx_model memory (g.reserve data.length) sent published := by
    refine ⟨h.wire, ?_⟩
    have hend : ((g.reserve data.length).__end ft8xx_model).chip = (g.__end ft8xx_model).chip := by
      unfold reserve __end
      cases g.wire <;> rfl
    rw [hend]
    exact h.holds
  refine ⟨hreserved.sendAll data ?_, ?_⟩
  · change _ ≤ g.chip.executed.length + 4092
    omega
  · rw [foldl_send, List.length_append]
    constructor <;> simp only [reserve] <;> omega

theorem cmd_n_spec {s : List Byte} {fuel : ℕ} {g' : GDTransport}
    (h : Streaming ft8xx_model memory g sent published) (hcounted : Counted g sent.length)
    (hret : g.cmd_n ft8xx_model pace fuel s = some g') :
    ∃ p, Streaming ft8xx_model memory g' (sent ++ s) p ∧ Counted g' (sent ++ s).length := by
  rw [cmd_n, Option.map_eq_some_iff] at hret
  obtain ⟨g₁, hroom, rfl⟩ := hret
  rw [sendEights_eq]
  split_ifs at hroom with hless
  · obtain ⟨hstream, hcounted₁, hn⟩ := getfree_spec h.closed hcounted.wp hroom
    exact ⟨_, reserve_spec hstream hcounted₁ hn⟩
  · obtain rfl := Option.some.inj hroom
    exact ⟨_, reserve_spec h hcounted (not_lt.1 hless)⟩

/-- The four bytes of a word, the lowest first. -/
def bytes32 (x : ℕ) : List Byte :=
  [lowByte x, lowByte (x >>> 8), lowByte (x >>> 16), lowByte (x >>> 24)]

/-- `cmd32` is `cmd_n` of the four bytes. -/
theorem cmd32_eq (fuel x : ℕ) (g : GDTransport) :
    g.cmd32 ft8xx_model pace fuel x = g.cmd_n ft8xx_model pace fuel (bytes32 x) := by
  rw [cmd32, cmd_n]
  simp only [sendEights_eq]
  rfl

/-- `cmdbyte` is `cmd_n` of one byte. -/
theorem cmdbyte_eq (fuel : ℕ) (x : Byte) (g : GDTransport) :
    g.cmdbyte ft8xx_model pace fuel x = g.cmd_n ft8xx_model pace fuel [x] := by
  rw [cmdbyte, cmd_n]
  simp only [List.length_singleton, Nat.lt_one_iff, sendEights_eq]
  rfl

/-! ### Accesses to other memory -/

/-- Bytes written one after the other. -/
def writeBytes (memory : ℕ → Byte) : (addr : ℕ) → List Byte → ℕ → Byte
  | _, [] => memory
  | addr, b :: data => writeBytes (Function.update memory addr b) (addr + 1) data

theorem writeBytes_of_outside {memory : ℕ → Byte} {addr : ℕ} {data : List Byte} {a : ℕ}
    (ha : a < addr ∨ addr + data.length ≤ a) : writeBytes memory addr data a = memory a := by
  induction data generalizing memory addr with
  | nil => rfl
  | cons b data ih =>
      rw [List.length_cons] at ha
      rw [writeBytes, ih (by omega), Function.update_of_ne (by omega)]

theorem writeBytes_congr {ram memory : ℕ → Byte} {a : ℕ} (h : ram a = memory a) (addr : ℕ)
    (data : List Byte) : writeBytes ram addr data a = writeBytes memory addr data a := by
  induction data generalizing ram memory addr with
  | nil => exact h
  | cons b data ih =>
      refine ih ?_ (addr + 1)
      rw [Function.update_apply, Function.update_apply, h]

theorem storeFrom_elsewhere (ram : ℕ → Byte) {addr : ℕ}
    (haddr : addr < RAM_CMD ft8xx_model ∨ RAM_CMD ft8xx_model + 4096 ≤ addr) (i : ℕ)
    (data : List Byte) :
    storeFrom ft8xx_model addr i ram data = writeBytes ram (addr + i) data := by
  induction data generalizing ram i with
  | nil => rfl
  | cons b data ih =>
      rw [storeFrom, ih, writeBytes, place, if_neg (by omega), Nat.add_assoc]

theorem Holds.store {chip : Ft8xx} (h : Holds ft8xx_model memory chip sent published) {addr : ℕ}
    {data : List Byte} (helse : Elsewhere ft8xx_model addr data.length) (hne : data ≠ []) :
    Holds ft8xx_model (writeBytes memory addr data)
      { chip with ram := storeFrom ft8xx_model addr 0 chip.ram data } sent published := by
  have haddresses := addresses ft8xx_model
  have hbounds := helse.bounds
  have hpos := List.length_pos_iff.2 hne
  rw [storeFrom_elsewhere _ (by omega), Nat.add_zero]
  exact
    { h with
      queued := h.queued.congr fun i _ => writeBytes_of_outside (by omega)
      read := by
        rw [word_congr (writeBytes_of_outside (by omega)) (writeBytes_of_outside (by omega)),
          h.read]
      write := by
        rw [word_congr (writeBytes_of_outside (by omega)) (writeBytes_of_outside (by omega)),
          h.write]
      memory := fun a ha => writeBytes_congr (h.memory a ha) addr data }

@[simp] theorem wp_end (g : GDTransport) : (g.__end ft8xx_model).wp = g.wp := by
  unfold __end
  cases g.wire <;> rfl

@[simp] theorem freespace_end (g : GDTransport) :
    (g.__end ft8xx_model).freespace = g.freespace := by
  unfold __end
  cases g.wire <;> rfl

theorem stream_end (g : GDTransport) :
    (g.__end ft8xx_model).stream ft8xx_model pace = g.stream ft8xx_model pace := by
  rw [GDTransport.stream, __end_closed (wire_end g), wp_end]
  rfl

variable (pace) in
/-- The stream goes on after a transaction that leaves the counters as they are. -/
theorem Closed.stream_counted {g₁ : GDTransport} (h : Closed ft8xx_model memory g₁ sent published)
    (hcounted : Counted g sent.length) (hwp : g₁.wp = g.wp) (hfree : g₁.freespace = g.freespace)
    (hgrows : g.chip.executed.length ≤ g₁.chip.executed.length) :
    Streaming ft8xx_model memory (g₁.stream ft8xx_model pace) sent published ∧
      Counted (g₁.stream ft8xx_model pace) sent.length := by
  have hstream := h.executed_le_stream pace
  have hfree₀ := hcounted.free
  refine ⟨h.stream (by rw [hwp, hcounted.wp]), ?_, ?_, ?_⟩
  · rw [wp_stream, hwp, hcounted.wp]
  · rw [freespace_stream, hfree]
    omega
  · rw [wp_stream, freespace_stream, hwp, hfree]
    exact hcounted.bound

variable (pace) in
theorem resume_spec (h : Closed ft8xx_model memory (g.__end ft8xx_model) sent published)
    (hcounted : Counted g sent.length) :
    Streaming ft8xx_model memory (g.resume ft8xx_model pace) sent published ∧
      Counted (g.resume ft8xx_model pace) sent.length := by
  rw [resume, ← stream_end]
  exact h.stream_counted pace hcounted (wp_end g) (freespace_end g) (by rw [executed_end])

variable (pace) in
theorem wr_n_spec (h : Closed ft8xx_model memory (g.__end ft8xx_model) sent published)
    (hcounted : Counted g sent.length) {addr : ℕ} {src : List Byte}
    (helse : Elsewhere ft8xx_model addr src.length) (hne : src ≠ []) :
    Streaming ft8xx_model (writeBytes memory addr src) (g.wr_n ft8xx_model pace addr src) sent
        published ∧
      Counted (g.wr_n ft8xx_model pace addr src) sent.length := by
  have hbounds := helse.bounds
  have hpos := List.length_pos_iff.2 hne
  rw [wr_n, ← stream_end, write_transaction (wire_end g) (by omega)]
  refine Closed.stream_counted pace ⟨rfl, (h.looked pace).holds.store helse hne⟩ hcounted
    (wp_end g) (freespace_end g) ?_
  exact (executed_end ft8xx_model g ▸ h.holds.executed_le_run _)

variable (pace) in
theorem rd_n_spec (h : Closed ft8xx_model memory (g.__end ft8xx_model) sent published)
    (hcounted : Counted g sent.length) {addr n : ℕ} (helse : Elsewhere ft8xx_model addr n)
    (hn : 0 < n) :
    (g.rd_n ft8xx_model pace addr n).1 = (List.range n).map (fun i => memory (addr + i)) ∧
      Streaming ft8xx_model memory (g.rd_n ft8xx_model pace addr n).2 sent published ∧
      Counted (g.rd_n ft8xx_model pace addr n).2 sent.length := by
  have hbounds := helse.bounds
  have hlooked := h.looked pace
  rw [rd_n, __start_eq (wire_end g), receive_reading (by omega)]
  refine ⟨List.map_congr_left fun i hi => ?_, ?_⟩
  · have hlt := List.mem_range.1 hi
    rw [place, if_neg (by omega), Nat.zero_add]
    refine hlooked.holds.memory _ ?_
    unfold Elsewhere at helse ⊢
    omega
  · simp only []
    rw [← stream_end, __end_reading (by omega)]
    exact hlooked.stream_counted pace hcounted (wp_end g) (freespace_end g)
      (executed_end ft8xx_model g ▸ h.holds.executed_le_run _)

end Driver

end GdTransport
end PoorMansSmu
