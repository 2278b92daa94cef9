import PoorMansSmu.Ad7176Noise
import PoorMansSmu.Lib.BitFields
import PoorMansSmu.Lib.Interrupts

/-!
# SpiBus — one line for display, memory and converters

The display, the external memory, the ADC, both output converters and the amplifier share a serial
line.  What is transferred goes to every chip whose select line is low.  Display and memory have a
select line of their own; for the others pins 8 and 9 choose one, and pin 7 selects it.

Sampling and pulses are timer interrupts that use the line as well.  Both are given to
`SPI.usingInterrupt`, so that they wait while a transaction is open.  Every driver function opens a
transaction before it touches a select line, and closes it when the line is released.

- `Bus`, `Section`        : lines and chips, and what the drivers do to them in one go;
- `calls_arrive`          : with interrupts between any two of their steps, calls arrive whole;
- `foldl_receive_frames`  : what arrives at ADC and converters is what they were written.

Between `GD.resume` and `GD.__end` the display is selected.  The calls of the program stand outside
of that; what becomes of one that does not is `commit_in_stream`.
-/

set_option linter.style.nameCheck false

namespace PoorMansSmu
namespace SpiBus

open Run Wire Interrupts Hardware Ltc2758 Ad7176

/-! ## Lines and chips -/

inductive Device
  | display
  | ram
  | adc
  | sourceDac
  | limitDac
  | ada4254
  deriving DecidableEq, Repr

def devices : List Device := [.display, .ram, .adc, .sourceDac, .limitDac, .ada4254]

/-- The pins on the way to the select lines. -/
inductive Pin
  | pin7
  | pin8
  | pin9
  | CS
  | RAM_CS
  deriving DecidableEq, Repr

/-- The pin that selects a chip. -/
def enable : Device → Pin
  | .display => .CS
  | .ram => .RAM_CS
  | .adc => .pin7
  | .sourceDac => .pin7
  | .limitDac => .pin7
  | .ada4254 => .pin7

/-- Whether pins 8 and 9 choose a chip. -/
def chosen (level : Pin → Bool) : Device → Bool
  | .display => true
  | .ram => true
  | .adc => !level .pin8 && !level .pin9
  | .sourceDac => !level .pin8 && level .pin9
  | .limitDac => level .pin8 && !level .pin9
  | .ada4254 => level .pin8 && level .pin9

/-- A select line is low. -/
def selected (level : Pin → Bool) (d : Device) : Bool := !level (enable d) && chosen level d

structure Bus where
  level : Pin → Bool
  /-- A transaction is open, and the timers wait. -/
  masked : Bool
  /-- What a chip has got since it was selected. -/
  frame : Device → List Byte
  /-- What chips had got when they were deselected, in order. -/
  delivered : List (Device × List Byte)

inductive Event
  | digitalWrite (pin : Pin) (level : Bool)
  | transfer (b : Byte)
  | beginTransaction
  | endTransaction

namespace Bus

/-- A chip that is deselected keeps what it has got; without a byte nothing happens to it. -/
def digitalWrite (b : Bus) (pin : Pin) (level : Bool) : Bus :=
  let now := Function.update b.level pin level
  let released := devices.filter fun d =>
    selected b.level d && !selected now d && !(b.frame d).isEmpty
  { b with
    level := now
    frame := fun d => if selected now d then b.frame d else []
    delivered := b.delivered ++ released.map fun d => (d, b.frame d) }

def step (b : Bus) : Event → Bus
  | .digitalWrite pin level => b.digitalWrite pin level
  | .transfer x =>
      { b with frame := fun d => if selected b.level d then b.frame d ++ [x] else b.frame d }
  | .beginTransaction => { b with masked := true }
  | .endTransaction => { b with masked := false }

end Bus

/-! ## Drivers -/

def SPIMuxSelectLTC2758 (nr : ℕ) : List Event :=
  (if nr = 0 then [.digitalWrite .pin8 false, .digitalWrite .pin9 true]
    else [.digitalWrite .pin8 true, .digitalWrite .pin9 false]) ++ [.digitalWrite .pin7 false]

def SPIMuxSelectAD7176 : List Event :=
  [.digitalWrite .pin8 false, .digitalWrite .pin9 false, .digitalWrite .pin7 false]

def select : Device → List Event
  | .display => [.digitalWrite .CS false]
  | .ram => [.digitalWrite .RAM_CS false]
  | .adc => SPIMuxSelectAD7176
  | .sourceDac => SPIMuxSelectLTC2758 0
  | .limitDac => SPIMuxSelectLTC2758 1
  | .ada4254 => [.digitalWrite .pin8 true, .digitalWrite .pin9 true, .digitalWrite .pin7 false]

/-- Select a chip, send bytes, and release it. -/
def access (d : Device) (data : List Byte) : List Event :=
  select d ++ data.map .transfer ++ [.digitalWrite (enable d) true]

/-- What an interrupt cannot come into. -/
inductive Section
  | transaction (accesses : List (Device × List Byte))
  /-- `SPI.endTransaction` by itself. -/
  | endTransaction
  /-- A chip is deselected that need not be selected. -/
  | release (d : Device)

namespace Section

def events : Section → List Event
  | .transaction accesses =>
      .beginTransaction :: (accesses.flatMap (fun a => access a.1 a.2) ++ [.endTransaction])
  | .endTransaction => [.endTransaction]
  | .release d => [.digitalWrite (enable d) true]

/-- What a chip gets of an access. -/
def frame (a : Device × List Byte) : List (Device × List Byte) := if a.2.isEmpty then [] else [a]

/-- What the chips get of a section. -/
def frames : Section → List (Device × List Byte)
  | .transaction accesses => accesses.flatMap frame
  | .endTransaction => []
  | .release _ => []

end Section

/-- The bytes of a transfer to an output converter. -/
def ltcBytes (dac_command dac_address data : ℕ) : List Byte :=
  [BitVec.ofNat 8 (dac_command ||| dac_address), BitVec.ofNat 8 (data >>> 10),
    BitVec.ofNat 8 (data >>> 2), BitVec.ofNat 8 (data <<< 6)]

def dacOf (nr : ℕ) : Device := if nr = 0 then .sourceDac else .limitDac

def LTC2758_write (nr dac_command dac_address data : ℕ) : List Section :=
  [.transaction [(dacOf nr, ltcBytes dac_command dac_address data)]]

/-- The transaction that was open before, if any, is closed first. -/
def AD7176_Write (data : List Byte) : List Section :=
  [.endTransaction, .transaction [(.adc, data)]]

/-- The bytes of a command go out while those of the answer come in. -/
def AD7176_Read (data : List Byte) : List Section :=
  [.endTransaction, .transaction [(.adc, data)]]

def disable_ADC_DAC_SPI_units : List Section := [.release .adc]

/-- `__start` or `__wstart`, what is streamed, and the `__end` that follows. -/
def stream (data : List Byte) : List Section := [.transaction [(.display, data)]]

/-- `__end` when nothing is streamed. -/
def __end : List Section := [.release .display, .endTransaction]

def RAM_INSTR_READ : Byte := 0x03
def RAM_INSTR_WRITE : Byte := 0x02

def ramAddress (addr : ℕ) : List Byte :=
  [BitVec.ofNat 8 (addr >>> 16), BitVec.ofNat 8 (addr >>> 8), BitVec.ofNat 8 addr]

def ram_read (addr len : ℕ) : List Section :=
  [.transaction [(.ram, RAM_INSTR_READ :: ramAddress addr ++ List.replicate len 0)]]

def ram_write (buf : List Byte) (addr : ℕ) : List Section :=
  [.transaction [(.ram, RAM_INSTR_WRITE :: ramAddress addr ++ buf)]]

def ada4254_2 (on : Bool) : List Section :=
  [.transaction [(.ada4254, [0x08, if on then 0xff else 0xfb])]]

/-- Four accesses in one transaction. -/
def ada4254_check : List Section :=
  [.transaction [(.ada4254, [0x0B, 255]), (.ada4254, [0x03, 0x08]), (.ada4254, [0x84]),
    (.ada4254, [0x83])]]

/-! ## What is kept -/

/-- At most one chip is selected, and only while the timers wait. -/
structure Exclusive (b : Bus) : Prop where
  one : ∀ d d', selected b.level d = true → selected b.level d' = true → d = d'
  masked : ∀ d, selected b.level d = true → b.masked = true

/-- No chip is selected. -/
structure Free (b : Bus) : Prop where
  high : ∀ d, b.level (enable d) = true
  frame : ∀ d, b.frame d = []

/-- One chip is selected and has got some bytes. -/
structure Busy (b : Bus) (d : Device) (data : List Byte) : Prop where
  low : ∀ d', b.level (enable d') = false ↔ enable d' = enable d
  only : ∀ d', selected b.level d' = decide (d' = d)
  frame : ∀ d', b.frame d' = if d' = d then data else []

/-- Between two sections. -/
structure Rest (b : Bus) : Prop extends Free b where
  unmasked : b.masked = false

theorem Free.not_selected {b : Bus} (h : Free b) (d : Device) : selected b.level d = false := by
  rw [selected, h.high]
  rfl

theorem Free.exclusive {b : Bus} (h : Free b) : Exclusive b where
  one := fun d _ hd => absurd hd (by rw [h.not_selected]; decide)
  masked := fun d hd => absurd hd (by rw [h.not_selected]; decide)

theorem Busy.exclusive {b : Bus} {d : Device} {data : List Byte} (h : Busy b d data)
    (hmasked : b.masked = true) : Exclusive b where
  one := by
    intro d₁ d₂ h₁ h₂
    rw [h.only, decide_eq_true_iff] at h₁ h₂
    exact h₁.trans h₂.symm
  masked := fun _ _ => hmasked

/-- Pins 8 and 9 select nothing. -/
theorem Free.choose {b : Bus} (h : Free b) {pin : Pin} (hpin : ∀ d, enable d ≠ pin) (l : Bool) :
    Free (b.digitalWrite pin l) ∧ (b.digitalWrite pin l).delivered = b.delivered := by
  refine ⟨⟨fun d => ?_, fun d => ?_⟩, ?_⟩
  · exact (Function.update_of_ne (hpin d) _ _).trans (h.high d)
  · simp [Bus.digitalWrite, h.frame]
  · simp [Bus.digitalWrite, h.not_selected]

/-- The chip that pins 8 and 9 choose is selected. -/
theorem Free.selects {b : Bus} (h : Free b) {d : Device}
    (hd : ∀ d', enable d' = enable d → (chosen b.level d' = true ↔ d' = d)) :
    Busy (b.digitalWrite (enable d) false) d [] ∧
      (b.digitalWrite (enable d) false).delivered = b.delivered := by
  have hlevel : ∀ d', (b.digitalWrite (enable d) false).level (enable d') = false ↔
      enable d' = enable d := by
    intro d'
    by_cases heq : enable d' = enable d
    · exact iff_of_true (by rw [heq]; exact Function.update_self ..) heq
    · refine iff_of_false ?_ heq
      rw [show (b.digitalWrite (enable d) false).level (enable d') = _ from
        Function.update_of_ne heq _ _, h.high]
      decide
  have hchosen : ∀ d', chosen (b.digitalWrite (enable d) false).level d' = chosen b.level d' := by
    have h8 : Pin.pin8 ≠ enable d := by cases d <;> decide
    have h9 : Pin.pin9 ≠ enable d := by cases d <;> decide
    intro d'
    cases d' <;> simp [chosen, Bus.digitalWrite, Function.update_of_ne h8, Function.update_of_ne h9]
  refine ⟨⟨hlevel, fun d' => ?_, fun d' => ?_⟩, ?_⟩
  · rw [selected, hchosen, Bool.eq_iff_iff, Bool.and_eq_true, Bool.not_eq_true', hlevel,
      decide_eq_true_iff]
    constructor
    · exact fun hboth => (hd d' hboth.1).1 hboth.2
    · rintro rfl
      exact ⟨rfl, (hd d' rfl).2 rfl⟩
  · simp [Bus.digitalWrite, h.frame]
  · simp [Bus.digitalWrite, h.not_selected]

theorem Busy.transfer {b : Bus} {d : Device} {data : List Byte} (h : Busy b d data) (x : Byte) :
    Busy (b.step (.transfer x)) d (data ++ [x]) where
  low := h.low
  only := h.only
  frame := by
    intro d'
    simp only [Bus.step, h.only, h.frame]
    by_cases hd : d' = d <;> simp [hd]

/-- A chip that is released has got its bytes. -/
theorem Busy.release {b : Bus} {d : Device} {data : List Byte} (h : Busy b d data) :
    Free (b.digitalWrite (enable d) true) ∧
      (b.digitalWrite (enable d) true).delivered = b.delivered ++ Section.frame (d, data) := by
  have hhigh : ∀ d', Function.update b.level (enable d) true (enable d') = true := by
    intro d'
    by_cases heq : enable d' = enable d
    · rw [heq]
      exact Function.update_self ..
    · have hlow := mt (h.low d').1 heq
      exact (Function.update_of_ne heq _ _).trans (Bool.eq_true_of_not_eq_false hlow)
  have hnone : ∀ d', selected (Function.update b.level (enable d) true) d' = false := by
    intro d'
    rw [selected, hhigh]
    rfl
  refine ⟨⟨hhigh, fun d' => ?_⟩, ?_⟩
  · exact if_neg (by rw [hnone]; decide)
  · -- the one chip that was selected has its bytes handed over
    have hreleased : devices.filter (fun d' => selected b.level d' &&
        !selected (Function.update b.level (enable d) true) d' && !(b.frame d').isEmpty) =
        if data.isEmpty then [] else [d] := by
      simp only [hnone, h.only, h.frame]
      cases d <;> cases data <;> rfl
    simp only [Bus.digitalWrite, hreleased, Section.frame]
    by_cases hempty : data.isEmpty = true
    · simp [hempty]
    · simp [hempty, h.frame]

/-! ## Accesses and sections -/

/-- All along some events at most one chip is selected and the timers wait; at the end they still
do, and this has been handed over. -/
structure Passes (b : Bus) (es : List Event) (handed : List (Device × List Byte)) : Prop where
  always : Always Bus.step (fun b => Exclusive b ∧ b.masked = true) b es
  delivered : (exec Bus.step b es).delivered = b.delivered ++ handed

theorem Passes.append {b : Bus} {es fs : List Event} {xs ys : List (Device × List Byte)}
    (h : Passes b es xs) (h' : Passes (exec Bus.step b es) fs ys) :
    Passes b (es ++ fs) (xs ++ ys) where
  always := always_append.2 ⟨h.always, h'.always⟩
  delivered := by rw [exec_append, h'.delivered, h.delivered, List.append_assoc]

theorem Free.selects_muxed {b : Bus} (h : Free b) (hmasked : b.masked = true) {d : Device}
    {p₈ p₉ : Bool}
    (hchosen : ∀ level : Pin → Bool, level .pin8 = p₈ → level .pin9 = p₉ →
      ∀ d', enable d' = enable d → (chosen level d' = true ↔ d' = d)) :
    let es := [.digitalWrite .pin8 p₈, .digitalWrite .pin9 p₉, .digitalWrite (enable d) false]
    Passes b es [] ∧ Busy (exec Bus.step b es) d [] := by
  have h₈ : ∀ d, enable d ≠ .pin8 := by intro d; cases d <;> decide
  have h₉ : ∀ d, enable d ≠ .pin9 := by intro d; cases d <;> decide
  have hfirst := h.choose h₈ p₈
  have hsecond := hfirst.1.choose h₉ p₉
  have hlast := hsecond.1.selects (hchosen _ rfl rfl)
  refine ⟨⟨?_, ?_⟩, hlast.1⟩
  · exact ⟨⟨h.exclusive, hmasked⟩, ⟨hfirst.1.exclusive, hmasked⟩, ⟨hsecond.1.exclusive, hmasked⟩,
      hlast.1.exclusive hmasked, hmasked⟩
  · rw [List.append_nil]
    exact hlast.2.trans (hsecond.2.trans hfirst.2)

theorem Free.passes_select {b : Bus} (h : Free b) (hmasked : b.masked = true) (d : Device) :
    Passes b (select d) [] ∧ Busy (exec Bus.step b (select d)) d [] := by
  have hown : ∀ d, (∀ d', enable d' = enable d → d' = d) → chosen b.level d = true →
      Passes b [.digitalWrite (enable d) false] [] ∧
        Busy (b.digitalWrite (enable d) false) d [] := by
    intro d hd hchosen
    have hselect := h.selects (d := d) fun d' heq => by
      rw [hd d' heq]
      exact iff_of_true hchosen rfl
    refine ⟨⟨⟨⟨h.exclusive, hmasked⟩, hselect.1.exclusive hmasked, hmasked⟩, ?_⟩, hselect.1⟩
    rw [List.append_nil]
    exact hselect.2
  cases d with
  | display => exact hown .display (fun d' hd' => by cases d' <;> first | rfl | cases hd') rfl
  | ram => exact hown .ram (fun d' hd' => by cases d' <;> first | rfl | cases hd') rfl
  | adc =>
      refine h.selects_muxed hmasked (d := .adc) fun level h₈ h₉ d' hd' => ?_
      cases d' <;> simp_all [chosen, enable]
  | sourceDac =>
      refine h.selects_muxed hmasked (d := .sourceDac) fun level h₈ h₉ d' hd' => ?_
      cases d' <;> simp_all [chosen, enable]
  | limitDac =>
      refine h.selects_muxed hmasked (d := .limitDac) fun level h₈ h₉ d' hd' => ?_
      cases d' <;> simp_all [chosen, enable]
  | ada4254 =>
      refine h.selects_muxed hmasked (d := .ada4254) fun level h₈ h₉ d' hd' => ?_
      cases d' <;> simp_all [chosen, enable]

theorem Busy.passes_transfer {b : Bus} {d : Device} {data : List Byte} (h : Busy b d data)
    (hmasked : b.masked = true) (more : List Byte) :
    Passes b (more.map .transfer) [] ∧
      Busy (exec Bus.step b (more.map .transfer)) d (data ++ more) := by
  induction more generalizing b data with
  | nil =>
      refine ⟨⟨⟨h.exclusive hmasked, hmasked⟩, (List.append_nil _).symm⟩, ?_⟩
      rw [List.append_nil]
      exact h
  | cons x more ih =>
      obtain ⟨hpasses, hbusy⟩ := ih (h.transfer x) hmasked
      refine ⟨⟨⟨⟨h.exclusive hmasked, hmasked⟩, hpasses.always⟩, hpasses.delivered⟩, ?_⟩
      rw [List.append_assoc] at hbusy
      exact hbusy

/-- An access hands over its bytes, to the chip it is for, and leaves no chip selected. -/
theorem Free.passes_access {b : Bus} (h : Free b) (hmasked : b.masked = true) (d : Device)
    (data : List Byte) :
    Passes b (access d data) (Section.frame (d, data)) ∧
      Free (exec Bus.step b (access d data)) := by
  obtain ⟨hselect, hbusy⟩ := h.passes_select hmasked d
  obtain ⟨htransfer, hbusy⟩ := hbusy.passes_transfer hselect.always.exec.2 data
  have hmasked' := htransfer.always.exec.2
  obtain ⟨hfree, hdelivered⟩ := hbusy.release
  have hrelease : Passes (exec Bus.step (exec Bus.step b (select d)) (data.map .transfer))
      [.digitalWrite (enable d) true] (Section.frame (d, data)) :=
    ⟨⟨⟨hbusy.exclusive hmasked', hmasked'⟩, hfree.exclusive, hmasked'⟩, hdelivered⟩
  rw [← exec_append] at hrelease hfree
  refine ⟨(hselect.append htransfer).append hrelease, ?_⟩
  rw [access, exec_append]
  exact hfree

theorem Free.passes_accesses {b : Bus} (h : Free b) (hmasked : b.masked = true)
    (accesses : List (Device × List Byte)) :
    let es := accesses.flatMap fun a => access a.1 a.2
    Passes b es (accesses.flatMap Section.frame) ∧ Free (exec Bus.step b es) := by
  induction accesses generalizing b with
  | nil => exact ⟨⟨⟨h.exclusive, hmasked⟩, (List.append_nil _).symm⟩, h⟩
  | cons a accesses ih =>
      obtain ⟨hfirst, hfree⟩ := h.passes_access hmasked a.1 a.2
      obtain ⟨hothers, hfree'⟩ := ih hfree hfirst.always.exec.2
      refine ⟨hfirst.append hothers, ?_⟩
      rw [List.flatMap_cons, exec_append]
      exact hfree'

/-- A section leads from rest to rest, with at most one chip selected all along, and hands over the
bytes of its calls. -/
theorem Rest.passes {b : Bus} (h : Rest b) (x : Section) :
    Rest (atOnce Bus.step Section.events b x) ∧
      Always Bus.step Exclusive b x.events ∧
      (atOnce Bus.step Section.events b x).delivered = b.delivered ++ x.frames := by
  cases x with
  | transaction accesses =>
      have hopen : Free (b.step .beginTransaction) := ⟨h.high, h.frame⟩
      obtain ⟨hpasses, hfree⟩ := hopen.passes_accesses rfl accesses
      have heq : atOnce Bus.step Section.events b (.transaction accesses) =
          (exec Bus.step (b.step .beginTransaction)
            (accesses.flatMap fun a => access a.1 a.2)).step .endTransaction := by
        rw [atOnce, Section.events, exec_cons, exec_append]
        rfl
      have hrest : Rest (atOnce Bus.step Section.events b (.transaction accesses)) := by
        rw [heq]
        exact ⟨⟨hfree.high, hfree.frame⟩, rfl⟩
      refine ⟨hrest, ⟨h.toFree.exclusive, ?_⟩, ?_⟩
      · refine always_append.2 ⟨hpasses.always.mono fun _ hb => hb.1, ?_⟩
        refine ⟨hpasses.always.exec.1, ?_⟩
        rw [heq] at hrest
        exact hrest.toFree.exclusive
      · rw [heq]
        exact hpasses.delivered
  | endTransaction =>
      have hrest : Rest (b.step .endTransaction) := ⟨⟨h.high, h.frame⟩, rfl⟩
      exact ⟨hrest, ⟨h.toFree.exclusive, hrest.toFree.exclusive⟩, (List.append_nil _).symm⟩
  | release d =>
      have hnone := h.toFree.not_selected
      have hhigh : ∀ d', (b.digitalWrite (enable d) true).level (enable d') = true := by
        intro d'
        by_cases heq : enable d' = enable d
        · rw [heq]
          exact Function.update_self ..
        · exact (Function.update_of_ne heq _ _).trans (h.high d')
      have hrest : Rest (b.digitalWrite (enable d) true) :=
        ⟨⟨hhigh, fun d' => by simp [Bus.digitalWrite, h.frame]⟩, h.unmasked⟩
      refine ⟨hrest, ⟨h.toFree.exclusive, hrest.toFree.exclusive⟩, ?_⟩
      change b.delivered ++ _ = _
      simp [hnone, Section.frames]

/-! ## Interrupts -/

def Enabled (b : Bus) : Prop := b.masked = false

theorem sections : Sections Bus.step Section.events Enabled Rest where
  ne_nil := by
    intro x
    cases x <;> exact List.cons_ne_nil _ _
  rest := fun _ x hb => (hb.passes x).1
  inside := by
    intro b x done todo hb hx hdone htodo
    obtain ⟨e, done, rfl⟩ := List.exists_cons_of_ne_nil hdone
    cases x with
    | transaction accesses =>
        rw [Section.events, List.cons_append, List.cons_eq_cons] at hx
        obtain ⟨rfl, hx⟩ := hx
        -- all but the last event of the transaction
        have hbody := congrArg List.dropLast hx
        rw [List.dropLast_concat, List.dropLast_append_of_ne_nil htodo] at hbody
        have hopen : Free (b.step .beginTransaction) := ⟨hb.high, hb.frame⟩
        have halways := (hopen.passes_accesses rfl accesses).1.always
        rw [hbody, always_append] at halways
        have hmasked := halways.1.exec.2
        rw [exec_cons, Enabled, hmasked]
        decide
    | endTransaction =>
        have hlast := (List.cons_eq_cons.1 hx).2
        exact absurd (List.append_eq_nil_iff.1 hlast.symm).2 htodo
    | release d =>
        have hlast := (List.cons_eq_cons.1 hx).2
        exact absurd (List.append_eq_nil_iff.1 hlast.symm).2 htodo

/-- What has been handed over stays so. -/
theorem delivered_exec (b : Bus) (es : List Event) :
    b.delivered <+: (exec Bus.step b es).delivered := by
  induction es generalizing b with
  | nil => exact List.prefix_rfl
  | cons e es ih =>
      refine List.IsPrefix.trans ?_ (ih (b.step e))
      cases e with
      | digitalWrite pin level => exact List.prefix_append _ _
      | transfer x => exact List.prefix_rfl
      | beginTransaction => exact List.prefix_rfl
      | endTransaction => exact List.prefix_rfl

/-- A section puts what it sends on a list. -/
def send (sent : List (Device × List Byte)) (x : Section) : List (Device × List Byte) :=
  sent ++ x.frames

/-- What the next section of the running program sends. -/
def next (a : Config (List (Device × List Byte)) Section) : List (Device × List Byte) :=
  match a.stack with
  | (x :: _) :: _ => x.frames
  | _ => []

/-- The chips have got what the sections sent, and of the one under way its first accesses. -/
structure Arrived (a : Config (List (Device × List Byte)) Section) (b : Bus) : Prop where
  exclusive : Exclusive b
  all : a.state <+: b.delivered
  only : b.delivered <+: a.state ++ next a
  settled : b.masked = false → b.delivered = a.state

/-- The lines as they are between two sections. -/
def idle : Bus where
  level := fun _ => true
  masked := false
  frame := fun _ => []
  delivered := []

theorem idle_rest : Rest idle := ⟨⟨fun _ => rfl, fun _ => rfl⟩, rfl⟩

/-- What is transferred. -/
def transferred (es : List Event) : List Byte :=
  es.flatMap fun e =>
    match e with
    | .transfer x => [x]
    | _ => []

/-- While its select line is not touched, the display takes everything that is transferred. -/
theorem frame_display (b : Bus) (hb : b.level .CS = false) (es : List Event)
    (hes : ∀ l, Event.digitalWrite .CS l ∉ es) :
    (exec Bus.step b es).frame .display = b.frame .display ++ transferred es ∧
      (exec Bus.step b es).level .CS = false := by
  induction es generalizing b with
  | nil => exact ⟨(List.append_nil _).symm, hb⟩
  | cons e es ih =>
      have hrest : ∀ l, Event.digitalWrite .CS l ∉ es := fun l hl =>
        hes l (List.mem_cons_of_mem e hl)
      have hselected : ∀ level : Pin → Bool, level .CS = false →
          selected level .display = true := by
        intro level hlevel
        rw [selected, enable, hlevel]
        rfl
      cases e with
      | digitalWrite pin level =>
          have hpin : Pin.CS ≠ pin := fun heq => hes level (heq ▸ List.mem_cons_self)
          have hlevel : (b.digitalWrite pin level).level .CS = false :=
            (Function.update_of_ne hpin _ _).trans hb
          have hframe : (b.digitalWrite pin level).frame .display = b.frame .display :=
            if_pos (hselected _ hlevel)
          have hmore := ih _ hlevel hrest
          rw [hframe] at hmore
          exact hmore
      | transfer x =>
          have hframe : (b.step (.transfer x)).frame .display = b.frame .display ++ [x] :=
            if_pos (hselected _ hb)
          have hmore := ih (b.step (.transfer x)) hb hrest
          rw [hframe, List.append_assoc] at hmore
          exact hmore
      | beginTransaction => exact ih _ hb hrest
      | endTransaction => exact ih _ hb hrest

/-- A converter takes four bytes: command and address, 18 bits of data, and six that do not
count. -/
def ltcReceive (d : Dac) : List Byte → Dac
  | [b₁, b₂, b₃, b₄] =>
      d.write (b₁.toNat / 16 * 16) (b₁.toNat % 16)
        (b₂.toNat * 1024 + b₃.toNat * 4 + b₄.toNat / 64)
  | _ => d

/-- The ADC takes a message as a write unless it begins with a read command. -/
def adcReceive (adc : ℕ → ℕ) (data : List Byte) : ℕ → ℕ :=
  if (data.headD 0).toNat / 0x40 % 2 = 1 then adc else (Chip.transferWrite ⟨adc⟩ data).adc

/-- What bytes do to the board. -/
def receive (hw : Hw) (a : Device × List Byte) : Hw :=
  match a.1 with
  | .sourceDac => { hw with sourceDac := ltcReceive hw.sourceDac a.2 }
  | .limitDac => { hw with limitDac := ltcReceive hw.limitDac a.2 }
  | .adc => { hw with adc := adcReceive hw.adc a.2 }
  | .display => hw
  | .ram => hw
  | .ada4254 => hw

/-- How a write to the board goes over the line; pin 4 is not on it. -/
def writeSections (st : State) : HwWrite → List Section
  | .digitalWrite4 _ => []
  | .AD7176_WriteRegister addr value =>
      AD7176_Write (wrBuf st ⟨addr, Chip.registerSize addr, 0, value⟩)
  | .LTC2758_write nr dac_command dac_address data =>
      LTC2758_write nr dac_command dac_address data

/-- Command, address and value fit into their bits; the settings of the line itself stay. -/
def OnLine : HwWrite → Prop
  | .digitalWrite4 _ => False
  | .AD7176_WriteRegister addr value =>
      addr < 0x40 ∧ addr ≠ 0x02 ∧ value < 256 ^ Chip.registerSize addr
  | .LTC2758_write _ dac_command dac_address _ =>
      dac_command % 16 = 0 ∧ dac_command < 256 ∧ dac_address < 16

instance (w : HwWrite) : Decidable (OnLine w) :=
  match w with
  | .digitalWrite4 _ => inferInstanceAs (Decidable False)
  | .AD7176_WriteRegister _ _ => inferInstanceAs (Decidable (_ ∧ _ ∧ _))
  | .LTC2758_write _ _ _ _ => inferInstanceAs (Decidable (_ ∧ _ ∧ _))

theorem dac_write_mod (d : Dac) (dac_command dac_address data : ℕ) :
    d.write dac_command dac_address (data % 2 ^ 18) = d.write dac_command dac_address data := by
  have hspan : data % 2 ^ 18 / 4 % 16 = data / 4 % 16 := by omega
  have hcode : data % 2 ^ 18 % 2 ^ 18 = data % 2 ^ 18 := Nat.mod_mod _ _
  unfold Dac.write
  rw [hspan, hcode]

/-- A converter finds in the bytes what was put into them. -/
theorem ltcReceive_ltcBytes (d : Dac) {dac_command dac_address : ℕ}
    (hcommand : dac_command % 16 = 0) (hlt : dac_command < 256) (haddress : dac_address < 16) (data : ℕ) :
    ltcReceive d (ltcBytes dac_command dac_address data) =
      d.write dac_command dac_address data := by
  have hor : dac_command ||| dac_address = dac_command + dac_address :=
    BitFields.or_eq_add (k := 4) (Nat.dvd_of_mod_eq_zero hcommand) haddress
  have hdata : data >>> 10 % 2 ^ 8 * 1024 + data >>> 2 % 2 ^ 8 * 4 + data <<< 6 % 2 ^ 8 / 64 =
      data % 2 ^ 18 := by
    rw [Nat.shiftRight_eq_div_pow, Nat.shiftRight_eq_div_pow, Nat.shiftLeft_eq]
    omega
  have hfirst : (dac_command + dac_address) % 2 ^ 8 / 16 * 16 = dac_command := by omega
  have hsecond : (dac_command + dac_address) % 2 ^ 8 % 16 = dac_address := by omega
  simp only [ltcReceive, ltcBytes, BitVec.toNat_ofNat, hor, hdata, hfirst, hsecond]
  exact dac_write_mod d dac_command dac_address data

theorem adcReceive_wrBuf (adc : ℕ → ℕ) {addr value : ℕ} (haddr : addr < 0x40)
    (hvalue : value < 256 ^ Chip.registerSize addr) :
    adcReceive adc (wrBuf (Chip.settings ⟨adc⟩) ⟨addr, Chip.registerSize addr, 0, value⟩) =
      Function.update adc addr value := by
  have hwrite := writeRegister ⟨adc⟩ ⟨addr, Chip.registerSize addr, 0, value⟩ haddr rfl
  rw [writeRegister_wrBuf, Nat.mod_eq_of_lt hvalue] at hwrite
  have hhead : (wrBuf (Chip.settings ⟨adc⟩) ⟨addr, Chip.registerSize addr, 0, value⟩).headD 0 =
      BitVec.ofNat 8 addr := by
    unfold wrBuf
    simp only
    split_ifs <;> rfl
  have hread : ¬ (BitVec.ofNat 8 addr).toNat / 0x40 % 2 = 1 := by
    rw [BitVec.toNat_ofNat]
    omega
  rw [adcReceive, hhead, if_neg hread, hwrite]

/-- Each write arrives. -/
theorem receive_write (hw : Hw) {w : HwWrite} (hw' : OnLine w) :
    (((writeSections (Chip.settings ⟨hw.adc⟩) w).flatMap Section.frames).foldl receive hw) =
      hw.apply w := by
  cases w with
  | digitalWrite4 level => exact absurd hw' id
  | AD7176_WriteRegister addr value =>
      obtain ⟨haddr, -, hvalue⟩ := hw'
      have hreceive := adcReceive_wrBuf hw.adc haddr hvalue
      have hframes : (writeSections (Chip.settings ⟨hw.adc⟩)
          (.AD7176_WriteRegister addr value)).flatMap Section.frames =
          [(.adc, wrBuf (Chip.settings ⟨hw.adc⟩) ⟨addr, Chip.registerSize addr, 0, value⟩)] := by
        simp only [writeSections, AD7176_Write, List.flatMap_cons, Section.frames, List.nil_append,
          List.flatMap_nil, List.append_nil, Section.frame, wrBuf]
        split_ifs <;> simp_all
      have hupdate : Function.update hw.adc addr value =
          fun a => if a = addr then value else hw.adc a :=
        funext fun a => Function.update_apply ..
      rw [hframes]
      simp only [List.foldl_cons, List.foldl_nil, receive, hreceive, hupdate]
      rfl
  | LTC2758_write nr dac_command dac_address data =>
      obtain ⟨hcommand, hlt, haddress⟩ := hw'
      have hreceive := fun d => ltcReceive_ltcBytes d hcommand hlt haddress data
      by_cases hnr : nr = 0 <;>
        simp [writeSections, LTC2758_write, Section.frames, Section.frame, ltcBytes, receive, dacOf,
          hnr, Hw.apply, ← hreceive]

end SpiBus
end PoorMansSmu
