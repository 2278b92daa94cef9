import PoorMansSmu.Operations
import PoorMansSmu.Lib.ByteStore
import Mathlib.Data.Fin.Basic

/-!
# EepromMap — what the calibration objects keep in the EEPROM

The address map of `eeprom_adr.h`, the functions of `CalibrationClass` that write to it, and the
question whether what one of them writes can be spoiled by another.  A `float` is what the union
`cvt` makes of it, four bytes; a `double` is eight.
-/

namespace PoorMansSmu
namespace EepromMap

open ByteStore

abbrev FloatBytes := Fin 4 → UInt8
abbrev DoubleBytes := Fin 8 → UInt8

/-! ## Address map -/

def EA_DAC_GAIN_COMP_POS_VOL : ℕ := 0x00
def EA_DAC_GAIN_COMP_NEG_VOL : ℕ := 0x04
def EA_ADC_GAIN_COMP_POS_VOL : ℕ := 0x08
def EA_ADC_GAIN_COMP_NEG_VOL : ℕ := 0x012

def EA_DAC_GAIN_COMP_POS_CUR : ℕ := 0x016
def EA_DAC_GAIN_COMP_NEG_CUR : ℕ := 0x020
def EA_ADC_GAIN_COMP_POS_CUR : ℕ := 0x024
def EA_ADC_GAIN_COMP_NEG_CUR : ℕ := 0x028

def EA_DAC_ZERO_COMP_VOL : ℕ := 0x032
def EA_DAC_ZERO_COMP_CUR : ℕ := 0x036

def EA_ADC_ZERO_COMP_VOL : ℕ := 0x040
def EA_ADC_ZERO_COMP_CUR : ℕ := 0x044
def EA_ADC_ZERO_COMP_CUR2 : ℕ := 0x048

def EA_DAC_GAIN_COMP_POS_LIM : ℕ := 0x52

def EA_DAC_GAIN_COMP_POS_VOL2 : ℕ := 0x060
def EA_DAC_GAIN_COMP_NEG_VOL2 : ℕ := 0x064
def EA_DAC_GAIN_COMP_POS_CUR2 : ℕ := 0x068
def EA_DAC_GAIN_COMP_NEG_CUR2 : ℕ := 0x072

def EA_ADC_GAIN_COMP_POS_VOL2 : ℕ := 0x076
def EA_ADC_GAIN_COMP_NEG_VOL2 : ℕ := 0x080
def EA_ADC_GAIN_COMP_POS_CUR2 : ℕ := 0x084
def EA_ADC_GAIN_COMP_NEG_CUR2 : ℕ := 0x088

def EA_DAC_ZERO_COMP_VOL2 : ℕ := 0x092
def EA_DAC_ZERO_COMP_CUR2 : ℕ := 0x096

def EA_ADC_NONLINEAR_COMP_NR_VOL : ℕ := 0x100
def EA_ADC_NONLINEAR_COMP_START_VOL : ℕ := 0x0104

def EA_ADC_ZERO_COMP_VOL2 : ℕ := 0x0108

def EA_ANYTHING : ℕ := 0x200

def EA_ADC_NONLINEAR_COMP_NR_CUR : ℕ := 0x500
def EA_ADC_NONLINEAR_COMP_START_CUR : ℕ := 0x504

/-- The gain and zero parameters of one `CalibrationClass` object, named as its fields. -/
inductive Param
  | dacGainCompPos
  | dacGainCompNeg
  | dacGainCompPos2
  | dacGainCompNeg2
  | dacGainCompLim
  | adcGainCompPos
  | adcGainCompNeg
  | adcGainCompPos2
  | adcGainCompNeg2
  | dacZeroComp
  | dacZeroComp2
  deriving DecidableEq, Repr

/-- The address fields `ea_*` of an object, as `init` sets them.  The current object has none for its
limit gain: the field keeps the 0 that static storage starts with. -/
def paramAddress : OperationType → Param → ℕ
  | .SOURCE_VOLTAGE, .dacGainCompPos => EA_DAC_GAIN_COMP_POS_VOL
  | .SOURCE_VOLTAGE, .dacGainCompNeg => EA_DAC_GAIN_COMP_NEG_VOL
  | .SOURCE_VOLTAGE, .dacGainCompPos2 => EA_DAC_GAIN_COMP_POS_VOL2
  | .SOURCE_VOLTAGE, .dacGainCompNeg2 => EA_DAC_GAIN_COMP_NEG_VOL2
  | .SOURCE_VOLTAGE, .dacGainCompLim => EA_DAC_GAIN_COMP_POS_LIM
  | .SOURCE_VOLTAGE, .adcGainCompPos => EA_ADC_GAIN_COMP_POS_VOL
  | .SOURCE_VOLTAGE, .adcGainCompNeg => EA_ADC_GAIN_COMP_NEG_VOL
  | .SOURCE_VOLTAGE, .adcGainCompPos2 => EA_ADC_GAIN_COMP_POS_VOL2
  | .SOURCE_VOLTAGE, .adcGainCompNeg2 => EA_ADC_GAIN_COMP_NEG_VOL2
  | .SOURCE_VOLTAGE, .dacZeroComp => EA_DAC_ZERO_COMP_VOL
  | .SOURCE_VOLTAGE, .dacZeroComp2 => EA_DAC_ZERO_COMP_VOL2
  | .SOURCE_CURRENT, .dacGainCompPos => EA_DAC_GAIN_COMP_POS_CUR
  | .SOURCE_CURRENT, .dacGainCompNeg => EA_DAC_GAIN_COMP_NEG_CUR
  | .SOURCE_CURRENT, .dacGainCompPos2 => EA_DAC_GAIN_COMP_POS_CUR2
  | .SOURCE_CURRENT, .dacGainCompNeg2 => EA_DAC_GAIN_COMP_NEG_CUR2
  | .SOURCE_CURRENT, .dacGainCompLim => 0
  | .SOURCE_CURRENT, .adcGainCompPos => EA_ADC_GAIN_COMP_POS_CUR
  | .SOURCE_CURRENT, .adcGainCompNeg => EA_ADC_GAIN_COMP_NEG_CUR
  | .SOURCE_CURRENT, .adcGainCompPos2 => EA_ADC_GAIN_COMP_POS_CUR2
  | .SOURCE_CURRENT, .adcGainCompNeg2 => EA_ADC_GAIN_COMP_NEG_CUR2
  | .SOURCE_CURRENT, .dacZeroComp => EA_DAC_ZERO_COMP_CUR
  | .SOURCE_CURRENT, .dacZeroComp2 => EA_DAC_ZERO_COMP_CUR2

def ea_adc_nonlinear_comp_nr : OperationType → ℕ
  | .SOURCE_VOLTAGE => EA_ADC_NONLINEAR_COMP_NR_VOL
  | .SOURCE_CURRENT => EA_ADC_NONLINEAR_COMP_NR_CUR

def ea_adc_nonlinear_comp_start : OperationType → ℕ
  | .SOURCE_VOLTAGE => EA_ADC_NONLINEAR_COMP_START_VOL
  | .SOURCE_CURRENT => EA_ADC_NONLINEAR_COMP_START_CUR

/-- What is kept: the parameters of the two objects, the null values they share, the number of
points and the two columns of each calibration table, and the record of `saveGain`. -/
inductive Cell
  | param (object : OperationType) (p : Param)
  | nullValueVol (range : CurrentRange)
  | nullValueCur (range : CurrentRange)
  | adc_cal_points (object : OperationType)
  | set_adc (object : OperationType) (i : ℕ)
  | meas_adc (object : OperationType) (i : ℕ)
  | config_gain
  deriving DecidableEq, Repr

def Cell.address : Cell → ℕ
  | .param object p => paramAddress object p
  | .nullValueVol .AMP1 => EA_ADC_ZERO_COMP_VOL
  | .nullValueVol .MILLIAMP10 => EA_ADC_ZERO_COMP_VOL2
  | .nullValueCur .AMP1 => EA_ADC_ZERO_COMP_CUR
  | .nullValueCur .MILLIAMP10 => EA_ADC_ZERO_COMP_CUR2
  | .adc_cal_points object => ea_adc_nonlinear_comp_nr object
  | .set_adc object i => ea_adc_nonlinear_comp_start object + i * 8
  | .meas_adc object i => ea_adc_nonlinear_comp_start object + i * 8 + 4
  | .config_gain => EA_ANYTHING

/-- A `float` takes four bytes, the two `double`s of `config_gain` sixteen. -/
def Cell.size : Cell → ℕ
  | .config_gain => 16
  | _ => 4

def layout : Layout Cell := ⟨Cell.address, Cell.size⟩

/-! ## Writes -/

/-- The bytes of a number, by offset. -/
def bytes {n : ℕ} (f : Fin n → UInt8) : ℕ → UInt8 :=
  fun i => if h : i < n then f ⟨i, h⟩ else 0

/-- The conversion of a small count to `float`, and its bytes: sign, exponent `127 + e` and fraction
of `n = 2 ^ e + r`, least significant byte first. -/
def floatOfCount (n : ℕ) : FloatBytes :=
  let e := Nat.log2 n
  let bits := if n = 0 then 0 else (127 + e) * 2 ^ 23 + (n - 2 ^ e) * 2 ^ 23 / 2 ^ e
  fun i => UInt8.ofNat (bits / 256 ^ (i : ℕ))

/-- The negation of a `double`: its sign bit, the top bit of the last byte, changes. -/
def negDouble (d : DoubleBytes) : DoubleBytes :=
  fun i => if i = 7 then d i ^^^ 0x80 else d i

/-- A number of points with which an auto-calibration can complete. -/
def AutoCalCount : OperationType → ℕ → Prop
  | .SOURCE_VOLTAGE, n => n = 21 ∨ n = 33 ∨ n = 34
  | .SOURCE_CURRENT, n => n = 33 ∨ n = 34

instance (object : OperationType) (n : ℕ) : Decidable (AutoCalCount object n) :=
  match object with
  | .SOURCE_VOLTAGE => inferInstanceAs (Decidable (_ ∨ _ ∨ _))
  | .SOURCE_CURRENT => inferInstanceAs (Decidable (_ ∨ _))

/-- The calls that write to the EEPROM. -/
inductive EepromCall
  /-- One of the `adj*` functions, with the new value of its parameter. -/
  | adj (object : OperationType) (p : Param) (f : FloatBytes)
  | setNullValueVol (v : FloatBytes) (current_range : CurrentRange)
  | setNullValueCur (v : FloatBytes) (current_range : CurrentRange)
  | writeAdcCalToEeprom (object : OperationType)
      (nrOfPoints : { n : ℕ // AutoCalCount object n }) (set_adc meas_adc : ℕ → FloatBytes)
  | saveGain (value : DoubleBytes)

/-- The cells a call writes, in order.  `writeAdcCalToEeprom` compares addresses with `<=` and so
writes one entry more than there are points. -/
def EepromCall.writes : EepromCall → List (Cell × (ℕ → UInt8))
  | .adj object p f => [(.param object p, bytes f)]
  | .setNullValueVol v range => [(.nullValueVol range, bytes v)]
  | .setNullValueCur v range => [(.nullValueCur range, bytes v)]
  | .writeAdcCalToEeprom object n set_adc meas_adc =>
      (.adc_cal_points object, bytes (floatOfCount n)) ::
        (List.range (n + 1)).flatMap fun i =>
          [(.set_adc object i, bytes (set_adc i)), (.meas_adc object i, bytes (meas_adc i))]
  | .saveGain value =>
      [(.config_gain,
        fun i => if i < 8 then bytes value i else bytes (negDouble value) (i - 8))]

/-- The cells a sequence of calls writes, in order. -/
def allWrites (calls : List EepromCall) : List (Cell × (ℕ → UInt8)) :=
  calls.flatMap EepromCall.writes

/-- A cell of a table has an index that some auto-calibration can reach. -/
def Cell.InTable : Cell → Prop
  | .set_adc _ i => i ≤ 34
  | .meas_adc _ i => i ≤ 34
  | _ => True

/-- At any time every parameter and table entry reads back the last value written to it, and no
write to one changes another, whether or not that has been written too. -/
def Independent (m : ℕ → UInt8) (calls : List EepromCall) : Prop :=
  ByteStore.Independent layout Cell.InTable m (allWrites calls)

/-! ## Overlaps -/

/-- The pairs of cells that lie over each other, with the offset of the second one in the first: the
null voltage of the 10 mA range over the first measured value of the voltage table, the limit gain
of the current object over the positive gain of the voltage object, and the gain record over the end
of a voltage table of more than 31 entries. -/
def clashes : List (Cell × Cell × ℕ) :=
  [(.nullValueVol .MILLIAMP10, .meas_adc .SOURCE_VOLTAGE 0, 0),
    (.param .SOURCE_CURRENT .dacGainCompLim, .param .SOURCE_VOLTAGE .dacGainCompPos, 0),
    (.config_gain, .meas_adc .SOURCE_VOLTAGE 31, 0),
    (.config_gain, .set_adc .SOURCE_VOLTAGE 32, 4),
    (.config_gain, .meas_adc .SOURCE_VOLTAGE 32, 8),
    (.config_gain, .set_adc .SOURCE_VOLTAGE 33, 12)]

/-- The two cells of a clash stand for the same bytes where they lie over each other: each for what
was last written to it, or else for what it held before. -/
def ClashesAgree (m : ℕ → UInt8) (ws : List (Cell × (ℕ → UInt8))) : Prop :=
  ∀ c ∈ clashes, ∀ i < 4, content layout m ws c.1 (c.2.2 + i) = content layout m ws c.2.1 i

/-- After each single write the cells of every clash agree. -/
def NoClash (m : ℕ → UInt8) (calls : List EepromCall) : Prop :=
  ∀ ws, ws <+: allWrites calls → ClashesAgree m ws

/-- The cells outside the two tables. -/
def scalars : List Cell :=
  ([.SOURCE_VOLTAGE, .SOURCE_CURRENT].flatMap fun object =>
    [.param object .dacGainCompPos, .param object .dacGainCompNeg, .param object .dacGainCompPos2,
      .param object .dacGainCompNeg2, .param object .dacGainCompLim, .param object .adcGainCompPos,
      .param object .adcGainCompNeg, .param object .adcGainCompPos2,
      .param object .adcGainCompNeg2, .param object .dacZeroComp, .param object .dacZeroComp2,
      .adc_cal_points object]) ++
  [.nullValueVol .AMP1, .nullValueVol .MILLIAMP10, .nullValueCur .AMP1, .nullValueCur .MILLIAMP10,
    .config_gain]

/-- Every cell is a scalar or an entry of a table. -/
theorem mem_scalars_or_entry (c : Cell) :
    c ∈ scalars ∨ ∃ object i, c = .set_adc object i ∨ c = .meas_adc object i := by
  cases c with
  | param object p => exact Or.inl (by cases object <;> cases p <;> decide)
  | nullValueVol range => exact Or.inl (by cases range <;> decide)
  | nullValueCur range => exact Or.inl (by cases range <;> decide)
  | adc_cal_points object => exact Or.inl (by cases object <;> decide)
  | set_adc object i => exact Or.inr ⟨object, i, Or.inl rfl⟩
  | meas_adc object i => exact Or.inr ⟨object, i, Or.inr rfl⟩
  | config_gain => exact Or.inl (by decide)

/-- Two cells share an address. -/
def Overlap (c d : Cell) : Prop :=
  c.address < d.address + d.size ∧ d.address < c.address + c.size

instance (c d : Cell) : Decidable (Overlap c d) :=
  inferInstanceAs (Decidable (_ ∧ _))

/-- Two cells are among the clashes, in one order or the other. -/
def Clash (c d : Cell) : Prop := ∃ o, (c, d, o) ∈ clashes ∨ (d, c, o) ∈ clashes

theorem Clash.symm {c d : Cell} (h : Clash c d) : Clash d c := by
  rcases h with ⟨o, h | h⟩
  · exact ⟨o, Or.inr h⟩
  · exact ⟨o, Or.inl h⟩

/-- Scalars clash only in the one pair of limit gain and positive gain. -/
theorem overlap_scalars : ∀ c ∈ scalars, ∀ d ∈ scalars, Overlap c d →
    c = d ∨ (c, d, 0) ∈ clashes ∨ (d, c, 0) ∈ clashes := by
  decide +kernel

/-- Where the scalars lie: below the voltage table, the null voltage, the gain record, or just
below the current table. -/
theorem scalar_region : ∀ c ∈ scalars,
    c.address + c.size ≤ 0x104 ∨ c = .nullValueVol .MILLIAMP10 ∨ c = .config_gain ∨
      (0x500 ≤ c.address ∧ c.address + c.size ≤ 0x504) := by
  decide +kernel

/-- Where the entries of the two tables lie. -/
theorem entry_address (object : OperationType) (i : ℕ) :
    ((Cell.set_adc object i).address = 0x104 + i * 8 ∧
        (Cell.meas_adc object i).address = 0x108 + i * 8) ∧ object = .SOURCE_VOLTAGE ∨
      ((Cell.set_adc object i).address = 0x504 + i * 8 ∧
        (Cell.meas_adc object i).address = 0x508 + i * 8) ∧ object = .SOURCE_CURRENT := by
  cases object with
  | SOURCE_VOLTAGE =>
      refine Or.inl ⟨⟨rfl, ?_⟩, rfl⟩
      exact Nat.add_right_comm 0x104 (i * 8) 4
  | SOURCE_CURRENT =>
      refine Or.inr ⟨⟨rfl, ?_⟩, rfl⟩
      exact Nat.add_right_comm 0x504 (i * 8) 4

/-- What lies over four bytes of one of the tables is the null voltage of the 10 mA range or the gain
record. -/
theorem scalar_over_entry {c : Cell} (hc : c ∈ scalars) {a : ℕ} (hlow : 0x104 ≤ a)
    (hgap : a + 4 ≤ 0x500 ∨ 0x504 ≤ a) (hbelow : c.address < a + 4)
    (habove : a < c.address + c.size) :
    c = .nullValueVol .MILLIAMP10 ∧ 0x104 < a ∧ a < 0x10C ∨
      c = .config_gain ∧ 0x1FC < a ∧ a < 0x210 := by
  rcases scalar_region c hc with hparam | rfl | rfl | hcount
  · omega
  · have haddress : (Cell.nullValueVol .MILLIAMP10).address = 0x108 := rfl
    have hsize : (Cell.nullValueVol .MILLIAMP10).size = 4 := rfl
    exact Or.inl ⟨rfl, by omega, by omega⟩
  · have haddress : Cell.config_gain.address = 0x200 := rfl
    have hsize : Cell.config_gain.size = 16 := rfl
    exact Or.inr ⟨rfl, by omega, by omega⟩
  · omega

/-- A scalar and a set value overlap only where the gain record lies over entries 32 and 33. -/
theorem overlap_scalar_set {c : Cell} (hc : c ∈ scalars) (object : OperationType) {i : ℕ}
    (hi : i ≤ 34) (h : Overlap c (.set_adc object i)) : Clash c (.set_adc object i) := by
  obtain ⟨hbelow, habove⟩ := h
  have hsize : (Cell.set_adc object i).size = 4 := rfl
  rw [hsize] at hbelow
  rcases entry_address object i with ⟨⟨hset, -⟩, rfl⟩ | ⟨⟨hset, -⟩, rfl⟩
  · rw [hset] at hbelow habove
    rcases scalar_over_entry hc (by omega) (by omega) hbelow habove with ⟨-, _, _⟩ | ⟨rfl, _, _⟩
    · omega
    · have hcase : i = 32 ∨ i = 33 := by omega
      rcases hcase with rfl | rfl
      · exact ⟨4, Or.inl (by decide)⟩
      · exact ⟨12, Or.inl (by decide)⟩
  · -- the table of the current lies above both
    rw [hset] at hbelow habove
    rcases scalar_over_entry hc (by omega) (by omega) hbelow habove with ⟨-, _, _⟩ | ⟨-, _, _⟩
    · omega
    · omega

/-- A scalar and a measured value overlap only where the null voltage lies over entry 0 and the gain
record over entries 31 and 32. -/
theorem overlap_scalar_meas {c : Cell} (hc : c ∈ scalars) (object : OperationType) {i : ℕ}
    (hi : i ≤ 34) (h : Overlap c (.meas_adc object i)) : Clash c (.meas_adc object i) := by
  obtain ⟨hbelow, habove⟩ := h
  have hsize : (Cell.meas_adc object i).size = 4 := rfl
  rw [hsize] at hbelow
  rcases entry_address object i with ⟨⟨-, hmeas⟩, rfl⟩ | ⟨⟨-, hmeas⟩, rfl⟩
  · rw [hmeas] at hbelow habove
    rcases scalar_over_entry hc (by omega) (by omega) hbelow habove with ⟨rfl, _, _⟩ | ⟨rfl, _, _⟩
    · have hcase : i = 0 := by omega
      subst hcase
      exact ⟨0, Or.inl (by decide)⟩
    · have hcase : i = 31 ∨ i = 32 := by omega
      rcases hcase with rfl | rfl
      · exact ⟨0, Or.inl (by decide)⟩
      · exact ⟨8, Or.inl (by decide)⟩
  · -- the table of the current lies above both
    rw [hmeas] at hbelow habove
    rcases scalar_over_entry hc (by omega) (by omega) hbelow habove with ⟨-, _, _⟩ | ⟨-, _, _⟩
    · omega
    · omega

/-- Two entries of tables overlap only if they are the same. -/
theorem overlap_entries {object object' : OperationType} {i j : ℕ} (hi : i ≤ 34) (hj : j ≤ 34) :
    (Overlap (.set_adc object i) (.set_adc object' j) → object = object' ∧ i = j) ∧
      (Overlap (.meas_adc object i) (.meas_adc object' j) → object = object' ∧ i = j) ∧
      ¬ Overlap (.set_adc object i) (.meas_adc object' j) := by
  have hset : ∀ o k, (Cell.set_adc o k).size = 4 := fun _ _ => rfl
  have hmeas : ∀ o k, (Cell.meas_adc o k).size = 4 := fun _ _ => rfl
  simp only [Overlap, hset, hmeas]
  rcases entry_address object i with ⟨⟨h₁, h₂⟩, rfl⟩ | ⟨⟨h₁, h₂⟩, rfl⟩ <;>
    rcases entry_address object' j with ⟨⟨h₃, h₄⟩, rfl⟩ | ⟨⟨h₃, h₄⟩, rfl⟩ <;>
    rw [h₁, h₂, h₃, h₄] <;> simp <;> omega

/-- Cells that the calls write overlap only if they are the same or clash. -/
theorem overlap_cases {c d : Cell} (hc : c.InTable) (hd : d.InTable) (h : Overlap c d) :
    c = d ∨ Clash c d := by
  have hsymm : Overlap d c := ⟨h.2, h.1⟩
  -- scalars against scalars, scalars against a table, and entries against entries
  rcases mem_scalars_or_entry c with hcs | ⟨object, i, rfl | rfl⟩ <;>
    rcases mem_scalars_or_entry d with hds | ⟨object', j, rfl | rfl⟩
  · rcases overlap_scalars c hcs d hds h with heq | hclash | hclash
    · exact Or.inl heq
    · exact Or.inr ⟨0, Or.inl hclash⟩
    · exact Or.inr ⟨0, Or.inr hclash⟩
  · exact Or.inr (overlap_scalar_set hcs object' hd h)
  · exact Or.inr (overlap_scalar_meas hcs object' hd h)
  · exact Or.inr (overlap_scalar_set hds object hc hsymm).symm
  · obtain ⟨rfl, rfl⟩ := (overlap_entries hc hd).1 h
    exact Or.inl rfl
  · exact absurd h (overlap_entries hc hd).2.2
  · exact Or.inr (overlap_scalar_meas hds object hc hsymm).symm
  · exact absurd hsymm (overlap_entries hd hc).2.2
  · obtain ⟨rfl, rfl⟩ := (overlap_entries hc hd).2.1 h
    exact Or.inl rfl

/-- The second cell of a clash is a `float` that lies inside the first. -/
theorem clash_inside : ∀ c ∈ clashes,
    c.2.1.address = c.1.address + c.2.2 ∧ c.2.1.size = 4 ∧ c.2.2 + 4 ≤ c.1.size := by
  decide +kernel

theorem autoCalCount_le {object : OperationType} {n : ℕ} (h : AutoCalCount object n) : n ≤ 34 := by
  cases object with
  | SOURCE_VOLTAGE =>
      rcases h with rfl | rfl | rfl <;> decide
  | SOURCE_CURRENT =>
      rcases h with rfl | rfl <;> decide

/-- The calls only write table entries that an auto-calibration can reach. -/
theorem inTable_of_mem {calls : List EepromCall} {w : Cell × (ℕ → UInt8)}
    (h : w ∈ allWrites calls) : w.1.InTable := by
  obtain ⟨call, -, hw⟩ := List.mem_flatMap.1 h
  cases call with
  | adj object p f =>
      rw [List.mem_singleton.1 hw]
      trivial
  | setNullValueVol v range =>
      rw [List.mem_singleton.1 hw]
      trivial
  | setNullValueCur v range =>
      rw [List.mem_singleton.1 hw]
      trivial
  | writeAdcCalToEeprom object n set_adc meas_adc =>
      rcases List.mem_cons.1 hw with rfl | hw
      · trivial
      · obtain ⟨i, hi, hw⟩ := List.mem_flatMap.1 hw
        -- one entry more is written than there are points
        have hle : i ≤ 34 := by
          have hn := autoCalCount_le n.2
          have hlt := List.mem_range.1 hi
          omega
        rcases List.mem_cons.1 hw with rfl | hw
        · exact hle
        · rw [List.mem_singleton.1 hw]
          exact hle
  | saveGain value =>
      rw [List.mem_singleton.1 hw]
      trivial

/-- The two cells of a clash are among those that an auto-calibration can reach. -/
theorem clash_inTable : ∀ c ∈ clashes, c.1.InTable ∧ c.2.1.InTable := by
  simp [clashes, Cell.InTable]

/-- If the cells of a clash agree on the bytes of the second one, they do at every address. -/
theorem agree_of_clash {m : ℕ → UInt8} {ws : List (Cell × (ℕ → UInt8))} (h : ClashesAgree m ws)
    {c d : Cell} {o : ℕ} (hclash : (c, d, o) ∈ clashes) {a : ℕ} (ha : layout.Covers d a) :
    content layout m ws c (a - layout.address c) = content layout m ws d (a - layout.address d) := by
  obtain ⟨haddress, hsize, -⟩ := clash_inside _ hclash
  obtain ⟨hlow, hhigh⟩ : d.address ≤ a ∧ a < d.address + d.size := ha
  simp only at haddress hsize
  have hoffset : a - c.address = o + (a - d.address) := by omega
  calc content layout m ws c (a - c.address)
      = content layout m ws c (o + (a - d.address)) := by rw [hoffset]
    _ = content layout m ws d (a - d.address) := h _ hclash _ (by omega)

/-- The cells agree wherever they overlap exactly when those of the clashes do. -/
theorem agree_iff_clashesAgree (m : ℕ → UInt8) (ws : List (Cell × (ℕ → UInt8))) :
    Agree layout Cell.InTable m ws ↔ ClashesAgree m ws := by
  constructor
  · rintro hagree ⟨c, d, o⟩ hclash i hi
    obtain ⟨haddress, hsize, hinside⟩ := clash_inside _ hclash
    obtain ⟨hc, hd⟩ := clash_inTable _ hclash
    simp only at haddress hsize hinside hc hd
    -- byte `i` of the cell inside is byte `o + i` of the cell around it
    have hcover : layout.Covers c (c.address + (o + i)) := ⟨Nat.le_add_right _ _, by
      change c.address + (o + i) < c.address + c.size
      omega⟩
    have hcover' : layout.Covers d (c.address + (o + i)) := by
      change d.address ≤ _ ∧ _ < d.address + d.size
      omega
    have hoffset : c.address + (o + i) - layout.address c = o + i := Nat.add_sub_cancel_left _ _
    have hoffset' : c.address + (o + i) - layout.address d = i := by
      change c.address + (o + i) - d.address = i
      omega
    have hsame := hagree c d hc hd _ hcover hcover'
    rw [hoffset, hoffset'] at hsame
    exact hsame
  · intro h c d hc hd a hac had
    -- two cells that cover one address overlap
    have hoverlap : Overlap c d := ⟨hac.1.trans_lt had.2, had.1.trans_lt hac.2⟩
    rcases overlap_cases hc hd hoverlap with rfl | ⟨o, hclash | hclash⟩
    · rfl
    · exact agree_of_clash h hclash had
    · exact (agree_of_clash h hclash hac).symm

/-- For every sequence of EEPROM writes and whatever the EEPROM held before, parameters and table
entries read back what was last written to them and are changed by no other write exactly when the
cells that lie over each other always stand for the same bytes. -/
theorem independent_iff_noClash (m : ℕ → UInt8) (calls : List EepromCall) :
    Independent m calls ↔ NoClash m calls := by
  unfold Independent NoClash
  rw [independent_iff_agree layout m fun w hw => inTable_of_mem hw]
  exact forall₂_congr fun ws _ => agree_iff_clashesAgree m ws

/-- A null of the voltage in the 10 mA range, made after a voltage auto-calibration of 21 points,
replaces the first measured value of the voltage table: the table then reads back the null value. -/
theorem null_voltage_overwrites_table :
    ¬ Independent (fun _ => 0xFF)
      [.writeAdcCalToEeprom .SOURCE_VOLTAGE ⟨21, Or.inl rfl⟩ (fun _ => floatOfCount 1)
          (fun _ => floatOfCount 1),
        .setNullValueVol (floatOfCount 2) .MILLIAMP10] := by
  intro h
  have hbyte := h.readsBack _ List.prefix_rfl (.meas_adc .SOURCE_VOLTAGE 0) _ rfl 2 (by decide)
  revert hbyte
  decide +kernel

/-- It also does so when the table was written before. -/
example :
    ¬ Independent (fun _ => 0xFF) [.setNullValueVol (floatOfCount 2) .MILLIAMP10] := by
  intro h
  have hbyte := h.unchanged [] _ List.prefix_rfl (.meas_adc .SOURCE_VOLTAGE 0) (by simp [Cell.InTable])
    (by decide) 2 (by decide)
  revert hbyte
  decide +kernel

end EepromMap
end PoorMansSmu
