import PoorMansSmu.CalStore

/-!
# CalInit — the gains and zeros that the calibration starts with

`CalibrationClass::init` reads every gain and every zero of its object from the EEPROM, and the null
values that the two objects share.  What is not a number is replaced by a default, which is also
written to the EEPROM; a zero that is out of all proportion is replaced too.  `setup` calls it for
`V_CALIBRATION` and then for `C_CALIBRATION`.  What is printed is left out.
-/

namespace PoorMansSmu
namespace CalInit

open EepromMap CalLoading CalStore

/-! ## State -/

/-- One object: the tables of the nonlinear calibration, the gains and the zeros. -/
structure CalibrationClass where
  table : NonlinearTable
  param : Param → FloatBytes

/-- The EEPROM, the two objects and the static null values. -/
structure State where
  eeprom : ℕ → UInt8
  objects : OperationType → CalibrationClass
  nullValueVol : CurrentRange → FloatBytes
  nullValueCur : CurrentRange → FloatBytes

/-! ## Functions -/

/-- A zero of a size that no measurement has. -/
def suspect (f : FloatBytes) : Bool :=
  match CalTables.floatOfBytes f with
  | none => false
  | some x => decide (|x| < -10000 ∨ |x| > 10000)

/-- A gain that was read: the EEPROM after the check, and the gain. -/
def checkGain (m : ℕ → UInt8) (address : ℕ) (f : FloatBytes) : (ℕ → UInt8) × FloatBytes :=
  if isnan f then (floatToEeprom m address (floatOfCount 1), floatOfCount 1) else (m, f)

/-- A zero that was read. -/
def checkZero (m : ℕ → UInt8) (address : ℕ) (f : FloatBytes) : (ℕ → UInt8) × FloatBytes :=
  if isnan f then (floatToEeprom m address (floatOfCount 0), floatOfCount 0)
  else if suspect f then (m, floatOfCount 0)
  else (m, f)

/-- The check on `adcZeroCompCur2`, which replaces `adcZeroCompCur` when it finds a suspect value: the
EEPROM, and the two values. -/
def checkZeroCur2 (m : ℕ → UInt8) (adcZeroCompCur adcZeroCompCur2 : FloatBytes) :
    (ℕ → UInt8) × FloatBytes × FloatBytes :=
  if isnan adcZeroCompCur2 then
    (floatToEeprom m EA_ADC_ZERO_COMP_CUR2 (floatOfCount 0), adcZeroCompCur, floatOfCount 0)
  -- the warning is for the second value, the zero goes to the first, which is not used any more
  else if suspect adcZeroCompCur2 then (m, floatOfCount 0, adcZeroCompCur2)
  else (m, adcZeroCompCur, adcZeroCompCur2)

/-- A parameter is a gain or a zero. -/
def checkParam : Param → (ℕ → UInt8) → ℕ → FloatBytes → (ℕ → UInt8) × FloatBytes
  | .dacZeroComp => checkZero
  | .dacZeroComp2 => checkZero
  | _ => checkGain

/-- The block of `init` that reads one parameter. -/
def initParam (o : OperationType) (s : State) (p : Param) : State :=
  let address := paramAddress o p
  let r := checkParam p s.eeprom address (floatFromEeprom s.eeprom address)
  let c := s.objects o
  { s with
    eeprom := r.1
    objects := Function.update s.objects o { c with param := Function.update c.param p r.2 } }

/-- The blocks in their order. -/
def initOrder : List Param :=
  [.dacGainCompPos, .dacGainCompPos2, .dacGainCompNeg, .dacGainCompNeg2, .adcGainCompPos2,
    .adcGainCompNeg2, .dacGainCompLim, .adcGainCompPos, .adcGainCompNeg, .dacZeroComp, .dacZeroComp2]

/-- The block that reads `adcZeroCompVol` or `adcZeroCompVol2`. -/
def initNullValueVol (s : State) (range : CurrentRange) : State :=
  let address := (Cell.nullValueVol range).address
  let r := checkZero s.eeprom address (floatFromEeprom s.eeprom address)
  { s with
    eeprom := r.1
    nullValueVol := Function.update s.nullValueVol range r.2 }

/-- The two blocks for the current.  Both values are read before the first check. -/
def initNullValueCur (s : State) : State :=
  let adcZeroCompCur := floatFromEeprom s.eeprom EA_ADC_ZERO_COMP_CUR
  let adcZeroCompCur2 := floatFromEeprom s.eeprom EA_ADC_ZERO_COMP_CUR2
  let r := checkZero s.eeprom EA_ADC_ZERO_COMP_CUR adcZeroCompCur
  let nullValueCur := Function.update s.nullValueCur .AMP1 r.2
  let r2 := checkZeroCur2 r.1 r.2 adcZeroCompCur2
  { s with
    eeprom := r2.1
    nullValueCur := Function.update nullValueCur .MILLIAMP10 r2.2.2 }

/-- What comes before the blocks: the tables are loaded and the null values cleared. -/
def initTable (o : OperationType) (s : State) : State :=
  let c := s.objects o
  { s with
    objects := Function.update s.objects o
      { c with table := (readAdcCalFromEeprom s.eeprom o c.table).1 }
    nullValueVol := fun _ => floatOfCount 0
    nullValueCur := fun _ => floatOfCount 0 }

def init (s : State) (o : OperationType) : State :=
  let s := initTable o s
  let s := initOrder.foldl (initParam o) s
  let s := initNullValueVol s .AMP1
  let s := initNullValueVol s .MILLIAMP10
  initNullValueCur s

/-- The two calls of `init` in `setup`. -/
def setup (s : State) : State := init (init s .SOURCE_VOLTAGE) .SOURCE_CURRENT

/-! ## What is wanted -/

/-- A number of magnitude at most 10000. -/
def InRange (f : FloatBytes) : Prop := ∃ x, CalTables.floatOfBytes f = some x ∧ |x| ≤ 10000

/-- A zero is in range, a gain is a number. -/
def ParamSound : Param → FloatBytes → Prop
  | .dacZeroComp, f => InRange f
  | .dacZeroComp2, f => InRange f
  | _, f => isnan f = false

/-- All gains and zeros can be used. -/
structure Sound (s : State) : Prop where
  params : ∀ o p, ParamSound p ((s.objects o).param p)
  nullValueVol : ∀ range, InRange (s.nullValueVol range)
  nullValueCur : ∀ range, InRange (s.nullValueCur range)

/-- The zero of the current in the 10 mA range, as it is stored: not a number, or in range. -/
def Cur2Fits (m : ℕ → UInt8) : Prop :=
  ∀ x, CalTables.floatOfBytes (floatFromEeprom m EA_ADC_ZERO_COMP_CUR2) = some x → |x| ≤ 10000

/-! ## The checks -/

theorem floatOfBytes_zero : CalTables.floatOfBytes (floatOfCount 0) = some 0 := by decide +kernel

theorem inRange_zero : InRange (floatOfCount 0) := ⟨0, floatOfBytes_zero, by norm_num⟩

theorem isnan_one : isnan (floatOfCount 1) = false := by decide +kernel

/-- A zero that passes the check is in range. -/
theorem inRange_of_not_suspect {f : FloatBytes} (hnan : ¬ isnan f) (h : ¬ suspect f) : InRange f := by
  obtain ⟨x, hx⟩ := Option.ne_none_iff_exists'.1 (mt Option.isNone_iff_eq_none.2 hnan)
  refine ⟨x, hx, ?_⟩
  simp only [suspect, hx, decide_eq_true_eq, not_or, not_lt] at h
  exact h.2

theorem checkZero_inRange (m : ℕ → UInt8) (address : ℕ) (f : FloatBytes) :
    InRange (checkZero m address f).2 := by
  unfold checkZero
  split_ifs with hnan hsuspect
  · exact inRange_zero
  · exact inRange_zero
  · exact inRange_of_not_suspect hnan hsuspect

theorem checkGain_isnan (m : ℕ → UInt8) (address : ℕ) (f : FloatBytes) :
    isnan (checkGain m address f).2 = false := by
  unfold checkGain
  split_ifs with hnan
  · exact isnan_one
  · simpa using hnan

/-- Every parameter that was checked can be used. -/
theorem checkParam_sound (p : Param) (m : ℕ → UInt8) (address : ℕ) (f : FloatBytes) :
    ParamSound p (checkParam p m address f).2 := by
  cases p with
  | dacZeroComp => exact checkZero_inRange m address f
  | dacZeroComp2 => exact checkZero_inRange m address f
  | _ => exact checkGain_isnan m address f

/-- A check writes to the address of its value only. -/
theorem checkZero_outside (m : ℕ → UInt8) (f : FloatBytes) {address a : ℕ}
    (h : a < address ∨ address + 4 ≤ a) : (checkZero m address f).1 a = m a := by
  unfold checkZero
  split_ifs
  · exact floatToEeprom_outside m _ h
  · rfl
  · rfl

theorem checkGain_outside (m : ℕ → UInt8) (f : FloatBytes) {address a : ℕ}
    (h : a < address ∨ address + 4 ≤ a) : (checkGain m address f).1 a = m a := by
  unfold checkGain
  split_ifs
  · exact floatToEeprom_outside m _ h
  · rfl

theorem checkParam_outside (p : Param) (m : ℕ → UInt8) (f : FloatBytes) {address a : ℕ}
    (h : a < address ∨ address + 4 ≤ a) : (checkParam p m address f).1 a = m a := by
  cases p with
  | dacZeroComp => exact checkZero_outside m f h
  | dacZeroComp2 => exact checkZero_outside m f h
  | _ => exact checkGain_outside m f h

/-! ## The parameters -/

theorem initParam_self (o : OperationType) (s : State) (p : Param) :
    ParamSound p (((initParam o s p).objects o).param p) := by
  simp only [initParam, Function.update_self]
  exact checkParam_sound p _ _ _

theorem initParam_of_ne (o : OperationType) (s : State) {p q : Param} (h : q ≠ p) :
    ((initParam o s p).objects o).param q = (s.objects o).param q := by
  simp [initParam, h]

theorem initParam_other (s : State) (p : Param) {o o' : OperationType} (h : o' ≠ o) :
    (initParam o s p).objects o' = s.objects o' := by
  simp [initParam, h]

/-- After a sequence of blocks, every parameter with a block, and every other one that could be used
before, can be used. -/
theorem initParams_sound (o : OperationType) (ps : List Param) (s : State) (p : Param)
    (h : p ∈ ps ∨ ParamSound p ((s.objects o).param p)) :
    ParamSound p (((ps.foldl (initParam o) s).objects o).param p) := by
  induction ps generalizing s with
  | nil => exact h.resolve_left (List.not_mem_nil)
  | cons q ps ih =>
      refine ih _ ?_
      -- the first block gives its own parameter a sound value and leaves the others
      by_cases hp : p = q
      · subst hp
        exact Or.inr (initParam_self o s p)
      · rw [initParam_of_ne o s hp]
        rcases h with h | h
        · exact Or.inl ((List.mem_cons.1 h).resolve_left hp)
        · exact Or.inr h

theorem initParams_other (ps : List Param) (s : State) {o o' : OperationType} (h : o' ≠ o) :
    (ps.foldl (initParam o) s).objects o' = s.objects o' := by
  induction ps generalizing s with
  | nil => rfl
  | cons p ps ih =>
      rw [List.foldl_cons, ih, initParam_other s p h]

theorem initParams_eeprom (o : OperationType) (ps : List Param) (s : State) {a : ℕ}
    (h : ∀ p ∈ ps, a < paramAddress o p ∨ paramAddress o p + 4 ≤ a) :
    (ps.foldl (initParam o) s).eeprom a = s.eeprom a := by
  induction ps generalizing s with
  | nil => rfl
  | cons p ps ih =>
      rw [List.foldl_cons, ih _ fun q hq => h q (List.mem_cons_of_mem _ hq)]
      exact checkParam_outside p _ _ (h p List.mem_cons_self)

theorem mem_initOrder (p : Param) : p ∈ initOrder := by
  cases p <;> decide

/-! ## One object -/

section Init

variable (s : State) (o : OperationType)

/-- `init` leaves all parameters of its object sound. -/
theorem init_param (p : Param) : ParamSound p (((init s o).objects o).param p) :=
  initParams_sound o initOrder (initTable o s) p (Or.inl (mem_initOrder p))

/-- `init` leaves the other object alone. -/
theorem init_other {o' : OperationType} (h : o' ≠ o) : (init s o).objects o' = s.objects o' := by
  have hparams := initParams_other initOrder (initTable o s) h
  have htable : (initTable o s).objects o' = s.objects o' := by
    simp [initTable, h]
  exact hparams.trans htable

theorem initNullValueVol_self (range : CurrentRange) :
    InRange ((initNullValueVol s range).nullValueVol range) := by
  simp only [initNullValueVol, Function.update_self]
  exact checkZero_inRange _ _ _

theorem initNullValueVol_of_ne {range range' : CurrentRange} (h : range' ≠ range) :
    (initNullValueVol s range).nullValueVol range' = s.nullValueVol range' := by
  simp [initNullValueVol, h]

theorem initNullValueCur_nullValueVol :
    (initNullValueCur s).nullValueVol = s.nullValueVol := rfl

theorem init_nullValueVol (range : CurrentRange) : InRange ((init s o).nullValueVol range) := by
  unfold init
  simp only
  rw [initNullValueCur_nullValueVol]
  cases range with
  | AMP1 =>
      -- the block of the other range leaves this value
      rw [initNullValueVol_of_ne _ (by decide)]
      exact initNullValueVol_self _ .AMP1
  | MILLIAMP10 => exact initNullValueVol_self _ .MILLIAMP10

theorem init_nullValueCur_amp1 : InRange ((init s o).nullValueCur .AMP1) := by
  have hblock : ∀ s : State, InRange ((initNullValueCur s).nullValueCur .AMP1) := by
    intro s
    simp only [initNullValueCur]
    rw [Function.update_of_ne (by decide), Function.update_self]
    exact checkZero_inRange _ _ _
  exact hblock _

end Init

/-! ## The second zero of the current -/

/-- What is read where not a number counts as zero. -/
def defaulted (f : FloatBytes) : FloatBytes := if isnan f then floatOfCount 0 else f

theorem defaulted_defaulted (f : FloatBytes) : defaulted (defaulted f) = defaulted f := by
  have hzero : isnan (floatOfCount 0) = false := by decide +kernel
  unfold defaulted
  split_ifs with hnan <;> simp_all

/-- Of what is stored for it, only what is not a number is replaced. -/
theorem checkZeroCur2_eq (m : ℕ → UInt8) (cur f : FloatBytes) :
    (checkZeroCur2 m cur f).2.2 = defaulted f := by
  unfold checkZeroCur2 defaulted
  split_ifs <;> rfl

theorem checkZeroCur2_eeprom {m : ℕ → UInt8} {f : FloatBytes} (cur : FloatBytes)
    (h : floatFromEeprom m EA_ADC_ZERO_COMP_CUR2 = f) :
    floatFromEeprom (checkZeroCur2 m cur f).1 EA_ADC_ZERO_COMP_CUR2 = defaulted f := by
  unfold checkZeroCur2 defaulted
  split_ifs
  · exact floatFromEeprom_floatToEeprom m _ _
  · exact h
  · exact h

/-- No other block writes to its address. -/
theorem paramAddress_apart (o : OperationType) (p : Param) :
    paramAddress o p + 4 ≤ EA_ADC_ZERO_COMP_CUR2 ∨ EA_ADC_ZERO_COMP_CUR2 + 4 ≤ paramAddress o p := by
  cases o <;> cases p <;> decide

theorem nullValueVol_apart (range : CurrentRange) :
    (Cell.nullValueVol range).address + 4 ≤ EA_ADC_ZERO_COMP_CUR2 ∨
      EA_ADC_ZERO_COMP_CUR2 + 4 ≤ (Cell.nullValueVol range).address := by
  cases range <;> decide

theorem initNullValueVol_cur2 (s : State) (range : CurrentRange) :
    floatFromEeprom (initNullValueVol s range).eeprom EA_ADC_ZERO_COMP_CUR2 =
      floatFromEeprom s.eeprom EA_ADC_ZERO_COMP_CUR2 := by
  funext i
  have hapart := nullValueVol_apart range
  exact checkZero_outside s.eeprom _ (by omega)

theorem initParams_cur2 (s : State) (o : OperationType) :
    floatFromEeprom (initOrder.foldl (initParam o) (initTable o s)).eeprom EA_ADC_ZERO_COMP_CUR2 =
      floatFromEeprom s.eeprom EA_ADC_ZERO_COMP_CUR2 := by
  funext i
  refine initParams_eeprom o initOrder (initTable o s) ?_
  intro p _
  have hapart := paramAddress_apart o p
  omega

/-- The blocks for the current replace a second zero that is not a number, in the EEPROM and in the
null value, and leave every other one. -/
theorem initNullValueCur_cur2 (s : State) :
    let f := floatFromEeprom s.eeprom EA_ADC_ZERO_COMP_CUR2
    (initNullValueCur s).nullValueCur .MILLIAMP10 = defaulted f ∧
      floatFromEeprom (initNullValueCur s).eeprom EA_ADC_ZERO_COMP_CUR2 = defaulted f := by
  simp only [initNullValueCur, Function.update_self]
  refine ⟨checkZeroCur2_eq _ _ _, checkZeroCur2_eeprom _ ?_⟩
  -- the check on the first zero writes below the second
  funext i
  exact checkZero_outside s.eeprom _ (Or.inr (by simp [EA_ADC_ZERO_COMP_CUR, EA_ADC_ZERO_COMP_CUR2]))

theorem init_cur2 (s : State) (o : OperationType) :
    let f := floatFromEeprom s.eeprom EA_ADC_ZERO_COMP_CUR2
    (init s o).nullValueCur .MILLIAMP10 = defaulted f ∧
      floatFromEeprom (init s o).eeprom EA_ADC_ZERO_COMP_CUR2 = defaulted f := by
  have h := initNullValueCur_cur2 (initNullValueVol (initNullValueVol
    (initOrder.foldl (initParam o) (initTable o s)) .AMP1) .MILLIAMP10)
  rw [initNullValueVol_cur2, initNullValueVol_cur2, initParams_cur2] at h
  exact h

theorem inRange_defaulted_iff (f : FloatBytes) :
    InRange (defaulted f) ↔ ∀ x, CalTables.floatOfBytes f = some x → |x| ≤ 10000 := by
  cases hf : CalTables.floatOfBytes f with
  | none =>
      have hzero : defaulted f = floatOfCount 0 := by simp [defaulted, isnan, hf]
      rw [hzero]
      exact ⟨fun _ => nofun, fun _ => inRange_zero⟩
  | some x =>
      have hsame : defaulted f = f := by simp [defaulted, isnan, hf]
      rw [hsame]
      constructor
      · rintro ⟨y, hy, hle⟩ z hz
        rw [hf] at hy
        cases hy
        cases hz
        exact hle
      · intro h
        exact ⟨x, hf, h x rfl⟩

/-! ## Both objects -/

/-- The second zero of the current after `setup` is what was stored, if that was a number. -/
theorem setup_cur2 (s : State) :
    (setup s).nullValueCur .MILLIAMP10 =
      defaulted (floatFromEeprom s.eeprom EA_ADC_ZERO_COMP_CUR2) := by
  have hfirst := (init_cur2 s .SOURCE_VOLTAGE).2
  have hsecond := (init_cur2 (init s .SOURCE_VOLTAGE) .SOURCE_CURRENT).1
  -- the second call reads what the first one has left in the EEPROM
  rw [hfirst, defaulted_defaulted] at hsecond
  exact hsecond

theorem setup_param (s : State) (o : OperationType) (p : Param) :
    ParamSound p (((setup s).objects o).param p) := by
  cases o with
  | SOURCE_VOLTAGE =>
      -- the second call does not touch the first object
      unfold setup
      rw [init_other (init s .SOURCE_VOLTAGE) .SOURCE_CURRENT (by decide)]
      exact init_param s .SOURCE_VOLTAGE p
  | SOURCE_CURRENT => exact init_param (init s .SOURCE_VOLTAGE) .SOURCE_CURRENT p

/-- After the two objects are initialized from any EEPROM, all gains and zeros can be used exactly
when the second zero of the current was stored as a number in range, or as none. -/
theorem setup_sound_iff (s : State) : Sound (setup s) ↔ Cur2Fits s.eeprom := by
  unfold Cur2Fits
  rw [← inRange_defaulted_iff, ← setup_cur2]
  constructor
  · intro h
    exact h.nullValueCur .MILLIAMP10
  · intro h
    refine ⟨setup_param s, init_nullValueVol _ _, ?_⟩
    intro range
    -- the null value of the 10 mA range is the only one that depends on what is stored
    cases range with
    | AMP1 => exact init_nullValueCur_amp1 _ _
    | MILLIAMP10 => exact h

/-- An erased EEPROM, but for an infinity where the second zero of the current is kept. -/
def infinityStored (a : ℕ) : UInt8 :=
  if a = EA_ADC_ZERO_COMP_CUR2 then 0x00
  else if a = EA_ADC_ZERO_COMP_CUR2 + 1 then 0x00
  else if a = EA_ADC_ZERO_COMP_CUR2 + 2 then 0x80
  else if a = EA_ADC_ZERO_COMP_CUR2 + 3 then 0x7F
  else 0xFF

/-- A stored infinity is found suspect and used all the same. -/
theorem not_setup_sound : ¬ ∀ s, Sound (setup s) := by
  intro h
  have hsound := (h ⟨infinityStored, fun _ => ⟨erased, fun _ => floatOfCount 0⟩,
    fun _ => floatOfCount 0, fun _ => floatOfCount 0⟩).nullValueCur .MILLIAMP10
  rw [setup_cur2, inRange_defaulted_iff] at hsound
  have hvalue : CalTables.floatOfBytes (floatFromEeprom infinityStored EA_ADC_ZERO_COMP_CUR2) =
      some (2 ^ 128) := by decide +kernel
  have hle := hsound _ hvalue
  norm_num at hle

end CalInit
end PoorMansSmu
