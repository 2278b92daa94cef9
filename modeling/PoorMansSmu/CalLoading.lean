import PoorMansSmu.CalTables

/-!
# CalLoading — how much of a stored calibration is loaded

`readAdcCalFromEeprom` takes the number of points from the EEPROM first and then loads the entries one
by one, until one of them is not a number.  `adc_nonlinear_compensation` goes by the number of points.
The tables keep their `float`s as the four bytes each that come from the EEPROM, so that what they held
before may be anything, not a number included.  They are taken to go on behind their 200 entries, as
the loops take them.
-/

namespace PoorMansSmu
namespace CalLoading

open EepromMap

/-! ## Loading -/

/-- The tables of one `CalibrationClass` object, and what says how they are used. -/
structure NonlinearTable where
  set_adc : ℕ → FloatBytes
  meas_adc : ℕ → FloatBytes
  adc_cal_points : ℕ
  useCalibratedValues : Bool

def floatFromEeprom (m : ℕ → UInt8) (address : ℕ) : FloatBytes := fun i => m (address + i)

def isnan (f : FloatBytes) : Bool := (CalTables.floatOfBytes f).isNone

def storeEntry (t : NonlinearTable) (dataPtr : ℕ) (set meas : FloatBytes) : NonlinearTable :=
  { t with
    set_adc := Function.update t.set_adc dataPtr set
    meas_adc := Function.update t.meas_adc dataPtr meas }

/-- The loop of `readAdcCalFromEeprom`, with `n` entries to go: the table, and the data pointer, which
is the number of entries loaded. -/
def readEntries (m : ℕ → UInt8) : (n adr dataPtr : ℕ) → NonlinearTable → NonlinearTable × ℕ
  | 0, _, dataPtr, t => (t, dataPtr)
  | n + 1, adr, dataPtr, t =>
      let set := floatFromEeprom m adr
      let meas := floatFromEeprom m (adr + 4)
      -- neither the number of points nor the flag is taken back
      if isnan set ∨ isnan meas then (t, dataPtr)
      else readEntries m n (adr + 8) (dataPtr + 1) (storeEntry t dataPtr set meas)

/-- The number of entries that the EEPROM promises, when it is believed. -/
def storedCount (m : ℕ → UInt8) (o : OperationType) : Option ℕ :=
  match CalTables.floatOfBytes (floatFromEeprom m (ea_adc_nonlinear_comp_nr o)) with
  | none => none
  | some nr => if nr < 10 ∨ nr > 1000 then none else some (truncate nr).toNat

/-- The table after loading, and the number of entries loaded. -/
def readAdcCalFromEeprom (m : ℕ → UInt8) (o : OperationType) (t : NonlinearTable) :
    NonlinearTable × ℕ :=
  match storedCount m o with
  | none => (t, 0)
  | some nrOfPoints =>
      let r := readEntries m nrOfPoints (ea_adc_nonlinear_comp_start o) 0
        { t with adc_cal_points := nrOfPoints }
      ({ r.1 with useCalibratedValues := true }, r.2)

/-! ## Use -/

/-- The comparison `a > b` of two floats: false where one is not a number. -/
def greater : Option ℚ → Option ℚ → Bool
  | some a, some b => decide (a > b)
  | _, _ => false

/-- The comparison `a <= b` of two floats. -/
def atMost : Option ℚ → Option ℚ → Bool
  | some a, some b => decide (a ≤ b)
  | _, _ => false

/-- The value between two entries. -/
def interpolate (v setLow measLow setHigh measHigh : Option ℚ) : Option ℚ := do
  let v ← v
  let setLow ← setLow
  let measLow ← measLow
  let setHigh ← setHigh
  let measHigh ← measHigh
  let adj_factor_low := setLow - measLow
  let adj_factor_high := setHigh - measHigh
  let adj_factor_diff := adj_factor_high - adj_factor_low
  let range := setHigh - setLow
  let partWithinRange := (v - setLow) / range
  some (v + (adj_factor_low + adj_factor_diff * partWithinRange))

/-- The number an entry of a table stands for. -/
def value (table : ℕ → FloatBytes) (i : ℕ) : Option ℚ := CalTables.floatOfBytes (table i)

/-- The loop of `adc_nonlinear_compensation`, from index `i` on: the compensated value, and the
indices of the entries used. -/
def compensationLoop (t : NonlinearTable) (v : Option ℚ) : (n i : ℕ) → Option ℚ × List ℕ
  | 0, _ => (v, [])
  | n + 1, i =>
      if greater v (value t.set_adc i) then
        if atMost v (value t.set_adc (i + 1)) then
          (interpolate v (value t.set_adc i) (value t.meas_adc i) (value t.set_adc (i + 1))
            (value t.meas_adc (i + 1)), [i, i + 1, i, i + 1])
        else
          let r := compensationLoop t v n (i + 1)
          (r.1, i :: (i + 1) :: r.2)
      else
        let r := compensationLoop t v n (i + 1)
        (r.1, i :: r.2)

def adc_nonlinear_compensation (t : NonlinearTable) (v : Option ℚ) : Option ℚ × List ℕ :=
  if t.useCalibratedValues = false then (v, []) else compensationLoop t v (t.adc_cal_points - 1) 0

/-! ## What is wanted -/

/-- The two numbers of the entry `i` of a table that starts at `adr`. -/
def IsEntry (m : ℕ → UInt8) (adr i : ℕ) : Prop :=
  isnan (floatFromEeprom m (adr + i * 8)) = false ∧
    isnan (floatFromEeprom m (adr + i * 8 + 4)) = false

instance (m : ℕ → UInt8) (adr i : ℕ) : Decidable (IsEntry m adr i) :=
  inferInstanceAs (Decidable (_ ∧ _))

/-- Within the count that is stored, believed or not, there is an entry that is not a number. -/
def NaNStored (m : ℕ → UInt8) (o : OperationType) : Prop :=
  ∃ nr, CalTables.floatOfBytes (floatFromEeprom m (ea_adc_nonlinear_comp_nr o)) = some nr ∧
    ∃ i < (truncate nr).toNat, ¬ IsEntry m (ea_adc_nonlinear_comp_start o) i

/-- After loading there are not more points than entries loaded, and whatever is measured, the
compensation uses none but them. -/
def Usable (m : ℕ → UInt8) (o : OperationType) (t : NonlinearTable) : Prop :=
  let r := readAdcCalFromEeprom m o t
  r.1.adc_cal_points ≤ r.2 ∧ ∀ v, ∀ i ∈ (adc_nonlinear_compensation r.1 v).2, i < r.2

/-! ## The loop that loads -/

/-- The result `r` of a loop that stores the first `k` entries, from `dataPtr` on, and leaves the rest
of the table. -/
structure LoadsUpTo (m : ℕ → UInt8) (adr dataPtr : ℕ) (t : NonlinearTable) (k : ℕ)
    (r : NonlinearTable × ℕ) : Prop where
  numbers : ∀ i < k, IsEntry m adr i
  stored : ∀ i < k, r.1.set_adc (dataPtr + i) = floatFromEeprom m (adr + i * 8) ∧
    r.1.meas_adc (dataPtr + i) = floatFromEeprom m (adr + i * 8 + 4)
  left : ∀ j, j < dataPtr ∨ dataPtr + k ≤ j →
    r.1.set_adc j = t.set_adc j ∧ r.1.meas_adc j = t.meas_adc j
  loaded : r.2 = dataPtr + k
  points : r.1.adc_cal_points = t.adc_cal_points

/-- The entry behind `adr` is the entry `i + 1` of the table that starts there. -/
theorem isEntry_succ (m : ℕ → UInt8) (adr i : ℕ) :
    IsEntry m (adr + 8) i ↔ IsEntry m adr (i + 1) := by
  have haddress : adr + 8 + i * 8 = adr + (i + 1) * 8 := by omega
  unfold IsEntry
  rw [haddress]

/-- One entry stored, and `k` more behind it. -/
theorem LoadsUpTo.succ {m : ℕ → UInt8} {adr dataPtr k : ℕ} {t : NonlinearTable}
    {r : NonlinearTable × ℕ} (hentry : IsEntry m adr 0)
    (h : LoadsUpTo m (adr + 8) (dataPtr + 1)
      (storeEntry t dataPtr (floatFromEeprom m adr) (floatFromEeprom m (adr + 4))) k r) :
    LoadsUpTo m adr dataPtr t (k + 1) r where
  numbers := by
    intro i hi
    cases i with
    | zero => exact hentry
    | succ i => exact (isEntry_succ m adr i).1 (h.numbers i (by omega))
  stored := by
    intro i hi
    cases i with
    | zero =>
        -- the loop from the next entry on leaves this one
        obtain ⟨hset, hmeas⟩ := h.left dataPtr (Or.inl (by omega))
        simp only [Nat.add_zero, Nat.zero_mul]
        rw [hset, hmeas]
        simp [storeEntry]
    | succ i =>
        have hindex : dataPtr + (i + 1) = dataPtr + 1 + i := by omega
        have haddress : adr + (i + 1) * 8 = adr + 8 + i * 8 := by omega
        rw [hindex, haddress]
        exact h.stored i (by omega)
  left := by
    intro j hj
    obtain ⟨hset, hmeas⟩ := h.left j (by omega)
    have hne : j ≠ dataPtr := by omega
    rw [hset, hmeas]
    simp [storeEntry, hne]
  loaded := by
    have hloaded := h.loaded
    omega
  points := h.points

/-- The loop loads the entries up to the first one that is not a number. -/
theorem readEntries_loads (m : ℕ → UInt8) (n adr dataPtr : ℕ) (t : NonlinearTable) :
    ∃ k ≤ n, LoadsUpTo m adr dataPtr t k (readEntries m n adr dataPtr t) ∧
      (k < n → ¬ IsEntry m adr k) := by
  induction n generalizing adr dataPtr t with
  | zero =>
      refine ⟨0, le_refl _, ⟨nofun, nofun, fun _ _ => ⟨rfl, rfl⟩, rfl, rfl⟩, nofun⟩
  | succ n ih =>
      unfold readEntries
      simp only
      split_ifs with hnan
      · refine ⟨0, Nat.zero_le _, ⟨nofun, nofun, fun _ _ => ⟨rfl, rfl⟩, rfl, rfl⟩, ?_⟩
        intro _ hentry
        simp only [IsEntry, Nat.zero_mul, Nat.add_zero] at hentry
        rcases hnan with hset | hmeas
        · simp [hentry.1] at hset
        · simp [hentry.2] at hmeas
      · -- the entry is stored, and the loop goes on behind it
        obtain ⟨hset, hmeas⟩ := not_or.1 hnan
        have hentry : IsEntry m adr 0 := by
          simp only [IsEntry, Nat.zero_mul, Nat.add_zero]
          exact ⟨by simpa using hset, by simpa using hmeas⟩
        obtain ⟨k, hk, hloads, hstop⟩ := ih (adr + 8) (dataPtr + 1)
          (storeEntry t dataPtr (floatFromEeprom m adr) (floatFromEeprom m (adr + 4)))
        refine ⟨k + 1, by omega, hloads.succ hentry, ?_⟩
        intro hlt hnext
        exact hstop (by omega) ((isEntry_succ m adr k).2 hnext)

/-- Without such an entry it loads all of them. -/
theorem readEntries_all {m : ℕ → UInt8} {n adr : ℕ} (h : ∀ i < n, IsEntry m adr i) (dataPtr : ℕ)
    (t : NonlinearTable) : LoadsUpTo m adr dataPtr t n (readEntries m n adr dataPtr t) := by
  obtain ⟨k, hk, hloads, hstop⟩ := readEntries_loads m n adr dataPtr t
  have hall : k = n := by
    by_contra hne
    have hlt : k < n := by omega
    exact hstop hlt (h k hlt)
  rw [hall] at hloads
  exact hloads

/-! ## Loading -/

section Loading

variable {m : ℕ → UInt8} {o : OperationType} {t : NonlinearTable}

theorem readAdcCalFromEeprom_of_none (h : storedCount m o = none) :
    readAdcCalFromEeprom m o t = (t, 0) := by
  unfold readAdcCalFromEeprom
  rw [h]

/-- With a count that is believed, the loop runs and the values are used. -/
theorem readAdcCalFromEeprom_of_some {n : ℕ} (h : storedCount m o = some n) :
    readAdcCalFromEeprom m o t =
      ({ (readEntries m n (ea_adc_nonlinear_comp_start o) 0 { t with adc_cal_points := n }).1 with
          useCalibratedValues := true },
        (readEntries m n (ea_adc_nonlinear_comp_start o) 0 { t with adc_cal_points := n }).2) := by
  unfold readAdcCalFromEeprom
  rw [h]

/-- A count that is believed is the number of points, whatever is loaded. -/
theorem readAdcCalFromEeprom_points {n : ℕ} (h : storedCount m o = some n) :
    (readAdcCalFromEeprom m o t).1.adc_cal_points = n := by
  rw [readAdcCalFromEeprom_of_some h]
  obtain ⟨k, -, hloads, -⟩ := readEntries_loads m n (ea_adc_nonlinear_comp_start o) 0
    { t with adc_cal_points := n }
  exact hloads.points

/-- It is also the number of entries loaded exactly when all of them are numbers. -/
theorem readAdcCalFromEeprom_loaded {n : ℕ} (h : storedCount m o = some n) :
    (readAdcCalFromEeprom m o t).2 ≤ n ∧
      ((readAdcCalFromEeprom m o t).2 = n ↔
        ∀ i < n, IsEntry m (ea_adc_nonlinear_comp_start o) i) := by
  rw [readAdcCalFromEeprom_of_some h]
  obtain ⟨k, hk, hloads, hstop⟩ := readEntries_loads m n (ea_adc_nonlinear_comp_start o) 0
    { t with adc_cal_points := n }
  have hloaded := hloads.loaded
  simp only
  rw [hloaded, Nat.zero_add]
  refine ⟨hk, ?_⟩
  constructor
  · intro heq
    rw [← heq]
    exact hloads.numbers
  · intro hall
    by_contra hne
    have hlt : k < n := by omega
    exact hstop hlt (hall k hlt)

end Loading

/-- What is stored within a believed count. -/
theorem nanStored_iff {m : ℕ → UInt8} {o : OperationType} {n : ℕ} (h : storedCount m o = some n) :
    NaNStored m o ↔ ∃ i < n, ¬ IsEntry m (ea_adc_nonlinear_comp_start o) i := by
  unfold storedCount at h
  unfold NaNStored
  cases hnr : CalTables.floatOfBytes (floatFromEeprom m (ea_adc_nonlinear_comp_nr o)) with
  | none => simp [hnr] at h
  | some nr =>
      rw [hnr] at h
      simp only at h
      split_ifs at h
      have hn : (truncate nr).toNat = n := by simpa using h
      constructor
      · rintro ⟨nr', heq, hex⟩
        cases heq
        rw [hn] at hex
        exact hex
      · intro hex
        refine ⟨nr, rfl, ?_⟩
        rw [hn]
        exact hex

/-! ## Using the table -/

/-- The entries that the compensation uses. -/
theorem compensationLoop_lt (t : NonlinearTable) (v : Option ℚ) (n i : ℕ) :
    ∀ j ∈ (compensationLoop t v n i).2, j < i + n + 1 ∧ 0 < n := by
  induction n generalizing i with
  | zero => nofun
  | succ n ih =>
      intro j hj
      have hrest : ∀ j ∈ (compensationLoop t v n (i + 1)).2, j < i + (n + 1) + 1 ∧ 0 < n + 1 := by
        intro j hj
        have hlt := (ih (i + 1) j hj).1
        omega
      unfold compensationLoop at hj
      split_ifs at hj
      · simp only [List.mem_cons, List.not_mem_nil, or_false] at hj
        omega
      · simp only [List.mem_cons] at hj
        rcases hj with hj | hj | hj
        · omega
        · omega
        · exact hrest j hj
      · simp only [List.mem_cons] at hj
        rcases hj with hj | hj
        · omega
        · exact hrest j hj

/-- The compensation stays within the number of points. -/
theorem adc_nonlinear_compensation_lt (t : NonlinearTable) (v : Option ℚ) :
    ∀ i ∈ (adc_nonlinear_compensation t v).2, i < t.adc_cal_points := by
  intro i hi
  unfold adc_nonlinear_compensation at hi
  split_ifs at hi
  · exact absurd hi (List.not_mem_nil)
  · have hlt := compensationLoop_lt t v _ 0 i hi
    omega

/-- A value that is above none of the entries is compared with each of them. -/
theorem compensationLoop_of_below {t : NonlinearTable} {v : Option ℚ} {n i : ℕ}
    (h : ∀ j < n, greater v (value t.set_adc (i + j)) = false) :
    compensationLoop t v n i = (v, List.range' i n) := by
  induction n generalizing i with
  | zero => rfl
  | succ n ih =>
      -- the value is not above this entry, so the next one is not looked at here
      have hfirst : greater v (value t.set_adc i) = false := h 0 (by omega)
      have hrest : compensationLoop t v n (i + 1) = (v, List.range' (i + 1) n) := by
        refine ih ?_
        intro j hj
        have hindex : i + 1 + j = i + (j + 1) := by omega
        rw [hindex]
        exact h (j + 1) (by omega)
      unfold compensationLoop
      rw [if_neg (by simp [hfirst]), hrest]
      rfl

/-- Entries left over behind the ones loaded are used: a value that is above none of the entries is
compared with every one of them but the last. -/
theorem leftover_used {m : ℕ → UInt8} {o : OperationType} {t : NonlinearTable} {n : ℕ}
    (h : storedCount m o = some n) {v : Option ℚ}
    (hv : ∀ i < n - 1, greater v (value (readAdcCalFromEeprom m o t).1.set_adc i) = false) :
    ∀ i, (readAdcCalFromEeprom m o t).2 ≤ i → i < n - 1 →
      i ∈ (adc_nonlinear_compensation (readAdcCalFromEeprom m o t).1 v).2 := by
  intro i _ hi
  have hpoints := readAdcCalFromEeprom_points (t := t) h
  -- the flag is set whatever was loaded
  have huse : (readAdcCalFromEeprom m o t).1.useCalibratedValues = true := by
    rw [readAdcCalFromEeprom_of_some h]
  unfold adc_nonlinear_compensation
  rw [if_neg (by simp [huse]), hpoints, compensationLoop_of_below]
  · simpa using hi
  · intro j hj
    rw [Nat.zero_add]
    exact hv j hj

/-! ## Usable tables -/

/-- A rejected count leaves the points as they were, none of them loaded. -/
theorem usable_of_none {m : ℕ → UInt8} {o : OperationType} {t : NonlinearTable}
    (h : storedCount m o = none) : Usable m o t ↔ t.adc_cal_points = 0 := by
  unfold Usable
  rw [readAdcCalFromEeprom_of_none h]
  constructor
  · rintro ⟨hpoints, -⟩
    exact Nat.le_zero.1 hpoints
  · intro hzero
    refine ⟨hzero.le, ?_⟩
    intro v i hi
    have hlt := adc_nonlinear_compensation_lt t v i hi
    omega

/-- With a count that is believed, the table is usable exactly when all of it was loaded. -/
theorem usable_of_some {m : ℕ → UInt8} {o : OperationType} {t : NonlinearTable} {n : ℕ}
    (h : storedCount m o = some n) :
    Usable m o t ↔ ∀ i < n, IsEntry m (ea_adc_nonlinear_comp_start o) i := by
  obtain ⟨hle, hall⟩ := readAdcCalFromEeprom_loaded (t := t) h
  have hpoints := readAdcCalFromEeprom_points (t := t) h
  rw [← hall]
  constructor
  · -- the points are the count, so the first half alone asks for all entries
    rintro ⟨hcount, -⟩
    omega
  · intro heq
    refine ⟨by omega, ?_⟩
    intro v i hi
    have hlt := adc_nonlinear_compensation_lt _ v i hi
    omega

/-- An entry that is not a number, within the count stored, leaves a usable table exactly when the
count was not believed and there were no points before. -/
theorem usable_of_nanStored_iff (m : ℕ → UInt8) (o : OperationType) (t : NonlinearTable) :
    (NaNStored m o → Usable m o t) ↔
      ¬ NaNStored m o ∨ storedCount m o = none ∧ t.adc_cal_points = 0 := by
  cases hcount : storedCount m o with
  | none =>
      rw [usable_of_none hcount]
      tauto
  | some n =>
      rw [usable_of_some hcount, nanStored_iff hcount]
      constructor
      · intro h
        refine Or.inl ?_
        rintro ⟨i, hi, hnan⟩
        exact hnan (h ⟨i, hi, hnan⟩ i hi)
      · rintro (hnone | ⟨hnone, -⟩) hnan
        · exact absurd hnan hnone
        · cases hnone

/-- An object before loading, at power-up. -/
def erased : NonlinearTable where
  set_adc := fun _ _ => 0
  meas_adc := fun _ _ => 0
  adc_cal_points := 0
  useCalibratedValues := true

/-- An EEPROM with a count of 10 and no entries: what is not written reads as `0xFF`. -/
def countOnly (a : ℕ) : UInt8 :=
  if a = EA_ADC_NONLINEAR_COMP_NR_VOL then 0x00
  else if a = EA_ADC_NONLINEAR_COMP_NR_VOL + 1 then 0x00
  else if a = EA_ADC_NONLINEAR_COMP_NR_VOL + 2 then 0x20
  else if a = EA_ADC_NONLINEAR_COMP_NR_VOL + 3 then 0x41
  else 0xFF

/-- With a count of 10 and no entries, ten points are in use at power-up and none is loaded. -/
theorem not_usable_of_nanStored :
    ¬ ∀ m o t, NaNStored m o → Usable m o t := by
  intro h
  have hcount : storedCount countOnly .SOURCE_VOLTAGE = some 10 := by decide +kernel
  have hnan : ¬ IsEntry countOnly (ea_adc_nonlinear_comp_start .SOURCE_VOLTAGE) 0 := by
    decide +kernel
  have hstored : NaNStored countOnly .SOURCE_VOLTAGE :=
    (nanStored_iff hcount).2 ⟨0, by omega, hnan⟩
  exact hnan ((usable_of_some hcount).1 (h _ _ erased hstored) 0 (by omega))

/-! ## The numbers loaded

What loading leaves at power-up is what `CalTables` takes it for. -/

/-- The numbers in a table. -/
def numbers (t : NonlinearTable) : CalTables.Tables where
  set_adc := fun i => (value t.set_adc i).getD 0
  meas_adc := fun i => (value t.meas_adc i).getD 0
  adc_cal_points := t.adc_cal_points

theorem numbers_storeEntry (t : NonlinearTable) (dataPtr : ℕ) {set meas : FloatBytes} {x y : ℚ}
    (hset : CalTables.floatOfBytes set = some x) (hmeas : CalTables.floatOfBytes meas = some y) :
    numbers (storeEntry t dataPtr set meas) =
      { numbers t with
        set_adc := Function.update (numbers t).set_adc dataPtr x
        meas_adc := Function.update (numbers t).meas_adc dataPtr y } := by
  unfold numbers storeEntry value
  simp only [CalTables.Tables.mk.injEq, and_true]
  constructor
  · funext i
    by_cases hi : i = dataPtr
    · subst hi
      simp [hset]
    · simp [hi]
  · funext i
    by_cases hi : i = dataPtr
    · subst hi
      simp [hmeas]
    · simp [hi]

theorem numbers_readEntries (m : ℕ → UInt8) (n adr dataPtr : ℕ) (t : NonlinearTable) :
    numbers (readEntries m n adr dataPtr t).1 =
      (CalTables.readEntries m n adr dataPtr (numbers t)).1 := by
  induction n generalizing adr dataPtr t with
  | zero => rfl
  | succ n ih =>
      -- what is read is the same float, as bytes here and as a number there
      have hset : CalTables.floatFromEeprom m adr =
          CalTables.floatOfBytes (floatFromEeprom m adr) := rfl
      have hmeas : CalTables.floatFromEeprom m (adr + 4) =
          CalTables.floatOfBytes (floatFromEeprom m (adr + 4)) := rfl
      unfold readEntries CalTables.readEntries
      rw [hset, hmeas]
      simp only
      split_ifs with hnan
      · rcases hnan with hnone | hnone
        · rw [Option.isNone_iff_eq_none.1 hnone]
        · rw [Option.isNone_iff_eq_none.1 hnone]
          cases CalTables.floatOfBytes (floatFromEeprom m adr) <;> rfl
      · obtain ⟨hx, hy⟩ := not_or.1 hnan
        obtain ⟨x, hx⟩ := Option.ne_none_iff_exists'.1 (mt Option.isNone_iff_eq_none.2 hx)
        obtain ⟨y, hy⟩ := Option.ne_none_iff_exists'.1 (mt Option.isNone_iff_eq_none.2 hy)
        rw [hx, hy, ih, numbers_storeEntry t dataPtr hx hy]

theorem numbers_erased : numbers erased = {} := by
  have hzero : CalTables.floatOfBytes (fun _ => 0) = some 0 := by decide +kernel
  unfold numbers erased value
  simp [hzero]

/-- The tables after power-up. -/
theorem numbers_readAdcCalFromEeprom (m : ℕ → UInt8) (o : OperationType) :
    numbers (readAdcCalFromEeprom m o erased).1 = (CalTables.readAdcCalFromEeprom m o).1 := by
  unfold readAdcCalFromEeprom CalTables.readAdcCalFromEeprom storedCount
  have hnr : CalTables.floatFromEeprom m (ea_adc_nonlinear_comp_nr o) =
      CalTables.floatOfBytes (floatFromEeprom m (ea_adc_nonlinear_comp_nr o)) := rfl
  rw [hnr]
  cases CalTables.floatOfBytes (floatFromEeprom m (ea_adc_nonlinear_comp_nr o)) with
  | none => exact numbers_erased
  | some nr =>
      simp only
      split_ifs
      · exact numbers_erased
      · have hempty : numbers { erased with adc_cal_points := (truncate nr).toNat } =
            { adc_cal_points := (truncate nr).toNat } := by
          have h := numbers_erased
          simp only [numbers, CalTables.Tables.mk.injEq] at h ⊢
          exact ⟨h.1, h.2.1, trivial⟩
        rw [← hempty, ← numbers_readEntries]
        rfl

/-- An object whose points are these numbers. -/
structure Holds (t : NonlinearTable) (c : AutoCal.CalibrationObject) : Prop where
  set_adc : ∀ i < c.adc_cal_points, value t.set_adc i = some (c.set_adc i)
  meas_adc : ∀ i < c.adc_cal_points, value t.meas_adc i = some (c.meas_adc i)
  points : t.adc_cal_points = c.adc_cal_points
  use : t.useCalibratedValues = c.useCalibratedValues

theorem compensationLoop_holds {t : NonlinearTable} {c : AutoCal.CalibrationObject} (h : Holds t c)
    (v : ℚ) (n i : ℕ) (hn : i + n < c.adc_cal_points ∨ n = 0) :
    let r := CalTables.compensationLoop c v n i
    (compensationLoop t (some v) n i).1 = some r.1 ∧
      (compensationLoop t (some v) n i).2.map Int.ofNat = r.2 := by
  induction n generalizing i with
  | zero => exact ⟨rfl, rfl⟩
  | succ n ih =>
      obtain ⟨hvalue, hindices⟩ := ih (i + 1) (by omega)
      -- both entries of this round are points, since the loop ends one before the last
      have hlow := h.set_adc i (by omega)
      have hhigh := h.set_adc (i + 1) (by omega)
      unfold compensationLoop CalTables.compensationLoop
      simp only [hlow, hhigh, greater, atMost, decide_eq_true_eq]
      split_ifs
      · simp only [h.meas_adc i (by omega), h.meas_adc (i + 1) (by omega), interpolate]
        exact ⟨rfl, rfl⟩
      · simp only [List.map_cons, hindices]
        exact ⟨hvalue, rfl⟩
      · simp only [List.map_cons, hindices]
        exact ⟨hvalue, rfl⟩

/-- With all its points numbers, a table is used as `CalTables` uses it. -/
theorem adc_nonlinear_compensation_holds {t : NonlinearTable} {c : AutoCal.CalibrationObject}
    (h : Holds t c) (v : ℚ) :
    let r := CalTables.adc_nonlinear_compensation c v
    (adc_nonlinear_compensation t (some v)).1 = some r.1 ∧
      (adc_nonlinear_compensation t (some v)).2.map Int.ofNat = r.2 := by
  unfold adc_nonlinear_compensation CalTables.adc_nonlinear_compensation
  rw [h.use, h.points]
  split_ifs
  · exact ⟨rfl, rfl⟩
  · exact compensationLoop_holds h v _ 0 (by omega)

end CalLoading
end PoorMansSmu
