import PoorMansSmu.CalLoading
import Mathlib.Tactic.Positivity
import Mathlib.Tactic.IntervalCases

/-!
# CalStore — a calibration stored and loaded again

`writeAdcCalToEeprom` stores the number of points and the entries of the two tables, and
`readAdcCalFromEeprom` loads them after the next power-up.  The loop that stores compares addresses with
`<=` and the one that loads with `<`.
-/

namespace PoorMansSmu
namespace CalStore

open ByteStore EepromMap CalLoading

/-! ## Storing -/

def floatToEeprom (m : ℕ → UInt8) (address : ℕ) (f : FloatBytes) : ℕ → UInt8 :=
  let m := Function.update m address (bytes f 0)
  let m := Function.update m (address + 1) (bytes f 1)
  let m := Function.update m (address + 2) (bytes f 2)
  Function.update m (address + 3) (bytes f 3)

/-- The loop of `writeAdcCalToEeprom`, with `n` entries to go. -/
def writeEntries (t : NonlinearTable) : (n adr dataPtr : ℕ) → (ℕ → UInt8) → ℕ → UInt8
  | 0, _, _, m => m
  | n + 1, adr, dataPtr, m =>
      let m := floatToEeprom m adr (t.set_adc dataPtr)
      let m := floatToEeprom m (adr + 4) (t.meas_adc dataPtr)
      writeEntries t n (adr + 8) (dataPtr + 1) m

/-- The loop goes on while the address is at most the one behind the last entry: it runs once more
than there are points. -/
def writeAdcCalToEeprom (m : ℕ → UInt8) (o : OperationType) (t : NonlinearTable) (nrOfPoints : ℕ) :
    ℕ → UInt8 :=
  writeEntries t (nrOfPoints + 1) (ea_adc_nonlinear_comp_start o) 0
    (floatToEeprom m (ea_adc_nonlinear_comp_nr o) (floatOfCount nrOfPoints))

/-! ## What is wanted -/

/-- After a reboot, whatever the tables then hold, the `n` points are back as they were. -/
def RoundTrip (m : ℕ → UInt8) (o : OperationType) (t : NonlinearTable) (n : ℕ) : Prop :=
  ∀ t' : NonlinearTable,
    let loaded := (readAdcCalFromEeprom (writeAdcCalToEeprom m o t n) o t').1
    loaded.adc_cal_points = n ∧
      ∀ i < n, loaded.set_adc i = t.set_adc i ∧ loaded.meas_adc i = t.meas_adc i

/-- Storing changes nothing but the count and the `n` entries. -/
def Footprint (m : ℕ → UInt8) (o : OperationType) (t : NonlinearTable) (n : ℕ) : Prop :=
  ∀ a, ¬ (ea_adc_nonlinear_comp_nr o ≤ a ∧ a < ea_adc_nonlinear_comp_nr o + 4) →
    ¬ (ea_adc_nonlinear_comp_start o ≤ a ∧ a < ea_adc_nonlinear_comp_start o + n * 8) →
    writeAdcCalToEeprom m o t n a = m a

/-- All points are pairs of numbers. -/
def Numbers (t : NonlinearTable) (n : ℕ) : Prop :=
  ∀ i < n, isnan (t.set_adc i) = false ∧ isnan (t.meas_adc i) = false

/-- The eight bytes behind the `n` entries hold the entry of index `n` already. -/
def HeldBehind (m : ℕ → UInt8) (o : OperationType) (t : NonlinearTable) (n : ℕ) : Prop :=
  ∀ i : Fin 4, m (ea_adc_nonlinear_comp_start o + n * 8 + i) = t.set_adc n i ∧
    m (ea_adc_nonlinear_comp_start o + n * 8 + 4 + i) = t.meas_adc n i

/-! ## One float -/

/-- A float reads back as it was written. -/
theorem floatFromEeprom_floatToEeprom (m : ℕ → UInt8) (address : ℕ) (f : FloatBytes) :
    floatFromEeprom (floatToEeprom m address f) address = f := by
  funext ⟨i, hi⟩
  interval_cases i <;> simp [floatFromEeprom, floatToEeprom, bytes, Function.update]

/-- Other addresses keep their bytes. -/
theorem floatToEeprom_outside (m : ℕ → UInt8) (f : FloatBytes) {address a : ℕ}
    (h : a < address ∨ address + 4 ≤ a) : floatToEeprom m address f a = m a := by
  have hne : ∀ i < 4, a ≠ address + i := by omega
  simp [floatToEeprom, hne, show a ≠ address from hne 0 (by omega)]

/-! ## The count as a float -/

/-- The number whose 32 bits are the four bytes. -/
theorem floatOfBytes_ofNat {bits : ℕ} (h : bits < 2 ^ 32) :
    let f : FloatBytes := fun i => UInt8.ofNat (bits / 256 ^ (i : ℕ))
    (f 0).toNat + 256 * (f 1).toNat + 65536 * (f 2).toNat + 16777216 * (f 3).toNat = bits := by
  have h3 : ((3 : Fin 4) : ℕ) = 3 := rfl
  simp only [UInt8.toNat_ofNat', Fin.isValue, Fin.val_zero, Fin.val_one, Fin.val_two, h3]
  omega

/-- A normal number from 1 up to `2 ^ 24`, by the exponent and the fraction of its bits. -/
theorem floatOfBytes_normal {f : FloatBytes} {e fraction : ℕ} (he : e ≤ 23)
    (hfraction : fraction < 2 ^ 23)
    (hbits : (f 0).toNat + 256 * (f 1).toNat + 65536 * (f 2).toNat + 16777216 * (f 3).toNat =
      (127 + e) * 2 ^ 23 + fraction) :
    CalTables.floatOfBytes f = some (((2 ^ 23 + fraction : ℕ) : ℚ) / 2 ^ (23 - e)) := by
  have hfractionBits : ((127 + e) * 2 ^ 23 + fraction) % 2 ^ 23 = fraction := by omega
  have hexponentBits : ((127 + e) * 2 ^ 23 + fraction) / 2 ^ 23 % 256 = 127 + e := by omega
  have hsign : ((127 + e) * 2 ^ 23 + fraction) / 2 ^ 31 ≠ 1 := by omega
  -- neither all ones nor zero: the exponent is that of a normal number, and the sign bit is clear
  unfold CalTables.floatOfBytes
  simp only [hbits]
  rw [hfractionBits, hexponentBits, if_neg (by omega), if_neg hsign, if_neg (by omega)]
  by_cases hlt : e < 23
  · -- below 24 bits the point stands inside the fraction
    have hshift : 150 - (127 + e) = 23 - e := by omega
    rw [if_pos (by omega), hshift]
  · have heq : e = 23 := by omega
    subst heq
    rw [if_neg (by omega)]
    norm_num

/-- The count that is stored reads back as itself. -/
theorem floatOfBytes_floatOfCount {n : ℕ} (hpos : 0 < n) (hlt : n < 2 ^ 24) :
    CalTables.floatOfBytes (floatOfCount n) = some (n : ℚ) := by
  have hlow : 2 ^ Nat.log2 n ≤ n := Nat.log2_self_le hpos.ne'
  have hhigh : n < 2 ^ (Nat.log2 n + 1) := Nat.lt_log2_self
  have he : Nat.log2 n ≤ 23 := by
    have := (Nat.log2_lt hpos.ne').2 hlt
    omega
  generalize hlog : Nat.log2 n = e at hlow hhigh he
  -- the fraction is shifted up to 23 bits
  have hsplit : 2 ^ 23 = 2 ^ (23 - e) * 2 ^ e := by
    rw [← pow_add]
    congr 1
    omega
  have hshift : (n - 2 ^ e) * 2 ^ 23 / 2 ^ e = (n - 2 ^ e) * 2 ^ (23 - e) := by
    rw [hsplit, ← mul_assoc, Nat.mul_div_cancel _ (Nat.two_pow_pos e)]
  have hfraction : (n - 2 ^ e) * 2 ^ (23 - e) < 2 ^ 23 := by
    rw [hsplit, mul_comm]
    refine Nat.mul_lt_mul_of_pos_left ?_ (Nat.two_pow_pos _)
    rw [pow_succ] at hhigh
    omega
  have hnumber : 2 ^ 23 + (n - 2 ^ e) * 2 ^ (23 - e) = n * 2 ^ (23 - e) := by
    rw [hsplit, mul_comm (2 ^ (23 - e)), ← add_mul]
    congr 1
    omega
  rw [floatOfBytes_normal he hfraction, hnumber]
  · have hne : (2 : ℚ) ^ (23 - e) ≠ 0 := by positivity
    push_cast
    rw [mul_div_cancel_right₀ _ hne]
  · rw [← hshift]
    unfold floatOfCount
    rw [hlog, if_neg hpos.ne']
    exact floatOfBytes_ofNat (by omega)

/-! ## Storing, cell by cell

The count and the entries lie one behind the other, four bytes each: the slots. -/

/-- The cell of a slot: the count, then the set and the measured value of each entry. -/
def slotCell (o : OperationType) : ℕ → Cell
  | 0 => .adc_cal_points o
  | s + 1 => if s % 2 = 0 then .set_adc o (s / 2) else .meas_adc o (s / 2)

/-- What is stored in a slot. -/
def slotFloat (t : NonlinearTable) (n : ℕ) : ℕ → FloatBytes
  | 0 => floatOfCount n
  | s + 1 => if s % 2 = 0 then t.set_adc (s / 2) else t.meas_adc (s / 2)

def slotWrite (o : OperationType) (t : NonlinearTable) (n s : ℕ) : Cell × (ℕ → UInt8) :=
  (slotCell o s, bytes (slotFloat t n s))

/-- The slots written, in order. -/
def slotWrites (o : OperationType) (t : NonlinearTable) (n : ℕ) : List (Cell × (ℕ → UInt8)) :=
  (List.range' 0 (2 * (n + 1) + 1)).map (slotWrite o t n)

section Slots

variable (o : OperationType) (t : NonlinearTable) (n i : ℕ)

theorem slotCell_succ :
    slotCell o (i + 1) = if i % 2 = 0 then .set_adc o (i / 2) else .meas_adc o (i / 2) := rfl

theorem slotFloat_succ :
    slotFloat t n (i + 1) = if i % 2 = 0 then t.set_adc (i / 2) else t.meas_adc (i / 2) := rfl

theorem slot_set :
    slotCell o (2 * i + 1) = .set_adc o i ∧ slotFloat t n (2 * i + 1) = t.set_adc i := by
  have heven : 2 * i % 2 = 0 := by omega
  have hhalf : 2 * i / 2 = i := by omega
  rw [slotCell_succ, slotFloat_succ, if_pos heven, if_pos heven, hhalf]
  exact ⟨rfl, rfl⟩

theorem slot_meas :
    slotCell o (2 * i + 2) = .meas_adc o i ∧ slotFloat t n (2 * i + 2) = t.meas_adc i := by
  have hodd : ¬ (2 * i + 1) % 2 = 0 := by omega
  have hhalf : (2 * i + 1) / 2 = i := by omega
  rw [slotCell_succ, slotFloat_succ, if_neg hodd, if_neg hodd, hhalf]
  exact ⟨rfl, rfl⟩

theorem slotWrite_set : slotWrite o t n (2 * i + 1) = (.set_adc o i, bytes (t.set_adc i)) := by
  obtain ⟨hcell, hfloat⟩ := slot_set o t n i
  rw [slotWrite, hcell, hfloat]

theorem slotWrite_meas :
    slotWrite o t n (2 * i + 2) = (.meas_adc o i, bytes (t.meas_adc i)) := by
  obtain ⟨hcell, hfloat⟩ := slot_meas o t n i
  rw [slotWrite, hcell, hfloat]

/-- The slots of an entry, and those of the entries behind it. -/
theorem slotWrites_cons (k : ℕ) :
    (List.range' (2 * i + 1) (2 * (k + 1))).map (slotWrite o t n) =
      (.set_adc o i, bytes (t.set_adc i)) :: (.meas_adc o i, bytes (t.meas_adc i)) ::
        (List.range' (2 * (i + 1) + 1) (2 * k)).map (slotWrite o t n) := by
  have hrange : List.range' (2 * i + 1) (2 * (k + 1)) =
      (2 * i + 1) :: (2 * i + 2) :: List.range' (2 * (i + 1) + 1) (2 * k) := rfl
  rw [hrange, List.map_cons, List.map_cons, slotWrite_set, slotWrite_meas]

theorem start_eq : ea_adc_nonlinear_comp_start o = ea_adc_nonlinear_comp_nr o + 4 := by
  cases o <;> rfl

theorem slotCell_address (s : ℕ) :
    (slotCell o s).address = ea_adc_nonlinear_comp_nr o + 4 * s := by
  have hstart := start_eq o
  cases s with
  | zero => rfl
  | succ s =>
      rw [slotCell_succ]
      split_ifs
      · simp only [Cell.address]
        omega
      · simp only [Cell.address]
        omega

theorem slotCell_covers (s a : ℕ) :
    layout.Covers (slotCell o s) a ↔
      ea_adc_nonlinear_comp_nr o + 4 * s ≤ a ∧ a < ea_adc_nonlinear_comp_nr o + 4 * s + 4 := by
  have hsize : (slotCell o s).size = 4 := by
    cases s with
    | zero => rfl
    | succ s =>
        rw [slotCell_succ]
        split_ifs <;> rfl
  have haddress := slotCell_address o s
  change (slotCell o s).address ≤ a ∧ a < (slotCell o s).address + (slotCell o s).size ↔ _
  rw [hsize, haddress]

/-- Different slots are different cells, and share no address. -/
theorem slot_eq_of_covers {s s' a : ℕ} (h : layout.Covers (slotCell o s) a)
    (h' : layout.Covers (slotCell o s') a) : s = s' := by
  rw [slotCell_covers] at h h'
  omega

end Slots

/-- Four bytes written one by one are a cell written. -/
theorem floatToEeprom_eq_write (m : ℕ → UInt8) (f : FloatBytes) {c : Cell} (hsize : c.size = 4) :
    floatToEeprom m c.address f = layout.write m (c, bytes f) := by
  funext a
  have hcovers : layout.Covers c a ↔ c.address ≤ a ∧ a < c.address + 4 := by
    change c.address ≤ a ∧ a < c.address + c.size ↔ _
    rw [hsize]
  by_cases hin : c.address ≤ a ∧ a < c.address + 4
  · rw [write_inside layout m (c, bytes f) a (hcovers.2 hin)]
    obtain ⟨i, rfl⟩ : ∃ i : Fin 4, a = c.address + i :=
      ⟨⟨a - c.address, by omega⟩, by simp only; omega⟩
    have hread := congrFun (floatFromEeprom_floatToEeprom m c.address f) i
    have hoffset : c.address + i - layout.address c = i := Nat.add_sub_cancel_left _ _
    calc floatToEeprom m c.address f (c.address + i)
        = f i := hread
      _ = bytes f (c.address + i - layout.address c) := by rw [hoffset]; simp [bytes]
  · rw [write_outside layout m (c, bytes f) a (mt hcovers.1 hin)]
    exact floatToEeprom_outside m f (by omega)

/-- The loop writes the slots of the entries. -/
theorem writeEntries_eq_exec (m : ℕ → UInt8) (o : OperationType) (t : NonlinearTable)
    (n k dataPtr : ℕ) :
    writeEntries t k (ea_adc_nonlinear_comp_start o + dataPtr * 8) dataPtr m =
      Run.exec layout.write m ((List.range' (2 * dataPtr + 1) (2 * k)).map (slotWrite o t n)) := by
  induction k generalizing dataPtr m with
  | zero => rfl
  | succ k ih =>
      have hnext : ea_adc_nonlinear_comp_start o + dataPtr * 8 + 8 =
          ea_adc_nonlinear_comp_start o + (dataPtr + 1) * 8 := by omega
      have hset := floatToEeprom_eq_write m (t.set_adc dataPtr)
        (show (Cell.set_adc o dataPtr).size = 4 from rfl)
      have hmeas := fun m => floatToEeprom_eq_write m (t.meas_adc dataPtr)
        (show (Cell.meas_adc o dataPtr).size = 4 from rfl)
      simp only [Cell.address] at hset hmeas
      unfold writeEntries
      simp only
      rw [hset, hmeas, hnext, ih, slotWrites_cons, Run.exec_cons, Run.exec_cons]

/-- Storing is writing the slots. -/
theorem writeAdcCalToEeprom_eq_exec (m : ℕ → UInt8) (o : OperationType) (t : NonlinearTable)
    (n : ℕ) :
    writeAdcCalToEeprom m o t n = Run.exec layout.write m (slotWrites o t n) := by
  have hcount := floatToEeprom_eq_write m (floatOfCount n)
    (show (Cell.adc_cal_points o).size = 4 from rfl)
  have hentries := fun m => writeEntries_eq_exec m o t n (n + 1) 0
  simp only [Nat.zero_mul, Nat.add_zero] at hentries
  simp only [Cell.address] at hcount
  unfold writeAdcCalToEeprom
  rw [hentries, hcount]
  rfl

/-- The entries from `p` on, as `EepromMap` lists them, are the slots from `2 * p + 1` on. -/
theorem flatMap_entries (o : OperationType) (t : NonlinearTable) (n k p : ℕ) :
    ((List.range' p k).flatMap fun i =>
        [(Cell.set_adc o i, bytes (t.set_adc i)), (Cell.meas_adc o i, bytes (t.meas_adc i))]) =
      (List.range' (2 * p + 1) (2 * k)).map (slotWrite o t n) := by
  induction k generalizing p with
  | zero => rfl
  | succ k ih =>
      rw [List.range'_succ, List.flatMap_cons, ih, slotWrites_cons]
      rfl

/-- For the counts of an auto-calibration these are the writes of `EepromMap`. -/
theorem writeAdcCalToEeprom_writes (o : OperationType) (t : NonlinearTable)
    (n : { n : ℕ // AutoCalCount o n }) :
    (EepromCall.writeAdcCalToEeprom o n t.set_adc t.meas_adc).writes = slotWrites o t n := by
  have hwrites : (EepromCall.writeAdcCalToEeprom o n t.set_adc t.meas_adc).writes =
      (.adc_cal_points o, bytes (floatOfCount n)) :: (List.range (n + 1)).flatMap fun i =>
        [(.set_adc o i, bytes (t.set_adc i)), (.meas_adc o i, bytes (t.meas_adc i))] := rfl
  rw [hwrites, List.range_eq_range', flatMap_entries o t n (n + 1) 0]
  rfl

/-! ## What is stored -/

section Stored

variable {m : ℕ → UInt8} {o : OperationType} {t : NonlinearTable} {n : ℕ}

theorem mem_slotWrites {w : Cell × (ℕ → UInt8)} :
    w ∈ slotWrites o t n ↔ ∃ s < 2 * n + 3, slotWrite o t n s = w := by
  unfold slotWrites
  simp only [List.mem_map, List.mem_range'_1, Nat.zero_le, true_and]
  constructor
  · rintro ⟨s, hs, rfl⟩
    exact ⟨s, by omega, rfl⟩
  · rintro ⟨s, hs, rfl⟩
    exact ⟨s, by omega, rfl⟩

/-- Every slot written reads back as what was stored in it. -/
theorem writeAdcCalToEeprom_slot {s : ℕ} (hs : s < 2 * n + 3) (i : Fin 4) :
    writeAdcCalToEeprom m o t n (ea_adc_nonlinear_comp_nr o + 4 * s + i) = slotFloat t n s i := by
  have hmem : (slotCell o s, bytes (slotFloat t n s)) ∈ slotWrites o t n :=
    mem_slotWrites.2 ⟨s, hs, rfl⟩
  -- no two slots share an address, so the last value of each one can be read back
  have hseparate : ∀ w ∈ slotWrites o t n, ∀ u ∈ slotWrites o t n, ∀ a,
      layout.Covers w.1 a → layout.Covers u.1 a → w.1 = u.1 := by
    intro w hw u hu a ha ha'
    obtain ⟨k, -, rfl⟩ := mem_slotWrites.1 hw
    obtain ⟨k', -, rfl⟩ := mem_slotWrites.1 hu
    have heq : k = k' := slot_eq_of_covers o ha ha'
    rw [heq]
  have hlast : lastValue (slotCell o s) (slotWrites o t n) = some (bytes (slotFloat t n s)) := by
    refine lastValue_of_mem hmem ?_
    intro w hw heq
    obtain ⟨k, -, rfl⟩ := mem_slotWrites.1 hw
    have hfirst : layout.Covers (slotCell o s) (ea_adc_nonlinear_comp_nr o + 4 * s) :=
      (slotCell_covers o s _).2 ⟨le_refl _, by omega⟩
    have hsame : k = s := slot_eq_of_covers o (by rw [← heq] at hfirst; exact hfirst) hfirst
    rw [hsame]
    rfl
  have hsize : (i : ℕ) < layout.size (slotCell o s) := by
    have hcover := (slotCell_covers o s (ea_adc_nonlinear_comp_nr o + 4 * s + i)).2
      ⟨Nat.le_add_right _ _, by omega⟩
    have haddress := slotCell_address o s
    have hhigh : _ < (slotCell o s).address + (slotCell o s).size := hcover.2
    change _ < (slotCell o s).size
    omega
  have hread := readsBack_of_separate layout m hseparate _ _ hlast i hsize
  change Run.exec layout.write m _ ((slotCell o s).address + i) = _ at hread
  rw [slotCell_address, ← writeAdcCalToEeprom_eq_exec] at hread
  rw [hread]
  simp [bytes]

/-- The addresses of no slot keep their bytes. -/
theorem writeAdcCalToEeprom_outside {a : ℕ}
    (ha : a < ea_adc_nonlinear_comp_nr o ∨ ea_adc_nonlinear_comp_nr o + 4 * (2 * n + 3) ≤ a) :
    writeAdcCalToEeprom m o t n a = m a := by
  rw [writeAdcCalToEeprom_eq_exec]
  refine exec_write_outside layout m ?_
  intro w hw hcover
  obtain ⟨s, hs, rfl⟩ := mem_slotWrites.1 hw
  have hbounds := (slotCell_covers o s a).1 hcover
  omega

theorem stored_slot {s : ℕ} (hs : s < 2 * n + 3) :
    floatFromEeprom (writeAdcCalToEeprom m o t n) (ea_adc_nonlinear_comp_nr o + 4 * s) =
      slotFloat t n s :=
  funext (writeAdcCalToEeprom_slot hs)

theorem stored_count :
    floatFromEeprom (writeAdcCalToEeprom m o t n) (ea_adc_nonlinear_comp_nr o) = floatOfCount n :=
  stored_slot (s := 0) (by omega)

/-- One entry more is stored than there are points. -/
theorem stored_set {i : ℕ} (hi : i ≤ n) :
    floatFromEeprom (writeAdcCalToEeprom m o t n) (ea_adc_nonlinear_comp_start o + i * 8) =
      t.set_adc i := by
  have haddress : ea_adc_nonlinear_comp_start o + i * 8 =
      ea_adc_nonlinear_comp_nr o + 4 * (2 * i + 1) := by
    rw [start_eq]
    omega
  rw [haddress, stored_slot (by omega), (slot_set o t n i).2]

theorem stored_meas {i : ℕ} (hi : i ≤ n) :
    floatFromEeprom (writeAdcCalToEeprom m o t n) (ea_adc_nonlinear_comp_start o + i * 8 + 4) =
      t.meas_adc i := by
  have haddress : ea_adc_nonlinear_comp_start o + i * 8 + 4 =
      ea_adc_nonlinear_comp_nr o + 4 * (2 * i + 2) := by
    rw [start_eq]
    omega
  rw [haddress, stored_slot (by omega), (slot_meas o t n i).2]

/-! ## The round trip -/

/-- The count that was stored is believed. -/
theorem stored_storedCount (hlo : 10 ≤ n) (hhi : n ≤ 200) :
    storedCount (writeAdcCalToEeprom m o t n) o = some n := by
  have hfloat := floatOfBytes_floatOfCount (n := n) (by omega) (by omega)
  have hbelieved : ¬ ((n : ℚ) < 10 ∨ (n : ℚ) > 1000) := by
    rw [not_or]
    constructor
    · rw [not_lt]
      exact_mod_cast hlo
    · rw [gt_iff_lt, not_lt]
      exact_mod_cast hhi.trans (by omega)
  have htruncate : (truncate (n : ℚ)).toNat = n := by
    rw [CalTables.truncate_toNat (Nat.cast_nonneg n)]
    exact Nat.floor_natCast n
  unfold storedCount
  rw [stored_count, hfloat]
  simp only
  rw [if_neg hbelieved, htruncate]

/-- What is stored of a table of numbers is loaded again. -/
theorem roundTrip (m : ℕ → UInt8) (o : OperationType) (hlo : 10 ≤ n) (hhi : n ≤ 200)
    (hnumbers : Numbers t n) : RoundTrip m o t n := by
  intro t'
  -- the loop that loads finds `n` entries and stops there
  have hentries : ∀ i < n,
      IsEntry (writeAdcCalToEeprom m o t n) (ea_adc_nonlinear_comp_start o) i := by
    intro i hi
    unfold IsEntry
    rw [stored_set hi.le, stored_meas hi.le]
    exact hnumbers i hi
  have hloads := readEntries_all hentries 0 { t' with adc_cal_points := n }
  dsimp only
  rw [readAdcCalFromEeprom_of_some (stored_storedCount hlo hhi)]
  refine ⟨hloads.points, ?_⟩
  intro i hi
  obtain ⟨hset, hmeas⟩ := hloads.stored i hi
  rw [Nat.zero_add] at hset hmeas
  exact ⟨by rw [hset, stored_set hi.le], by rw [hmeas, stored_meas hi.le]⟩

/-! ## The footprint -/

/-- Storing keeps to the count and the entries exactly when the entry written behind them is there
already. -/
theorem footprint_iff : Footprint m o t n ↔ HeldBehind m o t n := by
  have hset : ∀ i : Fin 4, writeAdcCalToEeprom m o t n
      (ea_adc_nonlinear_comp_start o + n * 8 + i) = t.set_adc n i :=
    fun i => congrFun (stored_set (le_refl n)) i
  have hmeas : ∀ i : Fin 4, writeAdcCalToEeprom m o t n
      (ea_adc_nonlinear_comp_start o + n * 8 + 4 + i) = t.meas_adc n i :=
    fun i => congrFun (stored_meas (le_refl n)) i
  have hstart := start_eq o
  constructor
  · intro h i
    have hkept := h (ea_adc_nonlinear_comp_start o + n * 8 + i) (by omega) (by omega)
    have hkept' := h (ea_adc_nonlinear_comp_start o + n * 8 + 4 + i) (by omega) (by omega)
    exact ⟨by rw [← hkept, hset], by rw [← hkept', hmeas]⟩
  · intro h a hcount hentries
    by_cases hbehind : ea_adc_nonlinear_comp_start o + n * 8 ≤ a ∧
        a < ea_adc_nonlinear_comp_start o + n * 8 + 8
    · -- the eight bytes of one entry more
      by_cases hlow : a < ea_adc_nonlinear_comp_start o + n * 8 + 4
      · obtain ⟨i, hi⟩ : ∃ i : Fin 4, a = ea_adc_nonlinear_comp_start o + n * 8 + i :=
          ⟨⟨a - (ea_adc_nonlinear_comp_start o + n * 8), by omega⟩, by simp only; omega⟩
        rw [hi, hset, (h i).1]
      · obtain ⟨i, hi⟩ : ∃ i : Fin 4, a = ea_adc_nonlinear_comp_start o + n * 8 + 4 + i :=
          ⟨⟨a - (ea_adc_nonlinear_comp_start o + n * 8 + 4), by omega⟩, by simp only; omega⟩
        rw [hi, hmeas, (h i).2]
    · -- neither the count, nor an entry, nor the one behind them
      exact writeAdcCalToEeprom_outside (by omega)

/-- Storing and loading brings back every table of 10 to 200 pairs of numbers; that storing also keeps
to the bytes of the count and the entries holds exactly when the entry written behind them is there
already. -/
theorem roundTrip_and_footprint_iff (m : ℕ → UInt8) (o : OperationType) (t : NonlinearTable) (n : ℕ)
    (hlo : 10 ≤ n) (hhi : n ≤ 200) (hnumbers : Numbers t n) :
    RoundTrip m o t n ∧ Footprint m o t n ↔ HeldBehind m o t n := by
  rw [footprint_iff]
  constructor
  · rintro ⟨-, hheld⟩
    exact hheld
  · intro hheld
    exact ⟨roundTrip m o hlo hhi hnumbers, hheld⟩

end Stored

theorem numbers_erased (n : ℕ) : Numbers erased n := by
  have hzero : isnan (fun _ => 0) = false := by decide +kernel
  intro i _
  exact ⟨hzero, hzero⟩

/-- Points from 8 on, each followed by its reading a little above it. -/
def ramp : NonlinearTable where
  set_adc := fun i => [0, 0, UInt8.ofNat (8 * i), 0x41].get
  meas_adc := fun i => [UInt8.ofNat (i + 1), 0x20, UInt8.ofNat (8 * i), 0x41].get
  adc_cal_points := 0
  useCalibratedValues := true

theorem numbers_ramp : Numbers ramp 10 := by
  unfold Numbers
  decide +kernel

/-- An EEPROM in which the ramp has been stored before. -/
def storedBefore : ℕ → UInt8 := writeAdcCalToEeprom (fun _ => 0xFF) .SOURCE_VOLTAGE ramp 10

/-- Ten points stored again, where they and the one behind them are already. -/
theorem roundTrip_and_footprint_ramp :
    RoundTrip storedBefore .SOURCE_VOLTAGE ramp 10 ∧
      Footprint storedBefore .SOURCE_VOLTAGE ramp 10 :=
  (roundTrip_and_footprint_iff _ _ _ _ (by decide) (by decide) numbers_ramp).2
    (by unfold HeldBehind; decide +kernel)

/-- Ten zeros stored in an empty EEPROM: the eight bytes behind them are overwritten too. -/
theorem not_footprint :
    ¬ ∀ m o t n, 10 ≤ n → n ≤ 200 → Numbers t n → RoundTrip m o t n ∧ Footprint m o t n := by
  intro h
  have hfootprint :=
    (h (fun _ => 0xFF) .SOURCE_VOLTAGE erased 10 (by decide) (by decide) (numbers_erased 10)).2
  have hbyte := (footprint_iff.1 hfootprint 0).1
  revert hbyte
  decide +kernel

end CalStore
end PoorMansSmu
