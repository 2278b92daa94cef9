import PoorMansSmu.AutoCal

/-!
# CalTables — the tables of the nonlinear calibration and the indices used on them

`set_adc` and `meas_adc` of a `CalibrationClass` object are loaded from the EEPROM at power-up, are
rewritten by automatic calibrations, and are read by five loops that all go by `adc_cal_points`.  Each
function is given with the list of the indices it uses, in order.

Not a number is `none`.  An infinity is decoded as the number its bits stand for, which compares with
every other number as the infinity does.
-/

namespace PoorMansSmu
namespace CalTables

open EepromMap AutoCal Run

/-! ## Loading -/

/-- The number that four bytes stand for, least significant byte first. -/
def floatOfBytes (f : FloatBytes) : Option ℚ :=
  let bits : ℕ := (f 0).toNat + 256 * (f 1).toNat + 65536 * (f 2).toNat + 16777216 * (f 3).toNat
  let fraction : ℕ := bits % 2 ^ 23
  let exponent : ℕ := bits / 2 ^ 23 % 256
  let magnitude : ℚ :=
    if exponent = 0 then fraction / 2 ^ 149
    else if exponent < 150 then (2 ^ 23 + fraction : ℕ) / 2 ^ (150 - exponent)
    else (2 ^ 23 + fraction : ℕ) * 2 ^ (exponent - 150)
  if exponent = 255 ∧ fraction ≠ 0 then none
  else if bits / 2 ^ 31 = 1 then some (-magnitude)
  else some magnitude

def floatFromEeprom (m : ℕ → UInt8) (address : ℕ) : Option ℚ :=
  floatOfBytes fun i => m (address + i)

structure Tables where
  set_adc : ℕ → ℚ := fun _ => 0
  meas_adc : ℕ → ℚ := fun _ => 0
  adc_cal_points : ℕ := 0

/-- The loop of `readAdcCalFromEeprom`, which stops at a number that is none.  Each entry read is
stored in both tables. -/
def readEntries (m : ℕ → UInt8) : (n adr dataPtr : ℕ) → Tables → Tables × List ℤ
  | 0, _, _, t => (t, [])
  | n + 1, adr, dataPtr, t =>
      match floatFromEeprom m adr, floatFromEeprom m (adr + 4) with
      | some set, some meas =>
          let t := { t with
            set_adc := Function.update t.set_adc dataPtr set
            meas_adc := Function.update t.meas_adc dataPtr meas }
          let (t, indices) := readEntries m n (adr + 8) (dataPtr + 1) t
          (t, dataPtr :: dataPtr :: indices)
      | _, _ => (t, [])

def readAdcCalFromEeprom (m : ℕ → UInt8) (o : OperationType) : Tables × List ℤ :=
  match floatFromEeprom m (ea_adc_nonlinear_comp_nr o) with
  | none => ({}, [])
  | some nr =>
      if nr < 10 ∨ nr > 1000 then ({}, [])
      else
        let nrOfPoints := (truncate nr).toNat
        readEntries m nrOfPoints (ea_adc_nonlinear_comp_start o) 0 { adc_cal_points := nrOfPoints }

/-! ## Use -/

/-- `writeAdcCalToEeprom` compares addresses with `<=`. -/
def writeAdcCalToEeprom (nrOfPoints : ℕ) : List ℤ :=
  (List.range (nrOfPoints + 1)).flatMap fun i : ℕ => [(i : ℤ), (i : ℤ)]

/-- The loop of `adc_nonlinear_compensation`, from index `i` on: the compensated value, and the
indices used. -/
def compensationLoop (c : CalibrationObject) (v : ℚ) : (n i : ℕ) → ℚ × List ℤ
  | 0, _ => (v, [])
  | n + 1, i =>
      if v > c.set_adc i then
        if v ≤ c.set_adc (i + 1) then
          let adj_factor_low := c.set_adc i - c.meas_adc i
          let adj_factor_high := c.set_adc (i + 1) - c.meas_adc (i + 1)
          let adj_factor_diff := adj_factor_high - adj_factor_low
          let range := c.set_adc (i + 1) - c.set_adc i
          let partWithinRange := (v - c.set_adc i) / range
          (v + (adj_factor_low + adj_factor_diff * partWithinRange),
            [(i : ℤ), (i : ℤ) + 1, (i : ℤ), (i : ℤ) + 1])
        else
          let (v, indices) := compensationLoop c v n (i + 1)
          (v, (i : ℤ) :: ((i : ℤ) + 1) :: indices)
      else
        let (v, indices) := compensationLoop c v n (i + 1)
        (v, (i : ℤ) :: indices)

def adc_nonlinear_compensation (c : CalibrationObject) (v : ℚ) : ℚ × List ℤ :=
  if c.useCalibratedValues = false then (v, []) else compensationLoop c v (c.adc_cal_points - 1) 0

/-- The values printed are left out. -/
def printNonlinearValues (c : CalibrationObject) : List ℤ :=
  (List.range c.adc_cal_points).flatMap fun i : ℕ => [(i : ℤ), (i : ℤ)]

/-- What is drawn is left out: the ends of the tables, the graph, the axis. -/
def renderCal2 (c : CalibrationObject) (reduceDetails : Bool) : List ℤ :=
  let ends : List ℤ := [(c.adc_cal_points : ℤ) - 1, 0, (c.adc_cal_points : ℤ) - 1]
  let graph : List ℤ :=
    if reduceDetails = false then
      (List.range c.adc_cal_points).flatMap fun i : ℕ => [(i : ℤ), (i : ℤ), (i : ℤ)]
    else []
  let axis : List ℤ :=
    if reduceDetails = false then (List.range c.adc_cal_points).map Int.ofNat else []
  ends ++ graph ++ axis

/-! ## Runs -/

/-- What can happen to the tables after power-up. -/
inductive Event
  /-- An automatic calibration is started or goes on. -/
  | autoCal (e : AutoCal.Event)
  /-- A button or the null calibration sets `useCalibratedValues`. -/
  | setUseCalibratedValues (o : OperationType) (use : Bool)
  | adc_nonlinear_compensation (o : OperationType) (v : ℚ)
  | printNonlinearValues (o : OperationType)
  | renderCal2 (o : OperationType) (reduceDetails : Bool)

def setUseCalibratedValues (s : State) (o : OperationType) (use : Bool) : State :=
  { s with
    objects := Function.update s.objects o { s.objects o with useCalibratedValues := use } }

def step (s : State) : Event → State
  | .autoCal e => AutoCal.step s e
  | .setUseCalibratedValues o use => setUseCalibratedValues s o use
  | .adc_nonlinear_compensation _ _ => s
  | .printNonlinearValues _ => s
  | .renderCal2 _ _ => s

/-- The indices a step of an automatic calibration uses: a set value is stored, a measured value is
stored, and the tables are written to the EEPROM when the run completes. -/
def autoCalIndices (s : State) (o : OperationType) (millis : ℕ) : List ℤ :=
  if InProgress s o then
    (if CommitDue s millis then [(s.autoCalArrayPointer : ℤ)] else []) ++
      if RecordDue s millis then
        (s.autoCalArrayPointer : ℤ) ::
          if s.autoCalV + s.stepValueCal > s.maxValueCal then
            writeAdcCalToEeprom (s.autoCalArrayPointer + 1)
          else []
      else []
  else []

/-- The indices an event uses. -/
def indices (s : State) : Event → List ℤ
  | .autoCal (.startAutoCal _ _) => []
  | .autoCal (.autoCalADCfromDAC o millis _) => autoCalIndices s o millis
  | .setUseCalibratedValues _ _ => []
  | .adc_nonlinear_compensation o v =>
      (CalTables.adc_nonlinear_compensation (s.objects o) v).2
  | .printNonlinearValues o => CalTables.printNonlinearValues (s.objects o)
  | .renderCal2 o reduceDetails => CalTables.renderCal2 (s.objects o) reduceDetails

/-- The state after power-up. -/
def boot (m : ℕ → UInt8) (millis : ℕ) : State :=
  AutoCal.boot millis (fun o => (readAdcCalFromEeprom m o).1.set_adc)
    (fun o => (readAdcCalFromEeprom m o).1.meas_adc)
    (fun o => (readAdcCalFromEeprom m o).1.adc_cal_points)

/-- The two tables have 200 entries. -/
def Inside (indices : List ℤ) : Prop := ∀ i ∈ indices, 0 ≤ i ∧ i < 200

/-- Loading, and every event of every run after it, uses indices inside the tables. -/
def AllInside (m : ℕ → UInt8) (millis : ℕ) : Prop :=
  (∀ o, Inside (readAdcCalFromEeprom m o).2) ∧
    ∀ es, Guarded step (fun s e => Inside (indices s e)) (boot m millis) es

/-- The number of entries is stored, and neither too small for loading nor too large for the
tables. -/
def CountFits (m : ℕ → UInt8) (o : OperationType) : Prop :=
  match floatFromEeprom m (ea_adc_nonlinear_comp_nr o) with
  | some nr => 10 ≤ nr ∧ nr < 201
  | none => False

/-! ## Loading stays inside -/

theorem Inside.nil : Inside [] := nofun

theorem Inside.cons {i : ℤ} {indices : List ℤ} (hi : 0 ≤ i ∧ i < 200) (h : Inside indices) :
    Inside (i :: indices) := by
  intro j hj
  rcases List.mem_cons.1 hj with rfl | hj
  · exact hi
  · exact h j hj

theorem Inside.append {is js : List ℤ} (hi : Inside is) (hj : Inside js) : Inside (is ++ js) := by
  intro i h
  rcases List.mem_append.1 h with h | h
  · exact hi i h
  · exact hj i h

/-- A loop from 0 on that uses nothing but its index. -/
theorem inside_flatMap_range {n : ℕ} (hn : n ≤ 200) {f : ℕ → List ℤ}
    (hf : ∀ i : ℕ, ∀ j ∈ f i, j = (i : ℤ)) : Inside ((List.range n).flatMap f) := by
  intro j hj
  obtain ⟨i, hi, hj⟩ := List.mem_flatMap.1 hj
  have hlt := List.mem_range.1 hi
  have heq := hf i j hj
  omega

theorem readEntries_points (m : ℕ → UInt8) (n adr dataPtr : ℕ) (t : Tables) :
    (readEntries m n adr dataPtr t).1.adc_cal_points = t.adc_cal_points := by
  induction n generalizing adr dataPtr t with
  | zero => rfl
  | succ n ih =>
      unfold readEntries
      split
      · exact ih _ _ _
      · rfl

theorem readEntries_inside (m : ℕ → UInt8) (n adr dataPtr : ℕ) (t : Tables)
    (hn : dataPtr + n ≤ 200) : Inside (readEntries m n adr dataPtr t).2 := by
  induction n generalizing adr dataPtr t with
  | zero => exact Inside.nil
  | succ n ih =>
      have hptr : (0 : ℤ) ≤ dataPtr ∧ (dataPtr : ℤ) < 200 := by omega
      unfold readEntries
      split
      · exact (ih _ _ _ (by omega)).cons hptr |>.cons hptr
      · exact Inside.nil

theorem truncate_toNat {x : ℚ} (hx : 0 ≤ x) : (truncate x).toNat = ⌊x⌋₊ := by
  unfold truncate
  rw [if_neg (not_lt.2 hx)]
  exact Int.floor_toNat x

/-- The number of points after loading. -/
theorem loaded_points (m : ℕ → UInt8) (o : OperationType) :
    CountFits m o ↔ 1 ≤ (readAdcCalFromEeprom m o).1.adc_cal_points ∧
      (readAdcCalFromEeprom m o).1.adc_cal_points ≤ 200 := by
  unfold CountFits readAdcCalFromEeprom
  cases floatFromEeprom m (ea_adc_nonlinear_comp_nr o) with
  | none => simp
  | some nr =>
      simp only
      split_ifs with hsuspect
      · simp only [nonpos_iff_eq_zero, one_ne_zero, false_and, iff_false, not_and, not_lt]
        intro hlo
        rcases hsuspect with h | h
        · linarith
        · linarith
      · obtain ⟨hlo, hhi⟩ := not_or.1 hsuspect
        have hpos : 0 ≤ nr := by linarith
        rw [readEntries_points, truncate_toNat hpos]
        -- the count is cut to a whole number before it is used
        have hfloor : ⌊nr⌋₊ ≤ 200 ↔ nr < 201 := by
          rw [← Nat.lt_succ_iff, Nat.floor_lt hpos]
          norm_num
        rw [hfloor, Nat.one_le_floor_iff]
        exact ⟨fun h => ⟨by linarith, h.2⟩, fun h => ⟨by linarith, h.2⟩⟩

theorem readAdcCalFromEeprom_inside {m : ℕ → UInt8} {o : OperationType} (h : CountFits m o) :
    Inside (readAdcCalFromEeprom m o).2 := by
  unfold CountFits at h
  unfold readAdcCalFromEeprom
  cases hnr : floatFromEeprom m (ea_adc_nonlinear_comp_nr o) with
  | none => exact Inside.nil
  | some nr =>
      rw [hnr] at h
      simp only
      split_ifs with hsuspect
      · exact Inside.nil
      · have hpos : 0 ≤ nr := by linarith [h.1]
        have hfloor : ⌊nr⌋₊ < 201 := (Nat.floor_lt hpos).2 (by exact_mod_cast h.2)
        refine readEntries_inside m _ _ 0 _ ?_
        rw [truncate_toNat hpos]
        omega

/-! ## Use stays inside -/

theorem writeAdcCalToEeprom_inside {n : ℕ} (hn : n < 200) : Inside (writeAdcCalToEeprom n) := by
  refine inside_flatMap_range hn ?_
  intro i j hj
  simpa using hj

theorem printNonlinearValues_inside {c : CalibrationObject} (hhi : c.adc_cal_points ≤ 200) :
    Inside (printNonlinearValues c) := by
  refine inside_flatMap_range hhi ?_
  intro i j hj
  simpa using hj

theorem compensationLoop_inside (c : CalibrationObject) (v : ℚ) (n i : ℕ) (hn : i + n < 200) :
    Inside (compensationLoop c v n i).2 := by
  induction n generalizing i with
  | zero => exact Inside.nil
  | succ n ih =>
      have hi : (0 : ℤ) ≤ i ∧ (i : ℤ) < 200 := by omega
      have hnext : (0 : ℤ) ≤ (i : ℤ) + 1 ∧ (i : ℤ) + 1 < 200 := by omega
      unfold compensationLoop
      -- the entry after the current one is looked at only when the value is above this one
      split_ifs
      · exact (((Inside.nil.cons hnext).cons hi).cons hnext).cons hi
      · exact ((ih _ (by omega)).cons hnext).cons hi
      · exact (ih _ (by omega)).cons hi

section Use

variable {c : CalibrationObject} (hlo : 1 ≤ c.adc_cal_points) (hhi : c.adc_cal_points ≤ 200)

include hlo hhi

theorem adc_nonlinear_compensation_inside (v : ℚ) :
    Inside (adc_nonlinear_compensation c v).2 := by
  unfold adc_nonlinear_compensation
  split_ifs
  · exact Inside.nil
  · exact compensationLoop_inside c v _ 0 (by omega)

theorem renderCal2_inside (reduceDetails : Bool) : Inside (renderCal2 c reduceDetails) := by
  have hlast : (0 : ℤ) ≤ (c.adc_cal_points : ℤ) - 1 ∧ (c.adc_cal_points : ℤ) - 1 < 200 := by omega
  have hends : Inside [(c.adc_cal_points : ℤ) - 1, 0, (c.adc_cal_points : ℤ) - 1] :=
    ((Inside.nil.cons hlast).cons (by omega)).cons hlast
  unfold renderCal2
  split_ifs
  · refine (hends.append (inside_flatMap_range hhi ?_)).append ?_
    · intro i j hj
      simpa using hj
    intro j hj
    obtain ⟨i, hi, rfl⟩ := List.mem_map.1 hj
    have hlt := List.mem_range.1 hi
    exact ⟨Int.natCast_nonneg i, by simp only [Int.ofNat_eq_natCast]; omega⟩
  · exact (hends.append Inside.nil).append Inside.nil

end Use

/-- Without points the last one has the index -1, and beyond 200 points it is outside too. -/
theorem not_renderCal2_inside {c : CalibrationObject} (reduceDetails : Bool)
    (h : ¬ (1 ≤ c.adc_cal_points ∧ c.adc_cal_points ≤ 200)) :
    ¬ Inside (renderCal2 c reduceDetails) := by
  intro hin
  have hlast := hin ((c.adc_cal_points : ℤ) - 1) (by simp [renderCal2])
  omega

/-! ## The number of points in a run -/

/-- Every object has points, and not too many. -/
structure PointsInv (s : State) : Prop where
  counts : CountInv s
  points : ∀ o, 1 ≤ (s.objects o).adc_cal_points ∧ (s.objects o).adc_cal_points ≤ 200

theorem sweepLength_of_sweepIs {s : State} {o : OperationType} (h : SweepIs s o) :
    sweepLength s.minValueCal s.maxValueCal s.stepValueCal = (sweep o).count := by
  obtain ⟨hmin, hmax, hstep⟩ := h
  rw [hmin, hmax, hstep]
  cases o with
  | SOURCE_VOLTAGE => decide +kernel
  | SOURCE_CURRENT => decide +kernel

/-- A started run goes by the sweep of one of the objects. -/
theorem chooseSweep_is {s : State} (hs : CountInv s) (o : OperationType) :
    ∃ o', SweepIs (chooseSweep s o) o' := by
  cases o with
  | SOURCE_VOLTAGE =>
      rw [chooseSweep_voltage]
      rcases hs.phase with ⟨hsweep, -⟩ | ⟨hsweep, -⟩
      · exact ⟨_, hsweep⟩
      · exact ⟨_, hsweep⟩
  | SOURCE_CURRENT => exact ⟨_, chooseSweep_current s⟩

theorem startAutoCal_points {s : State} (hs : PointsInv s) (o : OperationType) (millis : ℕ)
    (o' : OperationType) :
    1 ≤ ((startAutoCal s o millis).objects o').adc_cal_points ∧
      ((startAutoCal s o millis).objects o').adc_cal_points ≤ 200 := by
  have hobjects : (chooseSweep s o).objects = s.objects := by
    unfold chooseSweep
    split_ifs <;> rfl
  obtain ⟨w, hsweep⟩ := chooseSweep_is hs.counts o
  have hlength := sweepLength_of_sweepIs hsweep
  have hcount : 1 ≤ (sweep w).count ∧ (sweep w).count ≤ 200 := by cases w <;> decide
  unfold startAutoCal
  simp only
  split_ifs
  · unfold beginRun
    by_cases ho : o' = o
    · subst ho
      simp only [Function.update_self]
      rw [hlength]
      exact hcount
    · simp only [Function.update_of_ne ho]
      rw [hobjects]
      exact hs.points o'
  · rw [hobjects]
    exact hs.points o'

/-- In a run the pointer never goes beyond the 34th point. -/
theorem pointer_le {s : State} (hs : CountInv s) {o : OperationType} (ho : InProgress s o) :
    s.autoCalArrayPointer ≤ 33 := by
  rcases hs.phase with ⟨-, hpoint⟩ | ⟨-, hpoint⟩
  · have hle := (hpoint o ho).2.2
    omega
  · exact (hpoint o ho).2.1

theorem commitPoint_points (s : State) (o o' : OperationType) :
    ((commitPoint s o).objects o').adc_cal_points = (s.objects o').adc_cal_points := by
  by_cases ho : o' = o
  · subst ho
    simp [commitPoint]
  · simp [commitPoint, ho]

theorem recordPoint_points (s : State) (o o' : OperationType) (mean : ℚ) (timer : ℤ) :
    ((recordPoint s o mean timer).objects o').adc_cal_points = (s.objects o').adc_cal_points ∨
      ((recordPoint s o mean timer).objects o').adc_cal_points = s.autoCalArrayPointer + 1 := by
  by_cases hover : s.autoCalV + s.stepValueCal > s.maxValueCal
  · by_cases ho : o' = o
    · subst ho
      exact Or.inr (by simp [recordPoint, hover])
    · exact Or.inl (by simp [recordPoint, hover, ho])
  · refine Or.inl ?_
    by_cases ho : o' = o
    · subst ho
      simp [recordPoint, hover]
    · simp [recordPoint, hover, ho]

/-- A step of a run leaves the number of points, or completes with the points it has come to. -/
theorem autoCalADCfromDAC_points (s : State) (o o' : OperationType) (millis : ℕ) (mean : ℚ) :
    ((autoCalADCfromDAC s o millis mean).objects o').adc_cal_points =
        (s.objects o').adc_cal_points ∨
      InProgress s o ∧ ((autoCalADCfromDAC s o millis mean).objects o').adc_cal_points =
        s.autoCalArrayPointer + 1 := by
  by_cases hrun : InProgress s o
  · have hbusy : ¬ (s.objects o).autoCalInProgress = false := by simpa [InProgress] using hrun
    -- whatever is done before, noting a value is the only way to another number of points
    have hrecord : ∀ s₁ : State, s₁.autoCalArrayPointer = s.autoCalArrayPointer →
        (s₁.objects o').adc_cal_points = (s.objects o').adc_cal_points →
        ∀ s₂ : State, s₂ = s₁ ∨ s₂ = recordPoint s₁ o mean (wrap32 millis) →
        (s₂.objects o').adc_cal_points = (s.objects o').adc_cal_points ∨
          InProgress s o ∧ (s₂.objects o').adc_cal_points = s.autoCalArrayPointer + 1 := by
      intro s₁ hpointer hpoints s₂ hs₂
      rcases hs₂ with rfl | rfl
      · exact Or.inl hpoints
      · rcases recordPoint_points s₁ o o' mean (wrap32 millis) with h | h
        · exact Or.inl (h.trans hpoints)
        · exact Or.inr ⟨hrun, by rw [h, hpointer]⟩
    rw [autoCalADCfromDAC, if_neg hbusy]
    by_cases hcommit : CommitDue s millis
    · rw [if_pos hcommit]
      refine hrecord (commitPoint s o) rfl (commitPoint_points s o o') _ ?_
      by_cases hdue : RecordDue (commitPoint s o) millis
      · exact Or.inr (if_pos hdue)
      · exact Or.inl (if_neg hdue)
    · rw [if_neg hcommit]
      refine hrecord s rfl rfl _ ?_
      by_cases hdue : RecordDue s millis
      · exact Or.inr (if_pos hdue)
      · exact Or.inl (if_neg hdue)
  · rw [autoCalADCfromDAC_of_idle s o millis mean hrun]
    exact Or.inl rfl

/-- Which values are compensated has nothing to do with the runs. -/
theorem setUseCalibratedValues_countInv {s : State} (hs : CountInv s) (o : OperationType)
    (use : Bool) : CountInv (setUseCalibratedValues s o use) := by
  have hrun : ∀ o', InProgress (setUseCalibratedValues s o use) o' ↔ InProgress s o' := by
    intro o'
    by_cases ho : o' = o
    · subst ho
      simp [InProgress, setUseCalibratedValues]
    · simp [InProgress, setUseCalibratedValues, ho]
  refine ⟨hs.counts, ?_⟩
  simp only [hrun]
  exact hs.phase

theorem step_pointsInv {s : State} (hs : PointsInv s) (e : Event) : PointsInv (step s e) := by
  cases e with
  | autoCal e =>
      refine ⟨step_countInv s e hs.counts, ?_⟩
      cases e with
      | startAutoCal o millis => exact startAutoCal_points hs o millis
      | autoCalADCfromDAC o millis mean =>
          intro o'
          rcases autoCalADCfromDAC_points s o o' millis mean with h | ⟨hrun, h⟩
          · simp only [step, AutoCal.step]
            rw [h]
            exact hs.points o'
          · have hle := pointer_le hs.counts hrun
            simp only [step, AutoCal.step]
            omega
  | setUseCalibratedValues o use =>
      refine ⟨setUseCalibratedValues_countInv hs.counts o use, ?_⟩
      intro o'
      have hsame : ((setUseCalibratedValues s o use).objects o').adc_cal_points =
          (s.objects o').adc_cal_points := by
        by_cases ho : o' = o
        · subst ho
          simp [setUseCalibratedValues]
        · simp [setUseCalibratedValues, ho]
      simp only [step]
      rw [hsame]
      exact hs.points o'
  | adc_nonlinear_compensation o v => exact hs
  | printNonlinearValues o => exact hs
  | renderCal2 o reduceDetails => exact hs

/-- What an event uses is inside the tables. -/
theorem indices_inside {s : State} (hs : PointsInv s) (e : Event) : Inside (indices s e) := by
  cases e with
  | autoCal e =>
      cases e with
      | startAutoCal o millis => exact Inside.nil
      | autoCalADCfromDAC o millis mean =>
          simp only [indices, autoCalIndices]
          by_cases hrun : InProgress s o
          · have hle := pointer_le hs.counts hrun
            have hptr : (0 : ℤ) ≤ s.autoCalArrayPointer ∧ (s.autoCalArrayPointer : ℤ) < 200 := by
              omega
            rw [if_pos hrun]
            refine Inside.append ?_ ?_
            · split_ifs
              · exact Inside.nil.cons hptr
              · exact Inside.nil
            · split_ifs
              · exact (writeAdcCalToEeprom_inside (by omega)).cons hptr
              · exact Inside.nil.cons hptr
              · exact Inside.nil
          · rw [if_neg hrun]
            exact Inside.nil
  | setUseCalibratedValues o use => exact Inside.nil
  | adc_nonlinear_compensation o v =>
      exact adc_nonlinear_compensation_inside (hs.points o).1 (hs.points o).2 v
  | printNonlinearValues o => exact printNonlinearValues_inside (hs.points o).2
  | renderCal2 o reduceDetails => exact renderCal2_inside (hs.points o).1 (hs.points o).2 _

/-- For every content of the EEPROM, all indices used by loading and in every run after it are inside
the tables exactly if both objects find a number of entries that fits. -/
theorem allInside_iff (m : ℕ → UInt8) (millis : ℕ) :
    AllInside m millis ↔ ∀ o, CountFits m o := by
  have hboot : ∀ o, ((boot m millis).objects o).adc_cal_points =
      (readAdcCalFromEeprom m o).1.adc_cal_points := fun _ => rfl
  refine ⟨?_, ?_⟩
  · intro h o
    -- drawing the calibration right after power-up uses the last point
    have hrender : Inside (renderCal2 ((boot m millis).objects o) true) :=
      (h.2 [.renderCal2 o true]).1
    by_contra hfits
    rw [loaded_points, ← hboot] at hfits
    exact not_renderCal2_inside true hfits hrender
  · intro h
    have hinv : PointsInv (boot m millis) := by
      refine ⟨boot_countInv _ _ _ _, ?_⟩
      intro o
      rw [hboot]
      exact (loaded_points m o).1 (h o)
    exact ⟨fun o => readAdcCalFromEeprom_inside (h o),
      guarded_of_step (fun s e hs => step_pointsInv hs e) (fun s e hs => indices_inside hs e) hinv⟩

/-- Once both objects have completed a calibration, the numbers they have written fit. -/
theorem countFits_of_written {m : ℕ → UInt8} {n : OperationType → ℕ} (hn : ∀ o, AutoCalCount o (n o))
    (hm : ∀ o, (fun i : Fin 4 => m (ea_adc_nonlinear_comp_nr o + i)) = floatOfCount (n o)) :
    ∀ o, CountFits m o := by
  have hread : ∀ k ∈ [21, 33, 34], floatOfBytes (floatOfCount k) = some (k : ℚ) := by
    decide +kernel
  intro o
  have hcases : n o ∈ [21, 33, 34] := by
    have hcount := hn o
    cases o with
    | SOURCE_VOLTAGE => rcases hcount with h | h | h <;> simp [h]
    | SOURCE_CURRENT => rcases hcount with h | h <;> simp [h]
  have hbounds : 10 ≤ n o ∧ n o < 201 := by
    simp only [List.mem_cons, List.not_mem_nil, or_false] at hcases
    omega
  unfold CountFits floatFromEeprom
  rw [hm o, hread _ hcases]
  exact ⟨by exact_mod_cast hbounds.1, by exact_mod_cast hbounds.2⟩

/-- An erased EEPROM, as a new board has it. -/
theorem erased_draws_outside : ¬ AllInside (fun _ => 0xFF) 0 := by
  intro h
  have hrender : Inside (renderCal2 ((boot (fun _ => 0xFF) 0).objects .SOURCE_VOLTAGE) true) :=
    (h.2 [.renderCal2 .SOURCE_VOLTAGE true]).1
  exact not_renderCal2_inside true (by decide +kernel) hrender

end CalTables
end PoorMansSmu
