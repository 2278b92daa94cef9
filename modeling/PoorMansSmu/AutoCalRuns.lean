import PoorMansSmu.AutoCal

/-!
# AutoCalRuns — what a run of the automatic calibration records

Two properties of a run: every pair is noted while its own set value is the last one committed, and
a run completes with the points of its own sweep.  Both fail where the shared globals are not what
the start of a run or one of its steps takes them to be; here the moments at which that matters are
named, and in every interleaving that avoids them the properties hold.
-/

namespace PoorMansSmu
namespace AutoCal

open EepromMap Run

/-! ## One run at a time -/

/-- No object is in the middle of a run. -/
def Idle (s : State) : Prop := ∀ o, ¬ InProgress s o

/-- At most one object is in the middle of a run. -/
def Alone (s : State) : Prop := ∀ o o', InProgress s o → InProgress s o' → o = o'

theorem idle_iff (s : State) :
    Idle s ↔ ¬ InProgress s .SOURCE_VOLTAGE ∧ ¬ InProgress s .SOURCE_CURRENT := by
  refine ⟨fun h => ⟨h _, h _⟩, fun h o => ?_⟩
  cases o with
  | SOURCE_VOLTAGE => exact h.1
  | SOURCE_CURRENT => exact h.2

instance (s : State) : Decidable (Idle s) := decidable_of_iff' _ (idle_iff s)

/-- What `chooseSweep` leaves alone. -/
theorem chooseSweep_same (s : State) (o : OperationType) :
    (chooseSweep s o).objects = s.objects ∧ (chooseSweep s o).autoCalDone1 = s.autoCalDone1 ∧
      (chooseSweep s o).autoCalV = s.autoCalV ∧
      (chooseSweep s o).autoCalArrayPointer = s.autoCalArrayPointer ∧
      (chooseSweep s o).committed = s.committed ∧ (chooseSweep s o).recorded = s.recorded ∧
      (chooseSweep s o).completed = s.completed := by
  unfold chooseSweep
  split_ifs <;> exact ⟨rfl, rfl, rfl, rfl, rfl, rfl, rfl⟩

theorem inProgress_chooseSweep (s : State) (o o' : OperationType) :
    InProgress (chooseSweep s o) o' ↔ InProgress s o' := by
  rw [InProgress, (chooseSweep_same s o).1]
  exact Iff.rfl

theorem alone_chooseSweep {s : State} (o : OperationType) (hs : Alone s) :
    Alone (chooseSweep s o) := by
  intro o₁ o₂ h₁ h₂
  exact hs o₁ o₂ ((inProgress_chooseSweep s o o₁).1 h₁) ((inProgress_chooseSweep s o o₂).1 h₂)

/-- A run started when there is none is the only one. -/
theorem Started.eq_of_idle {s s' : State} {o : OperationType} (h : Started s s' o) (hs : Idle s)
    {o' : OperationType} (ho' : InProgress s' o') : o' = o := by
  by_contra hne
  have hsame := h.others o' hne
  exact hs o' (by rwa [InProgress, hsame] at ho')

theorem Started.alone {s s' : State} {o : OperationType} (h : Started s s' o) (hs : Idle s) :
    Alone s' := by
  intro o₁ o₂ h₁ h₂
  exact (h.eq_of_idle hs h₁).trans (h.eq_of_idle hs h₂).symm

theorem CommittedPoint.alone {s s' : State} {o : OperationType} (h : CommittedPoint s s' o)
    (hs : Alone s) : Alone s' := by
  intro o₁ o₂ h₁ h₂
  exact hs o₁ o₂ ((h.inProgress o₁).1 h₁) ((h.inProgress o₂).1 h₂)

theorem RecordedPoint.alone {s s' : State} {o : OperationType} {mean : ℚ}
    (h : RecordedPoint s s' o mean) (hs : Alone s) : Alone s' := by
  intro o₁ o₂ h₁ h₂
  exact hs o₁ o₂ ((h.inProgress o₁).1 h₁).1 ((h.inProgress o₂).1 h₂).1

/-- An object still in progress after a point of `o` is `o`, and its sweep was not over. -/
theorem RecordedPoint.goes_on {s s' : State} {o : OperationType} {mean : ℚ}
    (h : RecordedPoint s s' o mean) (hs : Alone s) (ho : InProgress s o) {o' : OperationType}
    (ho' : InProgress s' o') : o' = o ∧ ¬ Over s := by
  obtain ⟨hold, hnot⟩ := (h.inProgress o').1 ho'
  have heq : o' = o := hs o' o hold ho
  exact ⟨heq, fun hover => hnot ⟨heq, hover⟩⟩

/-! ## The pairs that are recorded -/

/-- The pair was noted while the last value committed was its set value, committed by the run that
notes it and written by that run. -/
def Recorded.Good (r : Recorded) : Prop :=
  r.committed = some ⟨r.object, r.run, truncate (r.set * 1000)⟩ ∧ r.setRun = r.run

instance (r : Recorded) : Decidable r.Good := inferInstanceAs (Decidable (_ ∧ _))

/-- Every pair recorded so far is as it should be. -/
def PairsGood (s : State) : Prop := ∀ r ∈ s.recorded, r.Good

instance (s : State) : Decidable (PairsGood s) :=
  inferInstanceAs (Decidable (∀ r ∈ s.recorded, r.Good))

/-- A run is started only when there is none and the phase flag is clear, which it is until the first
run completes; and no step notes a value without the value having been committed. -/
def PairOk (s : State) : Event → Prop
  | .startAutoCal o _ => InProgress s o ∨ Idle s ∧ s.autoCalDone1 = false
  | .autoCalADCfromDAC o millis _ =>
      InProgress s o → s.autoCalDone1 = false → RecordDue s millis → CommitDue s millis

instance (s : State) (e : Event) : Decidable (PairOk s e) :=
  match e with
  | .startAutoCal _ _ => inferInstanceAs (Decidable (_ ∨ _ ∧ _))
  | .autoCalADCfromDAC _ _ _ => inferInstanceAs (Decidable (_ → _ → _ → _))

/-- The phase flag means what it says: the current point of the run in progress is the value that
was committed last. -/
structure PairInv (s : State) : Prop where
  alone : Alone s
  fresh : ∀ o, InProgress s o → s.autoCalDone1 = true →
    s.committed = some ⟨o, (s.objects o).run,
      truncate ((s.objects o).set_adc s.autoCalArrayPointer * 1000)⟩ ∧
    (s.objects o).setRun s.autoCalArrayPointer = (s.objects o).run
  good : PairsGood s

theorem pairInv_chooseSweep {s : State} (o : OperationType) (hs : PairInv s) :
    PairInv (chooseSweep s o) := by
  obtain ⟨hobjects, hdone, -, hpointer, hcommitted, hrecorded, -⟩ := chooseSweep_same s o
  refine ⟨alone_chooseSweep o hs.alone, ?_, ?_⟩
  · intro o' ho'
    rw [hobjects, hdone, hpointer, hcommitted]
    exact hs.fresh o' ((inProgress_chooseSweep s o o').1 ho')
  · intro r hr
    rw [hrecorded] at hr
    exact hs.good r hr

theorem Started.pairInv {s s' : State} {o : OperationType} (h : Started s s' o) (hs : PairInv s)
    (hidle : Idle s) (hdone : s.autoCalDone1 = false) : PairInv s' := by
  refine ⟨h.alone hidle, ?_, ?_⟩
  · intro o' _ hdone'
    rw [h.done1, hdone] at hdone'
    exact absurd hdone' Bool.false_ne_true
  · intro r hr
    rw [h.recorded] at hr
    exact hs.good r hr

theorem CommittedPoint.pairInv {s s' : State} {o : OperationType} (h : CommittedPoint s s' o)
    (hs : PairInv s) (ho : InProgress s o) : PairInv s' := by
  refine ⟨h.alone hs.alone, ?_, ?_⟩
  · intro o' ho' _
    obtain rfl : o' = o := hs.alone o' o ((h.inProgress o').1 ho') ho
    have hset : (s'.objects o').set_adc s'.autoCalArrayPointer = s.autoCalV := by
      rw [h.pointer, h.set_adc, Function.update_self]
    rw [hset, h.committed, h.run, h.pointer]
    exact ⟨rfl, h.setRun⟩
  · intro r hr
    rw [h.recorded] at hr
    exact hs.good r hr

theorem RecordedPoint.pairInv {s s' : State} {o : OperationType} {mean : ℚ}
    (h : RecordedPoint s s' o mean) (hs : PairInv s) (ho : InProgress s o)
    (hdone : s.autoCalDone1 = true) : PairInv s' := by
  refine ⟨h.alone hs.alone, ?_, ?_⟩
  · intro o' ho' hdone'
    have hgoes := h.goes_on hs.alone ho ho'
    rw [h.done1 hgoes.2] at hdone'
    exact absurd hdone' Bool.false_ne_true
  · intro r hr
    rw [h.recorded] at hr
    rcases List.mem_append.1 hr with hr | hr
    · exact hs.good r hr
    · rw [List.mem_singleton.1 hr]
      exact hs.fresh o ho hdone

theorem step_pairInv (s : State) (e : Event) (hs : PairInv s) (hok : PairOk s e) :
    PairInv (step s e) := by
  cases e with
  | startAutoCal o millis =>
      by_cases ho : InProgress s o
      · rw [step, startAutoCal_of_inProgress s o millis ho]
        exact pairInv_chooseSweep o hs
      · obtain ⟨hidle, hdone⟩ := hok.resolve_left ho
        exact (startAutoCal_of_idle s o millis ho).pairInv hs hidle hdone
  | autoCalADCfromDAC o millis mean =>
      apply autoCalADCfromDAC_keeps
        (J := fun s₁ => PairInv s₁ ∧ InProgress s₁ o ∧
          (RecordDue s millis → s₁.autoCalDone1 = true)) hs (fun _ h => h.1)
      · intro ho s₁ hcommit
        exact ⟨hcommit.pairInv hs ho, (hcommit.inProgress o).2 ho, fun _ => hcommit.done1⟩
      · intro ho hnot
        refine ⟨hs, ho, fun hdue => ?_⟩
        -- a clear flag would have made the commit due as well
        by_contra hclear
        exact hnot (hok ho (Bool.eq_false_iff.2 hclear) hdue)
      · intro hdue s₁ s' h hrecord
        exact hrecord.pairInv h.1 h.2.1 (h.2.2 hdue)

section Boot

variable (millis : ℕ) (set_adc meas_adc : OperationType → ℕ → ℚ) (points : OperationType → ℕ)

theorem boot_idle : Idle (boot millis set_adc meas_adc points) :=
  fun _ h => absurd h Bool.false_ne_true

theorem boot_pairInv : PairInv (boot millis set_adc meas_adc points) where
  alone := fun o _ h => absurd h (boot_idle millis set_adc meas_adc points o)
  fresh := fun o h => absurd h (boot_idle millis set_adc meas_adc points o)
  good := by simp [boot, PairsGood]

/-- In every interleaving in which runs are started only while there is none and the phase flag is
clear, and steps find the commit due before the noting, every pair is noted while its own set value
is the last one committed. -/
theorem pairs_good_of_guarded (es : List Event)
    (h : Guarded step PairOk (boot millis set_adc meas_adc points) es) :
    Always step PairsGood (boot millis set_adc meas_adc points) es := by
  have hinv := always_of_guarded step_pairInv (boot_pairInv millis set_adc meas_adc points) h
  exact hinv.mono fun _ hs => hs.good

end Boot

/-- A run of steps of one object, 5001 ms apart: each commits a point and notes it. -/
def steps (o : OperationType) (millis n : ℕ) : List Event :=
  (List.range n).map fun i => .autoCalADCfromDAC o (millis + 5001 * (i + 1)) 0

/-- The state after power-up with empty tables. -/
def blank : State := boot 0 (fun _ _ => 0) (fun _ _ => 0) (fun _ => 0)

/-- The first run of the voltage object records its points as it should. -/
theorem pairs_good_first_run :
    Always step PairsGood blank (.startAutoCal .SOURCE_VOLTAGE 10 :: steps .SOURCE_VOLTAGE 10 21) :=
  pairs_good_of_guarded 0 (fun _ _ => 0) (fun _ _ => 0) (fun _ => 0) _ (by decide +kernel)

/-- The first run leaves the phase flag set.  So the second run notes its first point without having
committed it: the output still has the last point of the first run. -/
theorem second_run_notes_stale_pair :
    ¬ Always step PairsGood blank
      (.startAutoCal .SOURCE_VOLTAGE 10 :: steps .SOURCE_VOLTAGE 10 21 ++
        .startAutoCal .SOURCE_VOLTAGE 200000 :: steps .SOURCE_VOLTAGE 200000 1) := by
  decide +kernel

/-! ## The points a run completes with -/

/-- The run has the points of its object's sweep, in order, and as many as it says. -/
def Completed.Good (c : Completed) : Prop :=
  c.points = (List.range (sweep c.object).count).map (sweep c.object).point ∧
    c.adc_cal_points = (sweep c.object).count

instance (c : Completed) : Decidable c.Good := inferInstanceAs (Decidable (_ ∧ _))

/-- Every run completed so far is as it should be. -/
def SweepsGood (s : State) : Prop := ∀ c ∈ s.completed, c.Good

instance (s : State) : Decidable (SweepsGood s) :=
  inferInstanceAs (Decidable (∀ c ∈ s.completed, c.Good))

/-- A run is started only when there is none, with its own sweep in the globals (for the voltage
object: before the first start of the current object), and with the phase flag clear or with the
first point in the table already; and no step notes a point that was neither written nor in the
table already. -/
def SweepOk (s : State) : Event → Prop
  | .startAutoCal o _ => InProgress s o ∨
      Idle s ∧ (o = .SOURCE_VOLTAGE → SweepIs s .SOURCE_VOLTAGE) ∧
        (s.autoCalDone1 = false ∨ (s.objects o).set_adc 0 = (sweep o).minValue)
  | .autoCalADCfromDAC o millis _ =>
      InProgress s o → s.autoCalDone1 = false → RecordDue s millis →
        CommitDue s millis ∨ (s.objects o).set_adc s.autoCalArrayPointer = s.autoCalV

instance (s : State) (e : Event) : Decidable (SweepOk s e) :=
  match e with
  | .startAutoCal _ _ => inferInstanceAs (Decidable (_ ∨ _ ∧ _ ∧ _))
  | .autoCalADCfromDAC _ _ _ => inferInstanceAs (Decidable (_ → _ → _ → _))

/-- How far a run has come: its points below the pointer are in the table, the current one as well
once the phase flag is set. -/
structure Progress (s : State) (o : OperationType) : Prop where
  sweepIs : SweepIs s o
  autoCalV : s.autoCalV = (sweep o).point s.autoCalArrayPointer
  pointer : s.autoCalArrayPointer < (sweep o).count
  below : ∀ i < s.autoCalArrayPointer, (s.objects o).set_adc i = (sweep o).point i
  current : s.autoCalDone1 = true →
    (s.objects o).set_adc s.autoCalArrayPointer = (sweep o).point s.autoCalArrayPointer

structure SweepInv (s : State) : Prop where
  alone : Alone s
  progress : ∀ o, InProgress s o → Progress s o
  good : SweepsGood s

theorem sweep_count_pos (o : OperationType) : 0 < (sweep o).count := by
  cases o <;> decide

/-- The sweep that a start leaves in the globals is the object's own. -/
theorem sweepIs_chooseSweep {s : State} {o : OperationType}
    (h : o = .SOURCE_VOLTAGE → SweepIs s .SOURCE_VOLTAGE) : SweepIs (chooseSweep s o) o := by
  cases o with
  | SOURCE_VOLTAGE =>
      rw [chooseSweep_voltage]
      exact h rfl
  | SOURCE_CURRENT => exact chooseSweep_current s

theorem Started.sweepInv {s s' : State} {o : OperationType} (h : Started s s' o)
    (hs : SweepInv s) (hidle : Idle s) (hsweep : o = .SOURCE_VOLTAGE → SweepIs s .SOURCE_VOLTAGE)
    (hfirst : s.autoCalDone1 = false ∨ (s.objects o).set_adc 0 = (sweep o).minValue) :
    SweepInv s' := by
  have hown := sweepIs_chooseSweep hsweep
  refine ⟨h.alone hidle, ?_, ?_⟩
  · intro o' ho'
    obtain rfl := h.eq_of_idle hidle ho'
    exact
      { sweepIs := (h.sweepIs o').2 hown
        autoCalV := by rw [h.autoCalV, h.pointer, Sweep.point_zero, hown.1]
        pointer := by
          rw [h.pointer]
          exact sweep_count_pos o'
        below := fun i hi => absurd hi (by rw [h.pointer]; exact Nat.not_lt_zero i)
        current := fun hdone => by
          rw [h.done1] at hdone
          rw [h.pointer, h.set_adc, Sweep.point_zero]
          exact hfirst.resolve_left (by simp [hdone]) }
  · intro c hc
    rw [h.completed] at hc
    exact hs.good c hc

theorem CommittedPoint.sweepInv {s s' : State} {o : OperationType} (h : CommittedPoint s s' o)
    (hs : SweepInv s) (ho : InProgress s o) : SweepInv s' := by
  refine ⟨h.alone hs.alone, ?_, ?_⟩
  · intro o' ho'
    obtain rfl : o' = o := hs.alone o' o ((h.inProgress o').1 ho') ho
    have hold := hs.progress o' ho
    refine ⟨(h.sweepIs o').2 hold.sweepIs, ?_, ?_, ?_, ?_⟩
    · rw [h.autoCalV, h.pointer]
      exact hold.autoCalV
    · rw [h.pointer]
      exact hold.pointer
    · intro i hi
      rw [h.pointer] at hi
      rw [h.set_adc, Function.update_of_ne hi.ne]
      exact hold.below i hi
    · intro _
      rw [h.pointer, h.set_adc, Function.update_self]
      exact hold.autoCalV
  · intro c hc
    rw [h.completed] at hc
    exact hs.good c hc

theorem RecordedPoint.sweepInv {s s' : State} {o : OperationType} {mean : ℚ}
    (h : RecordedPoint s s' o mean) (hs : SweepInv s) (ho : InProgress s o)
    (hpoint : (s.objects o).set_adc s.autoCalArrayPointer = (sweep o).point s.autoCalArrayPointer) :
    SweepInv s' := by
  have hold := hs.progress o ho
  have hover : Over s ↔ (sweep o).count ≤ s.autoCalArrayPointer + 1 :=
    over_iff hold.sweepIs hold.autoCalV
  -- the points up to and including the one just noted
  have hupto : ∀ i < s.autoCalArrayPointer + 1, (s.objects o).set_adc i = (sweep o).point i := by
    intro i hi
    rcases Nat.lt_succ_iff_lt_or_eq.1 hi with hlt | rfl
    · exact hold.below i hlt
    · exact hpoint
  refine ⟨h.alone hs.alone, ?_, h.forall_completed hs.good fun hlast => ?_⟩
  · intro o' ho'
    obtain ⟨rfl, hnot⟩ := h.goes_on hs.alone ho ho'
    refine ⟨(h.sweepIs o').2 hold.sweepIs, ?_, ?_, ?_, ?_⟩
    · rw [h.autoCalV, h.pointer, Sweep.point_succ, hold.autoCalV, hold.sweepIs.2.2]
    · rw [h.pointer]
      exact Nat.lt_of_not_le fun hle => hnot (hover.2 hle)
    · intro i hi
      rw [h.pointer] at hi
      rw [h.set_adc]
      exact hupto i hi
    · intro hdone
      rw [h.done1 hnot] at hdone
      exact absurd hdone Bool.false_ne_true
  · -- a run that completes has written every point of its sweep
    have hcount : s.autoCalArrayPointer + 1 = (sweep o).count :=
      Nat.le_antisymm hold.pointer (hover.1 hlast)
    refine ⟨?_, hcount⟩
    simp only [newCompleted]
    rw [← hcount]
    exact List.map_congr_left fun i hi => hupto i (List.mem_range.1 hi)

theorem step_sweepInv (s : State) (e : Event) (hs : SweepInv s) (hok : SweepOk s e) :
    SweepInv (step s e) := by
  cases e with
  | startAutoCal o millis =>
      by_cases ho : InProgress s o
      · -- the sweep is chosen again, which changes nothing during the object's own run
        have hsame : chooseSweep s o = s := by
          cases o with
          | SOURCE_VOLTAGE => exact chooseSweep_voltage s
          | SOURCE_CURRENT => exact chooseSweep_of_current (hs.progress _ ho).sweepIs _
        rw [step, startAutoCal_of_inProgress s o millis ho, hsame]
        exact hs
      · obtain ⟨hidle, hsweep, hfirst⟩ := hok.resolve_left ho
        exact (startAutoCal_of_idle s o millis ho).sweepInv hs hidle hsweep hfirst
  | autoCalADCfromDAC o millis mean =>
      apply autoCalADCfromDAC_keeps
        (J := fun s₁ => SweepInv s₁ ∧ InProgress s₁ o ∧ (RecordDue s millis →
          (s₁.objects o).set_adc s₁.autoCalArrayPointer =
            (sweep o).point s₁.autoCalArrayPointer)) hs (fun _ h => h.1)
      · intro ho s₁ hcommit
        have hinv := hcommit.sweepInv hs ho
        have hbusy := (hcommit.inProgress o).2 ho
        exact ⟨hinv, hbusy, fun _ => (hinv.progress o hbusy).current hcommit.done1⟩
      · intro ho hnot
        refine ⟨hs, ho, fun hdue => ?_⟩
        by_cases hdone : s.autoCalDone1 = true
        · exact (hs.progress o ho).current hdone
        · -- only the commit is missing, and the table holds the value already
          have hpoint := (hok ho (Bool.eq_false_iff.2 hdone) hdue).resolve_left hnot
          rw [hpoint]
          exact (hs.progress o ho).autoCalV
      · intro hdue s₁ s' h hrecord
        exact hrecord.sweepInv h.1 h.2.1 (h.2.2 hdue)

/-- In every interleaving in which a run is started only while there is none, with its own sweep and
with a clear phase flag or its first point in the table, every run that completes has exactly the
points of its own sweep. -/
theorem sweeps_good_of_guarded (millis : ℕ) (set_adc meas_adc : OperationType → ℕ → ℚ)
    (points : OperationType → ℕ) (es : List Event)
    (h : Guarded step SweepOk (boot millis set_adc meas_adc points) es) :
    Always step SweepsGood (boot millis set_adc meas_adc points) es := by
  have hboot : SweepInv (boot millis set_adc meas_adc points) :=
    { alone := fun o _ h => absurd h (boot_idle millis set_adc meas_adc points o)
      progress := fun o h => absurd h (boot_idle millis set_adc meas_adc points o)
      good := by simp [boot, SweepsGood] }
  have hinv := always_of_guarded step_sweepInv hboot h
  exact hinv.mono fun _ hs => hs.good

/-- Two runs of the voltage object, one after the other, both have the 21 points. -/
theorem sweeps_good_voltage_twice :
    Always step SweepsGood blank
      (.startAutoCal .SOURCE_VOLTAGE 10 :: steps .SOURCE_VOLTAGE 10 21 ++
        .startAutoCal .SOURCE_VOLTAGE 200000 :: steps .SOURCE_VOLTAGE 200000 21) :=
  sweeps_good_of_guarded 0 (fun _ _ => 0) (fun _ _ => 0) (fun _ => 0) _ (by decide +kernel)

/-- A run of the current object leaves its sweep in the globals, and the voltage object sets none of
its own: its run then completes with 33 points from -400 mV to 400 mV. -/
theorem current_run_changes_voltage_sweep :
    ¬ Always step SweepsGood blank
      (.startAutoCal .SOURCE_CURRENT 10 :: steps .SOURCE_CURRENT 10 33 ++
        .startAutoCal .SOURCE_VOLTAGE 200000 :: steps .SOURCE_VOLTAGE 200000 33) := by
  decide +kernel

end AutoCal
end PoorMansSmu
