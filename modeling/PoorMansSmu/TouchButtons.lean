import PoorMansSmu.Lib.Run
import PoorMansSmu.Operations

/-!
# TouchButtons — how `checkButtons` tells a press from a gesture

While the screen is touched, `checkButtons` notes where, in two arrays of ten entries.  Once there are
three touches they are a press if they stay in place, which starts the count again.  If they do not,
nothing does before the touch ends.

So the arrays are left by touches that move at the beginning and then last, and by no others
(`always_inside_iff`).
-/

namespace PoorMansSmu
namespace TouchButtons

def nrOfChecks : ℕ := 3

/-- The number of entries of `x` and of `y`. -/
def arraySize : ℕ := 10

/-- The globals of `checkButtons`.  `writes` is not in the program: it records the indices that `x` and
`y` are written at. -/
structure State where
  tagTimer : ℤ
  prevTag : ℕ := 0
  buttonPressed : Bool := false
  buttonPressedPeriod : ℕ := 0
  prevButton : Bool := false
  x : ℕ → ℤ := fun _ => 0
  y : ℕ → ℤ := fun _ => 0
  writes : List ℕ := []

/-- What a call finds: the touch with its place, the menu, a widget that is being dragged. -/
structure Touch where
  menuActive : Bool := false
  tracking : Bool := false
  tag : ℕ := 0
  touchX : ℤ := 0
  touchY : ℤ := 0
  millis : ℕ := 0

/-- The call does not get to look at the touch. -/
def Skipped (s : State) (t : Touch) : Prop :=
  t.menuActive = true ∨ t.tracking = true ∨ t.tag > 0 ∧ wrap32 (s.tagTimer + 20) > wrap32 t.millis

instance (s : State) (t : Touch) : Decidable (Skipped s t) :=
  inferInstanceAs (Decidable (t.menuActive = true ∨ t.tracking = true ∨
    t.tag > 0 ∧ wrap32 (s.tagTimer + 20) > wrap32 t.millis))

/-- A touch is noted from the second call on that finds it. -/
def note (s : State) (t : Touch) : State :=
  let i := s.buttonPressedPeriod
  if t.tag > 0 then
    if s.prevButton then
      { s with
        tagTimer := wrap32 t.millis
        buttonPressed := true
        x := Function.update s.x i t.touchX
        y := Function.update s.y i t.touchY
        writes := i :: s.writes
        buttonPressedPeriod := i + 1 }
    else { s with tagTimer := wrap32 t.millis, buttonPressed := true, prevButton := true }
  else
    { s with
      tagTimer := wrap32 t.millis
      prevButton := false
      buttonPressed := false
      buttonPressedPeriod := 0 }

/-- The places of two touches are too far from each other. -/
def Apart (s : State) (i : ℕ) : Prop :=
  s.x i > s.x (i + 1) + 10 ∨ s.x i < s.x (i + 1) - 10 ∨
    s.y i > s.y (i + 1) + 10 ∨ s.y i < s.y (i + 1) - 10

def Accidental (s : State) : Prop :=
  ∃ i < nrOfChecks - 1, Apart s i

instance (s : State) (i : ℕ) : Decidable (Apart s i) :=
  inferInstanceAs (Decidable (s.x i > s.x (i + 1) + 10 ∨ s.x i < s.x (i + 1) - 10 ∨
    s.y i > s.y (i + 1) + 10 ∨ s.y i < s.y (i + 1) - 10))

instance (s : State) : Decidable (Accidental s) :=
  inferInstanceAs (Decidable (∃ i < nrOfChecks - 1, Apart s i))

/-- One call of `checkButtons`, and whether it takes the touch for a press.  What a press does is the
subject of `Program`. -/
def checkButtons (s : State) (t : Touch) : State × Bool :=
  if Skipped s t then (s, false)
  else
    let s := note s t
    if s.buttonPressedPeriod < nrOfChecks then (s, false)
    -- the count is left as it is: only a release or a press starts it again
    else if Accidental s then (s, false)
    else ({ s with buttonPressedPeriod := 0, prevTag := t.tag }, true)

def step (s : State) (t : Touch) : State := (checkButtons s t).1

/-- The globals after power-up, at some time. -/
def start (millis : ℕ) : State := { tagTimer := wrap32 millis }

/-- Everything was written inside the arrays, and so will be the next touch. -/
def Inside (s : State) : Prop :=
  (∀ i ∈ s.writes, i < arraySize) ∧ s.buttonPressedPeriod < arraySize

/-! ## One call -/

/-- The touch is noted at the place after the last one that there is. -/
def LastsOn (s : State) (t : Touch) : Prop :=
  ¬ Skipped s t ∧ t.tag > 0 ∧ s.prevButton = true ∧ s.buttonPressedPeriod + 1 = arraySize

/-- Where the touches are counted from: what has been noted is inside, and three touches or more are
there only if they do not stay in place. -/
structure Noted (s : State) : Prop where
  writes : ∀ i ∈ s.writes, i < arraySize
  period : s.buttonPressedPeriod < arraySize
  accidental : nrOfChecks ≤ s.buttonPressedPeriod → Accidental s

theorem noted_start (millis : ℕ) : Noted (start millis) where
  writes i hi := absurd hi List.not_mem_nil
  period := (by decide : 0 < arraySize)
  accidental h := absurd h (by decide : ¬ nrOfChecks ≤ 0)

section Call

variable {s : State} {t : Touch}

theorem note_held (htag : t.tag > 0) (hprev : s.prevButton = true) :
    (note s t).writes = s.buttonPressedPeriod :: s.writes ∧
      (note s t).buttonPressedPeriod = s.buttonPressedPeriod + 1 := by
  unfold note
  rw [if_pos htag, if_pos hprev]
  exact ⟨rfl, rfl⟩

/-- A touch that is new is not noted, and a release starts the count again. -/
theorem note_other (h : ¬ (t.tag > 0 ∧ s.prevButton = true)) :
    (note s t).writes = s.writes ∧
      (note s t).buttonPressedPeriod ≤ s.buttonPressedPeriod := by
  unfold note
  split_ifs with htag hprev
  · exact absurd ⟨htag, hprev⟩ h
  · exact ⟨rfl, Nat.le_refl _⟩
  · exact ⟨rfl, Nat.zero_le _⟩

/-- Touches after the third do not change whether the first three stay in place. -/
theorem note_accidental (hperiod : nrOfChecks ≤ s.buttonPressedPeriod) :
    Accidental (note s t) ↔ Accidental s := by
  have hplaces : ∀ i < nrOfChecks, (note s t).x i = s.x i ∧ (note s t).y i = s.y i := by
    intro i hi
    have hne : i ≠ s.buttonPressedPeriod := by omega
    -- only a held touch is written anywhere, and not at one of the first three places
    unfold note
    split_ifs
    · exact ⟨Function.update_of_ne hne _ _, Function.update_of_ne hne _ _⟩
    · exact ⟨rfl, rfl⟩
    · exact ⟨rfl, rfl⟩
  have hapart : ∀ i < nrOfChecks - 1, Apart (note s t) i ↔ Apart s i := by
    intro i hi
    obtain ⟨hx, hy⟩ := hplaces i (by omega)
    obtain ⟨hx', hy'⟩ := hplaces (i + 1) (by omega)
    unfold Apart
    rw [hx, hy, hx', hy']
  exact exists_congr fun i => and_congr_right (hapart i)

/-- What is left after a call: the touch as noted, or a count started again by a press. -/
theorem step_cases (s : State) (t : Touch) :
    (Skipped s t ∧ step s t = s) ∨
    (¬ Skipped s t ∧ ∃ s', s' = note s t ∧
      ((step s t = s' ∧ (nrOfChecks ≤ s'.buttonPressedPeriod → Accidental s')) ∨
        (step s t = { s' with buttonPressedPeriod := 0, prevTag := t.tag } ∧ ¬ Accidental s' ∧
          nrOfChecks ≤ s'.buttonPressedPeriod))) := by
  unfold step checkButtons
  by_cases hskipped : Skipped s t
  · exact Or.inl ⟨hskipped, by rw [if_pos hskipped]⟩
  · refine Or.inr ⟨hskipped, _, rfl, ?_⟩
    rw [if_neg hskipped]
    dsimp only
    split_ifs with hfew haccidental
    · exact Or.inl ⟨rfl, fun hmany => absurd hfew (Nat.not_lt_of_le hmany)⟩
    · exact Or.inl ⟨rfl, fun _ => haccidental⟩
    · exact Or.inr ⟨rfl, haccidental, Nat.le_of_not_lt hfew⟩

theorem Noted.step (h : Noted s) (hok : ¬ LastsOn s t) : Noted (step s t) := by
  have hperiod := h.period
  rcases step_cases s t with ⟨-, heq⟩ | ⟨hskipped, s', hs', hcases⟩
  · rw [heq]
    exact h
  · have hnoted : (∀ i ∈ s'.writes, i < arraySize) ∧ s'.buttonPressedPeriod < arraySize := by
      by_cases hheld : t.tag > 0 ∧ s.prevButton = true
      · -- it is noted at the count, and there is a place after it
        obtain ⟨hwrites, hcount⟩ := note_held hheld.1 hheld.2
        have hnotlast : s.buttonPressedPeriod + 1 ≠ arraySize := fun hlast =>
          hok ⟨hskipped, hheld.1, hheld.2, hlast⟩
        rw [hs', hwrites, hcount]
        refine ⟨List.forall_mem_cons.2 ⟨hperiod, h.writes⟩, ?_⟩
        omega
      · obtain ⟨hwrites, hcount⟩ := note_other hheld
        rw [hs', hwrites]
        exact ⟨h.writes, Nat.lt_of_le_of_lt hcount hperiod⟩
    rcases hcases with ⟨heq, haccidental⟩ | ⟨heq, -, -⟩
    · rw [heq]
      exact ⟨hnoted.1, hnoted.2, haccidental⟩
    · rw [heq]
      exact ⟨hnoted.1, (by decide : 0 < arraySize),
        fun hmany => absurd hmany (by decide : ¬ nrOfChecks ≤ 0)⟩

/-- A touch that lasts on when all places are taken is not a press, and is counted. -/
theorem Noted.not_inside (h : Noted s) (hbad : LastsOn s t) : ¬ Inside (TouchButtons.step s t) := by
  obtain ⟨hskipped, htag, hprev, hlast⟩ := hbad
  have hmany : nrOfChecks ≤ s.buttonPressedPeriod := by
    simp only [arraySize] at hlast
    simp only [nrOfChecks]
    omega
  obtain ⟨-, hcount⟩ := note_held htag hprev
  -- the nine touches there do not stay in place, and this one changes none of the first three
  have haccidental : Accidental (note s t) := (note_accidental hmany).2 (h.accidental hmany)
  rcases step_cases s t with ⟨hskip, -⟩ | ⟨-, s', hs', ⟨heq, -⟩ | ⟨-, hnot, -⟩⟩
  · exact absurd hskip hskipped
  · rw [heq, hs']
    intro hinside
    have hlt := hinside.2
    rw [hcount] at hlt
    omega
  · rw [hs'] at hnot
    exact absurd haccidental hnot

end Call

/-! ## Runs -/

/-- In every run of calls the arrays are kept exactly as long as no touch lasts on when all their
places are taken. -/
theorem always_inside_iff (millis : ℕ) (ts : List Touch) :
    Run.Always step Inside (start millis) ts ↔
      Run.Guarded step (fun s t => ¬ LastsOn s t) (start millis) ts :=
  Run.always_iff_guarded (fun _ h => ⟨h.writes, h.period⟩) (fun _ _ h hok => h.step hok)
    (fun _ _ h hbad => h.not_inside (not_not.1 hbad)) (noted_start millis) ts

/-- A finger that moves 20 pixels to the right from each call to the next, on some button. -/
def swipe : List Touch :=
  (List.range 11).map fun (i : ℕ) =>
    { tag := 5, touchX := 20 * i, touchY := 100, millis := 100 * (i + 1) }

theorem swipe_period : (Run.exec step (start 0) swipe).buttonPressedPeriod = 10 := by
  decide +kernel

theorem not_always_inside :
    ¬ ∀ (millis : ℕ) (ts : List Touch), Run.Always step Inside (start millis) ts := by
  intro hall
  have hlast := (hall 0 swipe).exec.2
  rw [swipe_period] at hlast
  exact absurd hlast (Nat.lt_irrefl _)

end TouchButtons
end PoorMansSmu
