import PoorMansSmu.FrontPanel
import PoorMansSmu.Lib.Run

/-!
# DigitizerScale — the picture of the digitizer and its vertical axis

The knob changes `ampLevel`.  When a picture is drawn, the labels of the axis are found from
`ampLevel`, but the graph is scaled by `multiplyBy`, which is set from `ampLevel` for the levels 2
to 4 only.

- `always_agrees_iff` : the two agree in all pictures exactly if none is drawn with level 1 after
  one with another level;
- `not_always_agrees` : up one level and down again.
-/

namespace PoorMansSmu
namespace DigitizerScale

open SmuHal

/-! ## Pictures -/

def yAxisPx : ℤ := 240
def height : ℕ := 400

def nrOfFloats : ℕ := 400

/-- A number beside the axis, with its sign, and the line that it belongs to. -/
structure Label where
  y : ℤ
  value : ℤ
  deriving DecidableEq

/-- What is drawn of the graph and of the axis. -/
structure Picture where
  ampLevel : ℕ
  multiplyBy : ℕ
  pixelsPrVolt : ℚ
  graph : List (ℕ × ℤ)
  labels : List Label

/-- Where a value is plotted, before the coordinate is truncated. -/
def graphY (pixelsPrVolt v : ℚ) : ℚ := yAxisPx - v / 1000 * pixelsPrVolt

def pixelsPrVolt (digitizeVoltage : Bool) (current_range : CurrentRange) (multiplyBy : ℕ) : ℚ :=
  let pixelsPrVolt : ℚ := multiplyBy * 10
  let pixelsPrVolt :=
    if digitizeVoltage = false then (multiplyBy * 100 : ℚ) / 0.8 else pixelsPrVolt
  if current_range = .MILLIAMP10 then pixelsPrVolt * 100 else pixelsPrVolt

/-- The line through the samples; zoomed, through all in the middle. -/
def graph (zoomed : Bool) (pixelsPrVolt : ℚ) (mva : ℕ → ℚ) : List (ℕ × ℤ) :=
  let (start, stop, resolution) :=
    if zoomed then (nrOfFloats / 4, nrOfFloats * 3 / 4, 1) else (0, nrOfFloats, 2)
  (List.range ((stop - start) / resolution)).map fun i =>
    (4 * i, truncate (graphY pixelsPrVolt (mva (start + i * resolution))))

/-- `valStep` and `step` -/
def scaleSteps (ampLevel : ℕ) : ℕ × ℕ :=
  let (valStep, step) := if ampLevel = 1 then (4, 50) else (1, 4 * 10)
  if ampLevel = 2 then (2, 50)
  else if ampLevel = 3 then (1, 50)
  else if ampLevel = 4 then (1, 125)
  else (valStep, step)

/-- The number that is printed for `val`. -/
def labelNumber (digitizeVoltage : Bool) (current_range : CurrentRange) (val : ℕ) : ℕ :=
  if digitizeVoltage then val * 5000 / 4
  else val * if current_range = .MILLIAMP10 then 1000 else 100

/-- The two loops over the y-axis, above and below it; neither reaches the ends of the axis. -/
def axisLabels (digitizeVoltage : Bool) (current_range : CurrentRange) (ampLevel : ℕ) :
    List Label :=
  let (valStep, step) := scaleSteps ampLevel
  let rounds := (height / 2 - 1) / step
  let number (k : ℕ) := labelNumber digitizeVoltage current_range ((k + 1) * valStep)
  ((List.range rounds).map fun k => ⟨yAxisPx - ((k + 1) * step : ℕ), (number k : ℕ)⟩) ++
    (List.range rounds).map fun k => ⟨yAxisPx + ((k + 1) * step : ℕ), -(number k : ℕ)⟩

/-! ## The screen -/

/-- The digitizer with what the knob changes.  `pictures` is not in the program: it holds what was
drawn so far, the last picture first. -/
structure Screen extends FrontPanel.DigitizerClass where
  zoomed : Bool := false
  adjustLevel : ℕ := 0
  ampLevel : ℕ := 1
  triggerLevel : ℚ := 1000
  multiplyBy : ℕ := 1
  pictures : List Picture := []

namespace Screen

def rotaryEncChanged (s : Screen) (changeValue : ℚ) : Screen :=
  if s.adjustLevel = 1 then { s with zoomed := !s.zoomed }
  else if s.adjustLevel = 0 then
    if changeValue < 0 then { s with ampLevel := if s.ampLevel > 1 then s.ampLevel - 1 else 1 }
    else { s with ampLevel := if s.ampLevel < 4 then s.ampLevel + 1 else 4 }
  else if s.adjustLevel = 2 then
    if changeValue < 0 then { s with triggerLevel := s.triggerLevel + 100 / s.multiplyBy }
    else { s with triggerLevel := s.triggerLevel - 100 / s.multiplyBy }
  else s

def rotaryEncButtonChanged (s : Screen) : Screen :=
  { s with adjustLevel := if s.adjustLevel + 1 > 2 then 0 else s.adjustLevel + 1 }

/-- The buttons, and then the picture. -/
def renderGraph (s : Screen) (current_range : CurrentRange) (inputTag : FrontPanel.Tag)
    (menuActive : Bool) (millis : ℕ) (mva : ℕ → ℚ) : Screen :=
  let d := s.toDigitizerClass.renderGraph inputTag menuActive millis
  -- the button that changes what is digitized sets the trigger level too
  let triggerLevel :=
    if d.digitizeVoltage = s.digitizeVoltage then s.triggerLevel
    else if d.digitizeVoltage = false then 100
    else 1000
  let multiplyBy :=
    if s.ampLevel = 2 then 2
    else if s.ampLevel = 3 then 4
    else if s.ampLevel = 4 then 10
    else s.multiplyBy
  let px := pixelsPrVolt d.digitizeVoltage current_range multiplyBy
  let picture : Picture :=
    { ampLevel := s.ampLevel
      multiplyBy := multiplyBy
      pixelsPrVolt := px
      graph := graph s.zoomed px mva
      labels := axisLabels d.digitizeVoltage current_range s.ampLevel }
  { s with
    toDigitizerClass := d
    triggerLevel := triggerLevel
    multiplyBy := multiplyBy
    pictures := picture :: s.pictures }

end Screen

inductive Event
  | rotaryEncChanged (changeValue : ℚ)
  | rotaryEncButtonChanged
  | renderGraph (inputTag : FrontPanel.Tag) (menuActive : Bool) (millis : ℕ) (mva : ℕ → ℚ)

/-- One event in the range of 1 A. -/
def step (s : Screen) : Event → Screen
  | .rotaryEncChanged changeValue => s.rotaryEncChanged changeValue
  | .rotaryEncButtonChanged => s.rotaryEncButtonChanged
  | .renderGraph inputTag menuActive millis mva =>
      s.renderGraph .AMP1 inputTag menuActive millis mva

/-! ## Labels -/

/-- The factor that belongs to a level. -/
def factor : ℕ → ℕ
  | 2 => 2
  | 3 => 4
  | 4 => 10
  | _ => 1

/-- The labels are where their values would be plotted. -/
def Picture.Agrees (p : Picture) : Prop :=
  p.multiplyBy = factor p.ampLevel ∧
    ∀ label ∈ p.labels, graphY p.pixelsPrVolt label.value = label.y

section Labels

variable {ampLevel : ℕ}

theorem level_cases (hlow : 1 ≤ ampLevel) (hhigh : ampLevel ≤ 4) :
    ampLevel = 1 ∨ ampLevel = 2 ∨ ampLevel = 3 ∨ ampLevel = 4 := by
  omega

/-- On the scale of its level, a value of the axis is as far from it as its line. -/
theorem labelNumber_scaled (hlow : 1 ≤ ampLevel) (hhigh : ampLevel ≤ 4) (digitizeVoltage : Bool)
    (n : ℕ) :
    (labelNumber digitizeVoltage .AMP1 (n * (scaleSteps ampLevel).1) : ℚ) / 1000 *
      pixelsPrVolt digitizeVoltage .AMP1 (factor ampLevel) = (n * (scaleSteps ampLevel).2 : ℕ) := by
  have hvolt : ∀ val : ℕ, val * 5000 / 4 = val * 1250 := fun val => by omega
  rcases level_cases hlow hhigh with rfl | rfl | rfl | rfl
  all_goals
    cases digitizeVoltage
    all_goals
      simp [labelNumber, pixelsPrVolt, scaleSteps, factor, hvolt]
      ring

theorem labels_agree (hlow : 1 ≤ ampLevel) (hhigh : ampLevel ≤ 4) (digitizeVoltage : Bool) :
    ∀ label ∈ axisLabels digitizeVoltage .AMP1 ampLevel,
      graphY (pixelsPrVolt digitizeVoltage .AMP1 (factor ampLevel)) label.value = label.y := by
  intro label hlabel
  simp only [axisLabels, List.mem_append, List.mem_map] at hlabel
  rcases hlabel with ⟨k, -, rfl⟩ | ⟨k, -, rfl⟩
  · -- above the axis
    have hscaled := labelNumber_scaled hlow hhigh digitizeVoltage (k + 1)
    unfold graphY
    dsimp only
    push_cast at hscaled ⊢
    rw [hscaled]
  · have hscaled := labelNumber_scaled hlow hhigh digitizeVoltage (k + 1)
    unfold graphY
    dsimp only
    push_cast at hscaled ⊢
    rw [neg_div, neg_mul, hscaled, sub_neg_eq_add]

end Labels

/-! ## Runs -/

/-- In every picture the scale belongs to the level, and the labels agree with it. -/
def Agreeing (s : Screen) : Prop := ∀ p ∈ s.pictures, p.Agrees

/-- A picture with level 1 comes before all pictures with another level. -/
def Unmagnified (s : Screen) : Event → Prop
  | .renderGraph _ _ _ _ => s.ampLevel = 1 → ∀ p ∈ s.pictures, p.ampLevel = 1
  | .rotaryEncChanged _ | .rotaryEncButtonChanged => True

structure Scaled (s : Screen) : Prop where
  low : 1 ≤ s.ampLevel
  high : s.ampLevel ≤ 4
  agreeing : Agreeing s
  /-- The factor is still 1 if nothing was drawn with another level. -/
  unmagnified : s.multiplyBy = 1 ↔ ∀ p ∈ s.pictures, p.ampLevel = 1

section Scaled

variable {s : Screen}

/-- The level that is drawn decides the factor, except for level 1. -/
theorem renderGraph_multiplyBy (hlow : 1 ≤ s.ampLevel) (hhigh : s.ampLevel ≤ 4)
    (current_range : CurrentRange) (inputTag : FrontPanel.Tag) (menuActive : Bool) (millis : ℕ)
    (mva : ℕ → ℚ) :
    (s.renderGraph current_range inputTag menuActive millis mva).multiplyBy =
      if s.ampLevel = 1 then s.multiplyBy else factor s.ampLevel := by
  unfold Screen.renderGraph
  dsimp only
  rcases level_cases hlow hhigh with hlevel | hlevel | hlevel | hlevel <;> rw [hlevel] <;> rfl

theorem factor_eq_one_iff (hlow : 1 ≤ s.ampLevel) (hhigh : s.ampLevel ≤ 4) :
    factor s.ampLevel = 1 ↔ s.ampLevel = 1 := by
  rcases level_cases hlow hhigh with hlevel | hlevel | hlevel | hlevel <;> rw [hlevel] <;> decide

theorem Scaled.rotary (h : Scaled s) {s' : Screen} (hlow : 1 ≤ s'.ampLevel)
    (hhigh : s'.ampLevel ≤ 4) (hmultiplyBy : s'.multiplyBy = s.multiplyBy)
    (hpictures : s'.pictures = s.pictures) : Scaled s' where
  low := hlow
  high := hhigh
  agreeing := by
    unfold Agreeing
    rw [hpictures]
    exact h.agreeing
  unmagnified := by
    rw [hmultiplyBy, hpictures]
    exact h.unmagnified

theorem Scaled.rotaryEncChanged (h : Scaled s) (changeValue : ℚ) :
    Scaled (s.rotaryEncChanged changeValue) := by
  have hlow := h.low
  have hhigh := h.high
  have hlevel : 1 ≤ (s.rotaryEncChanged changeValue).ampLevel ∧
      (s.rotaryEncChanged changeValue).ampLevel ≤ 4 := by
    unfold Screen.rotaryEncChanged
    split_ifs
    -- the level changes in four of the branches
    all_goals first
      | exact ⟨hlow, hhigh⟩
      | constructor <;> dsimp only <;> omega
  apply h.rotary hlevel.1 hlevel.2
  all_goals
    unfold Screen.rotaryEncChanged
    split_ifs <;> rfl

/-- A picture is right exactly when it is not drawn with the factor of another level. -/
theorem Scaled.renderGraph (h : Scaled s) (inputTag : FrontPanel.Tag) (menuActive : Bool)
    (millis : ℕ) (mva : ℕ → ℚ) :
    Agreeing (s.renderGraph .AMP1 inputTag menuActive millis mva) ↔
      (s.renderGraph .AMP1 inputTag menuActive millis mva).multiplyBy = factor s.ampLevel := by
  constructor
  · intro hagreeing
    exact (hagreeing _ (List.mem_cons_self ..)).1
  · intro hfactor p hp
    rcases List.mem_cons.1 hp with rfl | hold
    · refine ⟨hfactor, ?_⟩
      have hpx := congrArg (pixelsPrVolt
        (s.toDigitizerClass.renderGraph inputTag menuActive millis).digitizeVoltage .AMP1) hfactor
      intro label hlabel
      exact (congrArg (graphY · label.value) hpx).trans (labels_agree h.low h.high _ label hlabel)
    · exact h.agreeing p hold

theorem Scaled.step (h : Scaled s) (e : Event) (hok : Unmagnified s e) : Scaled (step s e) := by
  cases e with
  | rotaryEncChanged changeValue => exact h.rotaryEncChanged changeValue
  | rotaryEncButtonChanged => exact h.rotary h.low h.high rfl rfl
  | renderGraph inputTag menuActive millis mva =>
      have hmultiplyBy :=
        renderGraph_multiplyBy h.low h.high .AMP1 inputTag menuActive millis mva
      have hfactor : (s.renderGraph .AMP1 inputTag menuActive millis mva).multiplyBy =
          factor s.ampLevel := by
        rw [hmultiplyBy]
        split_ifs with hlevel
        · -- nothing was magnified yet
          rw [h.unmagnified.2 (hok hlevel), hlevel]
          rfl
        · rfl
      refine ⟨h.low, h.high, (h.renderGraph inputTag menuActive millis mva).2 hfactor, ?_⟩
      -- the factor is 1 after level 1 only, and then all pictures so far are of that level
      show (s.renderGraph .AMP1 inputTag menuActive millis mva).multiplyBy = 1 ↔ _
      rw [hfactor, factor_eq_one_iff h.low h.high]
      constructor
      · intro hlevel p hp
        rcases List.mem_cons.1 hp with rfl | hold
        · exact hlevel
        · exact hok hlevel p hold
      · exact fun hall => hall _ (List.mem_cons_self ..)

theorem Scaled.not_agreeing (h : Scaled s) {e : Event} (hbad : ¬ Unmagnified s e) :
    ¬ Agreeing (DigitizerScale.step s e) := by
  cases e with
  | rotaryEncChanged changeValue => exact absurd trivial hbad
  | rotaryEncButtonChanged => exact absurd trivial hbad
  | renderGraph inputTag menuActive millis mva =>
      intro hagreeing
      apply hbad
      intro hlevel
      -- at level 1 the factor is what it was
      have hfactor := (h.renderGraph inputTag menuActive millis mva).1 hagreeing
      rw [renderGraph_multiplyBy h.low h.high, if_pos hlevel, hlevel] at hfactor
      exact h.unmagnified.1 hfactor

end Scaled

theorem scaled_start (d : FrontPanel.DigitizerClass) : Scaled { toDigitizerClass := d } where
  low := Nat.le_refl 1
  high := Nat.le_add_left 1 3
  agreeing := fun _ hp => absurd hp List.not_mem_nil
  unmagnified := iff_of_true rfl fun _ hp => absurd hp List.not_mem_nil

/-- For every sequence of turns, presses and pictures: scale and labels agree in all pictures
exactly if level 1 is not drawn again after another level. -/
theorem always_agrees_iff (d : FrontPanel.DigitizerClass) (es : List Event) :
    Run.Always step Agreeing { toDigitizerClass := d } es ↔
      Run.Guarded step Unmagnified { toDigitizerClass := d } es :=
  Run.always_iff_guarded (I := Scaled) (fun _ hs => hs.agreeing) (fun _ e hs hok => hs.step e hok)
    (fun _ _ hs hbad => hs.not_agreeing hbad) (scaled_start d) es

/-- One level up and down again: the label of 5 V is where 2.5 V would be plotted. -/
theorem not_always_agrees :
    ¬ ∀ (d : FrontPanel.DigitizerClass) (es : List Event),
      Run.Always step Agreeing { toDigitizerClass := d } es := by
  intro hall
  have hend := (hall {} [.rotaryEncChanged 1, .renderGraph (.number 0) false 0 fun _ => 0,
    .rotaryEncChanged (-1), .renderGraph (.number 0) false 0 fun _ => 0]).exec
  have hlabel := (hend _ (List.mem_cons_self ..)).1
  revert hlabel
  decide +kernel

end DigitizerScale
end PoorMansSmu
