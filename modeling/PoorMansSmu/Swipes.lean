import PoorMansSmu.Lib.Run
import Mathlib.Data.Int.ModEq

/-!
# Swipes — gestures on the touch screen and the widgets they move

In each frame `detectGestures` compares the finger with where it was in the frame before, and
`handleWidgetScrollPosition` moves the lower half of the screen: a swipe brings the next widget, or
the one before, in steps of 70 pixels.

- `panels_cover`        : whatever the frames, the panels shown cover the screen side by side, in
  the order of the widgets;
- `swipes_move_widgets` : each swipe moves the widgets by one, when no slider is touched in the
  frame behind a gesture;
- `slow_never_moves`    : a finger that is put down and moves slowly moves nothing.
-/

namespace PoorMansSmu
namespace Swipes

open Run

/-! ## Widgets -/

inductive Gest
  | GEST_NONE
  | GEST_MOVE_LEFT
  | GEST_MOVE_RIGHT
  | GEST_MOVE_DOWN
  deriving DecidableEq, Repr

/-- The fields of `WidgetsClass` that gestures change. -/
structure WidgetsClass where
  scroll : ℤ := 0
  activeWidget : ℤ := 0
  scrollDir : ℤ := 0
  trackingOngoing : ℕ := 0
  deriving DecidableEq, Repr

namespace WidgetsClass

def scrollSpeed : ℤ := 70

def noOfWidgets : ℤ := 7

def sliderTags : List ℕ := [123, 122]

def isScrolling (w : WidgetsClass) : Bool := w.scrollDir ≠ 0

def handleWidgetScrollPosition (w : WidgetsClass) (gestureDetected : Gest) : WidgetsClass :=
  let w :=
    match gestureDetected with
    | .GEST_MOVE_LEFT => { w with scrollDir := -1 }
    | .GEST_MOVE_RIGHT => { w with scrollDir := 1 }
    | _ => w
  let w := { w with scroll := w.scroll + w.scrollDir * scrollSpeed }
  if w.scroll ≤ -800 ∧ w.scrollDir ≠ 0 then
    let activeWidget := w.activeWidget + 1
    { w with
      activeWidget := if activeWidget > noOfWidgets - 1 then 0 else activeWidget
      scrollDir := 0
      scroll := 0 }
  else if w.scroll ≥ 800 ∧ w.scrollDir ≠ 0 then
    let activeWidget := w.activeWidget - 1
    { w with
      activeWidget := if activeWidget < 0 then noOfWidgets - 1 else activeWidget
      scrollDir := 0
      scroll := 0 }
  else w

/-- The calls of `showWidget` in `displayWidget`: the widget and its offset. -/
def displayWidget (w : WidgetsClass) : List (ℤ × ℤ) :=
  if w.activeWidget ≥ 0 then
    if w.scrollDir = 0 then [(w.activeWidget, 0)]
    else if w.scrollDir = -1 then
      [(w.activeWidget, w.scroll),
        if w.activeWidget = noOfWidgets - 1 then (0, w.scroll + 800)
        else (w.activeWidget + 1, w.scroll + 800)]
    else if w.scrollDir = 1 then
      [if w.activeWidget = 0 then (noOfWidgets - 1, w.scroll - 800)
        else (w.activeWidget - 1, w.scroll - 800),
        (w.activeWidget, w.scroll)]
    else []
  else []

end WidgetsClass

/-! ## Gestures -/

/-- What a frame finds: the slider that is touched, the finger, the time, and whether the main menu
or a dialog is open. -/
structure Inputs where
  track_tag : ℕ := 0
  x : ℤ
  y : ℤ
  millis : ℕ
  covered : Bool := false

/-- The globals of the main program that gestures use. -/
structure State where
  gestOldX : ℤ := 0
  gestOldY : ℤ := 0
  gestDurationX : ℤ := 0
  gestDurationY : ℤ := 0
  trackingDetectedTimer : ℕ := 0
  gestureDetected : Gest := .GEST_NONE
  WIDGETS : WidgetsClass := {}

namespace State

def LOWER_WIDGET_Y_POS : ℤ := 250

def ignoreGesture (s : State) (t millis : ℕ) : Bool × State :=
  if (s.trackingDetectedTimer + 50) % 4294967296 > millis then (true, s)
  else
    let t := t &&& 0xff
    if t ∈ WidgetsClass.sliderTags then
      (true, { s with
        trackingDetectedTimer := millis
        WIDGETS := { s.WIDGETS with trackingOngoing := t } })
    else (false, { s with WIDGETS := { s.WIDGETS with trackingOngoing := 0 } })

/-- The branch for a finger in the lower half. -/
def moveSideways (s : State) (touchX touchY gestDistanceX : ℤ) : State :=
  if touchX > 0 ∧ touchY > LOWER_WIDGET_Y_POS ∧ gestDistanceX < -20 ∧ !s.WIDGETS.isScrolling then
    let s := { s with gestDurationX := s.gestDurationX + 1 }
    if s.gestDurationX ≥ 3 then { s with gestureDetected := .GEST_MOVE_LEFT, gestDurationX := 0 }
    else s
  else if touchX > 0 ∧ touchY > LOWER_WIDGET_Y_POS ∧ gestDistanceX > 20 ∧
      !s.WIDGETS.isScrolling then
    let s := { s with gestDurationX := s.gestDurationX + 1 }
    if s.gestDurationX ≥ 3 then { s with gestureDetected := .GEST_MOVE_RIGHT, gestDurationX := 0 }
    else s
  else s

/-- The branch for a finger near the upper edge. -/
def moveDown (s : State) (touchY gestDistanceX gestDistanceY : ℤ) : State :=
  if touchY > 0 ∧ touchY < 150 ∧ gestDistanceY > 10 ∧ !s.WIDGETS.isScrolling ∧
      gestDistanceX < 20 then
    let s := { s with gestDurationY := s.gestDurationY + 1 }
    if s.gestDurationY ≥ 2 then { s with gestureDetected := .GEST_MOVE_DOWN, gestDurationY := 0 }
    else s
  else s

/-- Without a touch the coordinates are -32768. -/
def released (i : Inputs) : Prop := i.x = -32768

instance (i : Inputs) : Decidable (released i) := inferInstanceAs (Decidable (i.x = -32768))

def gestDistanceX (s : State) (i : Inputs) : ℤ := if released i then 0 else i.x - s.gestOldX

def gestDistanceY (s : State) (i : Inputs) : ℤ := if released i then 0 else i.y - s.gestOldY

/-- Without a touch the durations are set back. -/
def rested (s : State) (i : Inputs) : State :=
  if released i then { s with gestDurationX := 0, gestDurationY := 0 } else s

/-- Swipes in the lower half count when nothing covers it. -/
def recognise (s : State) (i : Inputs) (gestDistanceX gestDistanceY : ℤ) : State :=
  if s.gestureDetected = .GEST_NONE then
    (if i.covered then s else s.moveSideways i.x i.y gestDistanceX).moveDown i.y gestDistanceX
      gestDistanceY
  else { s with gestureDetected := .GEST_NONE, gestDurationX := 0, gestDurationY := 0 }

/-- `detectGestures` in a frame that is not ignored. -/
def look (s : State) (i : Inputs) : State :=
  { (s.rested i).recognise i (s.gestDistanceX i) (s.gestDistanceY i) with
    gestOldX := i.x
    gestOldY := i.y }

def detectGestures (s : State) (i : Inputs) : State :=
  let (ignored, s) := s.ignoreGesture i.track_tag i.millis
  if ignored then s else s.look i

end State

/-- Power-on. -/
def start (millis : ℕ) : State := { trackingDetectedTimer := millis }

/-- A frame of `loopMain`, a frame of the digitizer, the graph or the logger, which only look for
gestures, and one of the settings page, which does not. -/
inductive Frame
  | main (i : Inputs)
  | other (i : Inputs)
  | settings

def step (s : State) : Frame → State
  | .main i =>
      let s := s.detectGestures i
      { s with WIDGETS := s.WIDGETS.handleWidgetScrollPosition s.gestureDetected }
  | .other i => s.detectGestures i
  | .settings => s

/-! ## The widgets in a row -/

/-- Widgets at rest, or on their way by some steps. -/
structure Placed (w : WidgetsClass) : Prop where
  active : 0 ≤ w.activeWidget ∧ w.activeWidget < 7
  place : (w.scrollDir = 0 ∧ w.scroll = 0) ∨
    (w.scrollDir = -1 ∧ -800 < w.scroll ∧ w.scroll < 0) ∨
    (w.scrollDir = 1 ∧ 0 < w.scroll ∧ w.scroll < 800)

/-- The direction in which the widgets move once a gesture is taken. -/
def directed (w : WidgetsClass) : Gest → ℤ
  | .GEST_MOVE_LEFT => -1
  | .GEST_MOVE_RIGHT => 1
  | _ => w.scrollDir

/-- A gesture does not turn widgets round that are on their way. -/
structure Fits (w : WidgetsClass) (g : Gest) : Prop where
  left : g = .GEST_MOVE_LEFT → w.scrollDir ≠ 1
  right : g = .GEST_MOVE_RIGHT → w.scrollDir ≠ -1

/-- How many pixels the row of widgets has gone past. -/
def position (w : WidgetsClass) : ℤ := 800 * w.activeWidget - w.scroll

section Handle

variable {w : WidgetsClass} {g : Gest}

/-- The next widget arrives. -/
theorem handle_next (h : w.scroll + directed w g * 70 ≤ -800) (hdir : directed w g ≠ 0) :
    w.handleWidgetScrollPosition g = { w with
      activeWidget := if w.activeWidget + 1 > 6 then 0 else w.activeWidget + 1
      scrollDir := 0
      scroll := 0 } := by
  cases g <;> exact if_pos ⟨h, hdir⟩

/-- The widget before arrives. -/
theorem handle_previous (h : w.scroll + directed w g * 70 ≥ 800) (hdir : directed w g ≠ 0) :
    w.handleWidgetScrollPosition g = { w with
      activeWidget := if w.activeWidget - 1 < 0 then 6 else w.activeWidget - 1
      scrollDir := 0
      scroll := 0 } := by
  have hnot : ¬ (w.scroll + directed w g * 70 ≤ -800 ∧ directed w g ≠ 0) := by omega
  cases g <;> exact (if_neg hnot).trans (if_pos ⟨h, hdir⟩)

/-- The widgets go on. -/
theorem handle_between
    (h : directed w g = 0 ∨
      (-800 < w.scroll + directed w g * 70 ∧ w.scroll + directed w g * 70 < 800)) :
    w.handleWidgetScrollPosition g = { w with
      scrollDir := directed w g
      scroll := w.scroll + directed w g * 70 } := by
  have hleft : ¬ (w.scroll + directed w g * 70 ≤ -800 ∧ directed w g ≠ 0) := by omega
  have hright : ¬ (w.scroll + directed w g * 70 ≥ 800 ∧ directed w g ≠ 0) := by omega
  cases g <;> exact (if_neg hleft).trans (if_neg hright)

/-- In which direction the widgets move. -/
theorem Placed.directed_cases (h : Placed w) (hfits : Fits w g) :
    (directed w g = 0 ∧ w.scrollDir = 0 ∧ w.scroll = 0) ∨
      (directed w g = -1 ∧ -800 < w.scroll ∧ w.scroll ≤ 0) ∨
      (directed w g = 1 ∧ 0 ≤ w.scroll ∧ w.scroll < 800) := by
  have hplace := h.place
  cases g with
  | GEST_MOVE_LEFT =>
      have hdir := hfits.left rfl
      exact Or.inr (Or.inl ⟨rfl, by omega, by omega⟩)
  | GEST_MOVE_RIGHT =>
      have hdir := hfits.right rfl
      exact Or.inr (Or.inr ⟨rfl, by omega, by omega⟩)
  | GEST_NONE | GEST_MOVE_DOWN =>
      simp only [directed]
      omega

/-- What comes of a frame. -/
structure Handled (w : WidgetsClass) (g : Gest) (w' : WidgetsClass) : Prop where
  placed : Placed w'
  /-- The row of widgets moves on by 70 pixels at most. -/
  moved : ∃ d, (-70 ≤ d ∧ d ≤ 70) ∧ position w' ≡ position w + d [ZMOD 5600]
  /-- The widget that is on its way does not change before it has arrived. -/
  target : w'.activeWidget - w'.scrollDir ≡ w.activeWidget - directed w g [ZMOD 7]
  dir : w'.scrollDir = 0 ∨ w'.scrollDir = directed w g

theorem Placed.handle (h : Placed w) (hfits : Fits w g) :
    Handled w g (w.handleWidgetScrollPosition g) := by
  obtain ⟨hlow, hhigh⟩ := h.active
  rcases h.directed_cases hfits with
    ⟨hdir, hrest, hscroll⟩ | ⟨hdir, hfrom, hto⟩ | ⟨hdir, hfrom, hto⟩
  · rw [handle_between (Or.inl hdir)]
    refine ⟨⟨h.active, Or.inl ⟨hdir, ?_⟩⟩, ⟨0, by decide, ?_⟩, rfl, Or.inl hdir⟩
    · simp only [hdir, hscroll]
      decide
    · simp only [position, hdir, Int.ModEq]
      omega
  · by_cases harrives : w.scroll + directed w g * 70 ≤ -800
    · rw [handle_next harrives (by omega)]
      refine ⟨⟨?_, Or.inl ⟨rfl, rfl⟩⟩, ⟨800 + w.scroll, ?_, ?_⟩, ?_, Or.inl rfl⟩
      · dsimp only
        split_ifs <;> omega
      · omega
      · simp only [position, Int.ModEq]
        split_ifs <;> omega
      · simp only [hdir, Int.ModEq]
        split_ifs <;> omega
    · rw [handle_between (by omega)]
      refine ⟨⟨h.active, Or.inr (Or.inl ⟨hdir, ?_⟩)⟩, ⟨70, by decide, ?_⟩, rfl, Or.inr rfl⟩
      · dsimp only
        omega
      · simp only [position, hdir, Int.ModEq]
        omega
  · by_cases harrives : w.scroll + directed w g * 70 ≥ 800
    · rw [handle_previous harrives (by omega)]
      refine ⟨⟨?_, Or.inl ⟨rfl, rfl⟩⟩, ⟨w.scroll - 800, ?_, ?_⟩, ?_, Or.inl rfl⟩
      · dsimp only
        split_ifs <;> omega
      · omega
      · simp only [position, Int.ModEq]
        split_ifs <;> omega
      · simp only [hdir, Int.ModEq]
        split_ifs <;> omega
    · rw [handle_between (by omega)]
      refine ⟨⟨h.active, Or.inr (Or.inr ⟨hdir, ?_⟩)⟩, ⟨-70, by decide, ?_⟩, rfl, Or.inr rfl⟩
      · dsimp only
        omega
      · simp only [position, hdir, Int.ModEq]
        omega

end Handle

/-! ## What a frame detects -/

/-- A frame leaves the widgets where they are; it keeps the gesture when a slider is touched, and
ends it or finds one otherwise.  None is found while the widgets move. -/
structure Detected (s s' : State) (ignored : Bool) : Prop where
  scroll : s'.WIDGETS.scroll = s.WIDGETS.scroll
  activeWidget : s'.WIDGETS.activeWidget = s.WIDGETS.activeWidget
  scrollDir : s'.WIDGETS.scrollDir = s.WIDGETS.scrollDir
  kept : ignored = true → s'.gestureDetected = s.gestureDetected
  ended : ignored = false → s.gestureDetected ≠ .GEST_NONE → s'.gestureDetected = .GEST_NONE
  found : s.gestureDetected = .GEST_NONE → s'.gestureDetected ≠ .GEST_NONE →
    s.WIDGETS.scrollDir = 0

section Detect

variable {s : State}

theorem moveSideways_widgets (s : State) (x y dx : ℤ) :
    (s.moveSideways x y dx).WIDGETS = s.WIDGETS := by
  unfold State.moveSideways
  dsimp only
  split_ifs <;> rfl

theorem moveDown_widgets (s : State) (y dx dy : ℤ) : (s.moveDown y dx dy).WIDGETS = s.WIDGETS := by
  unfold State.moveDown
  dsimp only
  split_ifs <;> rfl

/-- Nothing is detected in the lower half while the widgets move. -/
theorem moveSideways_scrolling (h : s.WIDGETS.scrollDir ≠ 0) (x y dx : ℤ) :
    s.moveSideways x y dx = s := by
  have hscrolling : s.WIDGETS.isScrolling = true := decide_eq_true h
  unfold State.moveSideways
  rw [hscrolling, if_neg (by simp), if_neg (by simp)]

theorem moveDown_scrolling (h : s.WIDGETS.scrollDir ≠ 0) (y dx dy : ℤ) :
    s.moveDown y dx dy = s := by
  have hscrolling : s.WIDGETS.isScrolling = true := decide_eq_true h
  unfold State.moveDown
  rw [hscrolling, if_neg (by simp)]

theorem ignoreGesture_eq (s : State) (t millis : ℕ) :
    ∃ timer tracking, (s.ignoreGesture t millis).2 = { s with
      trackingDetectedTimer := timer
      WIDGETS := { s.WIDGETS with trackingOngoing := tracking } } := by
  unfold State.ignoreGesture
  dsimp only
  split_ifs
  · exact ⟨_, _, rfl⟩
  · exact ⟨_, _, rfl⟩
  · exact ⟨_, _, rfl⟩

theorem rested_widgets (s : State) (i : Inputs) : (s.rested i).WIDGETS = s.WIDGETS := by
  unfold State.rested
  split_ifs <;> rfl

theorem rested_gesture (s : State) (i : Inputs) :
    (s.rested i).gestureDetected = s.gestureDetected := by
  unfold State.rested
  split_ifs <;> rfl

theorem recognise_widgets (s : State) (i : Inputs) (dx dy : ℤ) :
    (s.recognise i dx dy).WIDGETS = s.WIDGETS := by
  unfold State.recognise
  split_ifs
  · exact moveDown_widgets _ _ _ _
  · rw [moveDown_widgets, moveSideways_widgets]
  · rfl

theorem look_widgets (s : State) (i : Inputs) : (s.look i).WIDGETS = s.WIDGETS :=
  (recognise_widgets _ _ _ _).trans (rested_widgets s i)

/-- A frame behind a gesture ends it. -/
theorem look_ends (h : s.gestureDetected ≠ .GEST_NONE) (i : Inputs) :
    (s.look i).gestureDetected = .GEST_NONE := by
  change ((s.rested i).recognise i _ _).gestureDetected = .GEST_NONE
  rw [State.recognise, if_neg (by rwa [rested_gesture])]

theorem look_scrolling (h : s.gestureDetected = .GEST_NONE) (hscroll : s.WIDGETS.scrollDir ≠ 0)
    (i : Inputs) : (s.look i).gestureDetected = .GEST_NONE := by
  have hmoving : (s.rested i).WIDGETS.scrollDir ≠ 0 := by rwa [rested_widgets]
  change ((s.rested i).recognise i _ _).gestureDetected = .GEST_NONE
  rw [State.recognise, if_pos (by rwa [rested_gesture]), moveSideways_scrolling hmoving, ite_self,
    moveDown_scrolling hmoving, rested_gesture, h]

theorem detect (s : State) (i : Inputs) :
    Detected s (s.detectGestures i) (s.ignoreGesture i.track_tag i.millis).1 := by
  obtain ⟨timer, tracking, hignore⟩ := ignoreGesture_eq s i.track_tag i.millis
  unfold State.detectGestures
  generalize s.ignoreGesture i.track_tag i.millis = r at hignore ⊢
  obtain ⟨ignored, s₁⟩ := r
  dsimp only at hignore ⊢
  subst hignore
  cases ignored with
  | true =>
      exact
        { scroll := rfl
          activeWidget := rfl
          scrollDir := rfl
          kept := fun _ => rfl
          ended := fun h => by cases h
          found := fun hnone hsome => absurd hnone hsome }
  | false =>
      simp only [Bool.false_eq_true, if_false]
      constructor
      case scroll => rw [look_widgets]
      case activeWidget => rw [look_widgets]
      case scrollDir => rw [look_widgets]
      case kept =>
        intro h
        cases h
      case ended =>
        intro _ hpending
        refine look_ends ?_ i
        exact hpending
      case found =>
        intro hnone hsome
        by_contra hmoving
        refine hsome (look_scrolling ?_ ?_ i)
        · exact hnone
        · exact hmoving

end Detect

/-! ## All frames -/

/-- The widgets are placed, and move in the direction of the gesture that is pending, if one is. -/
structure Inv (s : State) : Prop where
  placed : Placed s.WIDGETS
  pending : s.WIDGETS.scrollDir ≠ 0 → s.gestureDetected = .GEST_NONE ∨
    s.WIDGETS.scrollDir = directed s.WIDGETS s.gestureDetected

theorem inv_start (millis : ℕ) : Inv (start millis) :=
  ⟨⟨by simp [start], Or.inl ⟨rfl, rfl⟩⟩, fun h => absurd rfl h⟩

theorem directed_congr {w w' : WidgetsClass} (h : w.scrollDir = w'.scrollDir) (g : Gest) :
    directed w g = directed w' g := by
  cases g <;> first | rfl | exact h

section Steps

variable {s : State} (h : Inv s)

include h

theorem Inv.detect (i : Inputs) : Inv (s.detectGestures i) := by
  obtain ⟨hscroll, hactive, hdir, hkept, hended, hfound⟩ := Swipes.detect s i
  obtain ⟨⟨hrange, hplace⟩, hpending⟩ := h
  refine ⟨⟨by rwa [hactive], by rwa [hscroll, hdir]⟩, ?_⟩
  rw [hdir, directed_congr hdir]
  intro hmoving
  by_cases hnone : s.gestureDetected = .GEST_NONE
  · by_contra hnew
    exact hmoving (hfound hnone fun hstill => hnew (Or.inl hstill))
  · cases hignored : (s.ignoreGesture i.track_tag i.millis).1 with
    | true =>
        rw [hkept hignored]
        exact hpending hmoving
    | false => exact Or.inl (hended hignored hnone)

theorem Inv.fits : Fits s.WIDGETS s.gestureDetected := by
  constructor
  · intro hleft hdir
    rcases h.pending (by rw [hdir]; decide) with hnone | hsame
    · rw [hleft] at hnone
      cases hnone
    · rw [hleft, hdir] at hsame
      exact absurd (show (1 : ℤ) = -1 from hsame) (by decide)
  · intro hright hdir
    rcases h.pending (by rw [hdir]; decide) with hnone | hsame
    · rw [hright] at hnone
      cases hnone
    · rw [hright, hdir] at hsame
      exact absurd (show (-1 : ℤ) = 1 from hsame) (by decide)

theorem Inv.handle :
    Inv { s with WIDGETS := s.WIDGETS.handleWidgetScrollPosition s.gestureDetected } := by
  have hhandled := h.placed.handle h.fits
  refine ⟨hhandled.placed, fun hmoving => ?_⟩
  have hdir := hhandled.dir.resolve_left hmoving
  change _ ∨ (s.WIDGETS.handleWidgetScrollPosition s.gestureDetected).scrollDir =
    directed (s.WIDGETS.handleWidgetScrollPosition s.gestureDetected) s.gestureDetected
  cases hg : s.gestureDetected with
  | GEST_NONE => exact Or.inl rfl
  | GEST_MOVE_LEFT =>
      rw [hg] at hdir
      exact Or.inr hdir
  | GEST_MOVE_RIGHT =>
      rw [hg] at hdir
      exact Or.inr hdir
  | GEST_MOVE_DOWN => exact Or.inr rfl

theorem Inv.step (f : Frame) : Inv (Swipes.step s f) := by
  cases f with
  | main i => exact (h.detect i).handle
  | other i => exact h.detect i
  | settings => exact h

/-- A frame moves the row of widgets by 70 pixels at most. -/
theorem Inv.moved (f : Frame) :
    ∃ d, (-70 ≤ d ∧ d ≤ 70) ∧
      position (Swipes.step s f).WIDGETS ≡ position s.WIDGETS + d [ZMOD 5600] := by
  have hsame (i : Inputs) : position (s.detectGestures i).WIDGETS = position s.WIDGETS := by
    obtain ⟨hscroll, hactive, -, -, -, -⟩ := Swipes.detect s i
    rw [position, position, hscroll, hactive]
  cases f with
  | main i =>
      have hmoved := ((h.detect i).placed.handle (h.detect i).fits).moved
      rwa [hsame] at hmoved
  | other i => exact ⟨0, by decide, by rw [Swipes.step, hsame, add_zero]⟩
  | settings => exact ⟨0, by decide, by rw [Swipes.step, add_zero]⟩

end Steps

theorem inv_exec (millis : ℕ) (frames : List Frame) : Inv (exec step (start millis) frames) :=
  (always_of_step (fun _ f h => h.step f) (inv_start millis) frames).exec

/-! ### What is shown -/

/-- The widgets that are shown at a column of the screen. -/
def widgetsAt (w : WidgetsClass) (x : ℤ) : List ℤ :=
  (w.displayWidget.filter fun panel => panel.2 ≤ x ∧ x < panel.2 + 800).map Prod.fst

/-- Of two panels side by side, one is at a column. -/
theorem filter_pair (a b offset : ℤ) {x : ℤ} (hx : 0 ≤ x) (hx' : x < 800) (hoffset : offset ≤ 0)
    (hoffset' : -800 ≤ offset) :
    ([(a, offset), (b, offset + 800)].filter fun panel : ℤ × ℤ =>
      panel.2 ≤ x ∧ x < panel.2 + 800).map Prod.fst = [if x < offset + 800 then a else b] := by
  by_cases hfirst : x < offset + 800
  · rw [List.filter_cons_of_pos (by simp; omega), List.filter_cons_of_neg (by simp; omega),
      if_pos hfirst]
    rfl
  · rw [List.filter_cons_of_neg (by simp; omega), List.filter_cons_of_pos (by simp; omega),
      if_neg hfirst]
    rfl

/-- Each column of the screen shows one widget, the one which the row has there. -/
theorem Placed.widgetsAt {w : WidgetsClass} (h : Placed w) {x : ℤ} (hx : 0 ≤ x) (hx' : x < 800) :
    widgetsAt w x = [(position w + x) / 800 % 7] := by
  obtain ⟨⟨hlow, hhigh⟩, ⟨hdir, hscroll⟩ | ⟨hdir, hfrom, hto⟩ | ⟨hdir, hfrom, hto⟩⟩ := h
  all_goals
    unfold Swipes.widgetsAt WidgetsClass.displayWidget WidgetsClass.noOfWidgets position
    rw [if_pos hlow, hdir]
  · rw [if_pos rfl, List.filter_cons_of_pos (by simp; omega), hscroll]
    refine congrArg (fun a => [a]) ?_
    change w.activeWidget = _
    omega
  · -- the next widget follows
    have hpanels : (if w.activeWidget = 7 - 1 then ((0 : ℤ), w.scroll + 800)
        else (w.activeWidget + 1, w.scroll + 800)) =
          (if w.activeWidget = 6 then 0 else w.activeWidget + 1, w.scroll + 800) := by
      split_ifs <;> first | rfl | omega
    rw [if_neg (by decide), if_pos rfl, hpanels, filter_pair _ _ _ hx hx' hto.le (by omega)]
    refine congrArg (fun a => [a]) ?_
    split_ifs <;> omega
  · -- the widget before comes first
    have hpanels : (if w.activeWidget = 0 then ((7 : ℤ) - 1, w.scroll - 800)
        else (w.activeWidget - 1, w.scroll - 800)) =
          (if w.activeWidget = 0 then 6 else w.activeWidget - 1, w.scroll - 800) := by
      split_ifs <;> rfl
    have hback : w.scroll = w.scroll - 800 + 800 := by omega
    rw [if_neg (by decide), if_neg (by decide), if_pos rfl, hpanels]
    have hpair := filter_pair (if w.activeWidget = 0 then 6 else w.activeWidget - 1) w.activeWidget
      (w.scroll - 800) hx hx' (by omega) (by omega)
    rw [← hback] at hpair
    rw [hpair]
    refine congrArg (fun a => [a]) ?_
    split_ifs <;> omega

/-- Whatever the frames, each column of the screen shows one widget, and all of them those which a
row of the seven widgets has there, which moves by 70 pixels at most from one frame to the next. -/
theorem panels_cover (millis : ℕ) (frames : List Frame) (f : Frame) :
    let s := exec step (start millis) frames
    (∀ x, 0 ≤ x → x < 800 → widgetsAt s.WIDGETS x = [(position s.WIDGETS + x) / 800 % 7]) ∧
      ∃ d, (-70 ≤ d ∧ d ≤ 70) ∧
        position (step s f).WIDGETS ≡ position s.WIDGETS + d [ZMOD 5600] := by
  have hinv := inv_exec millis frames
  exact ⟨fun x hx hx' => hinv.placed.widgetsAt hx hx', hinv.moved f⟩

/-! ## Swipes and widgets -/

/-- By how many widgets a gesture moves the row. -/
def turn : Gest → ℤ
  | .GEST_MOVE_LEFT => 1
  | .GEST_MOVE_RIGHT => -1
  | .GEST_NONE | .GEST_MOVE_DOWN => 0

/-- The swipe that a frame of the main page reports. -/
def reported (s : State) : Frame → ℤ
  | .main i =>
      if s.gestureDetected = .GEST_NONE then turn (s.detectGestures i).gestureDetected else 0
  | .other _ | .settings => 0

def swipes : State → List Frame → ℤ
  | _, [] => 0
  | s, f :: fs => reported s f + swipes (step s f) fs

/-- A frame behind a gesture is not ignored. -/
def Prompt (s : State) : Frame → Prop
  | .main i | .other i =>
      s.gestureDetected = .GEST_NONE ∨ (s.ignoreGesture i.track_tag i.millis).1 = false
  | .settings => True

instance (s : State) : ∀ f, Decidable (Prompt s f)
  | .main _ | .other _ => inferInstanceAs (Decidable (_ ∨ _))
  | .settings => isTrue trivial

theorem target_step {s : State} (h : Inv s) {f : Frame} (hprompt : Prompt s f) :
    (step s f).WIDGETS.activeWidget - (step s f).WIDGETS.scrollDir ≡
      s.WIDGETS.activeWidget - s.WIDGETS.scrollDir + reported s f [ZMOD 7] := by
  cases f with
  | other i =>
      obtain ⟨-, hactive, hdir, -, -, -⟩ := detect s i
      rw [step, hactive, hdir, reported, add_zero]
  | settings => rw [step, reported, add_zero]
  | main i =>
      obtain ⟨-, hactive, hdir, -, hended, hfound⟩ := detect s i
      have htarget := ((h.detect i).placed.handle (h.detect i).fits).target
      refine htarget.trans ?_
      rw [hactive, directed_congr hdir]
      by_cases hnone : s.gestureDetected = .GEST_NONE
      · rw [reported, if_pos hnone]
        have hrest := hfound hnone
        have hturn : s.WIDGETS.activeWidget -
            directed s.WIDGETS (s.detectGestures i).gestureDetected =
              s.WIDGETS.activeWidget - s.WIDGETS.scrollDir +
                turn (s.detectGestures i).gestureDetected := by
          cases hg : (s.detectGestures i).gestureDetected with
          | GEST_NONE | GEST_MOVE_DOWN =>
              simp only [directed, turn]
              omega
          | GEST_MOVE_LEFT | GEST_MOVE_RIGHT =>
              have hdir := hrest (by rw [hg]; decide)
              simp only [directed, turn]
              omega
        rw [hturn]
      · rw [reported, if_neg hnone, hended (hprompt.resolve_left hnone) hnone, add_zero]
        exact Int.ModEq.rfl

theorem target_run {s : State} (h : Inv s) {frames : List Frame}
    (hprompt : Guarded step Prompt s frames) :
    (exec step s frames).WIDGETS.activeWidget - (exec step s frames).WIDGETS.scrollDir ≡
      s.WIDGETS.activeWidget - s.WIDGETS.scrollDir + swipes s frames [ZMOD 7] := by
  induction frames generalizing s with
  | nil => rw [swipes, add_zero]; exact Int.ModEq.rfl
  | cons f frames ih =>
      have hfirst := (target_step h hprompt.1).add_right (swipes (step s f) frames)
      rw [add_assoc] at hfirst
      exact (ih (h.step f) hprompt.2).trans hfirst

/-- Each swipe to the left brings the next widget and each to the right the one before, whatever
else happens on the screen, as long as no slider is touched in the frame behind a gesture. -/
theorem swipes_move_widgets {millis : ℕ} {frames : List Frame}
    (hprompt : Guarded step Prompt (start millis) frames) :
    let s := exec step (start millis) frames
    s.WIDGETS.activeWidget - s.WIDGETS.scrollDir ≡ swipes (start millis) frames [ZMOD 7] ∧
      (s.WIDGETS.scrollDir = 0 →
        s.WIDGETS.activeWidget = swipes (start millis) frames % 7) := by
  have htarget := target_run (inv_start millis) hprompt
  have hactive := (inv_exec millis frames).placed.active
  have hfirst : (start millis).WIDGETS.activeWidget - (start millis).WIDGETS.scrollDir = 0 := rfl
  rw [hfirst, zero_add] at htarget
  refine ⟨htarget, fun hrest => ?_⟩
  rw [hrest, sub_zero] at htarget
  exact (Int.emod_eq_of_lt hactive.1 hactive.2).symm.trans htarget

/-- A finger on the lower half that goes to the left, and is gone. -/
def leftSwipe : List Frame :=
  [.main ⟨0, 700, 400, 100, false⟩, .main ⟨0, 660, 400, 120, false⟩,
    .main ⟨0, 620, 400, 140, false⟩] ++
      List.replicate 11 (.main ⟨0, -32768, -32768, 160, false⟩)

theorem swipes_move_widgets_leftSwipe :
    (exec step (start 0) leftSwipe).WIDGETS.activeWidget = 1 :=
  (swipes_move_widgets (by decide : Guarded step Prompt (start 0) leftSwipe)).2 (by decide)

/-! ## A slow finger -/

/-- A finger that is not there, is put down, or is not far from where it was. -/
def Slow (s : State) : Frame → Prop
  | .main i | .other i =>
      State.released i ∨ (s.gestOldX = -32768 ∧ 0 ≤ i.x) ∨
        (-20 ≤ i.x - s.gestOldX ∧ i.x - s.gestOldX ≤ 20 ∧ i.y - s.gestOldY ≤ 10)
  | .settings => True

instance (s : State) : ∀ f, Decidable (Slow s f)
  | .main _ | .other _ => inferInstanceAs (Decidable (_ ∨ _))
  | .settings => isTrue trivial

/-- Nothing has been found so far; only putting the finger down has counted. -/
structure Calm (s : State) : Prop where
  gesture : s.gestureDetected = .GEST_NONE
  durationX : s.gestDurationX ≤ 1
  durationY : s.gestDurationY = 0
  lifted : s.gestOldX = -32768 → s.gestDurationX = 0

/-- Distances that are no swipe count nothing. -/
theorem moveSideways_slow {s : State} {x y dx : ℤ} (hleft : -20 ≤ dx) (hright : dx ≤ 20) :
    s.moveSideways x y dx = s := by
  rw [State.moveSideways, if_neg (by omega), if_neg (by omega)]

theorem moveSideways_once {s : State} (h : s.gestDurationX = 0) (x y dx : ℤ) :
    (s.moveSideways x y dx).gestDurationX ≤ 1 ∧
      (s.moveSideways x y dx).gestDurationY = s.gestDurationY ∧
      (s.moveSideways x y dx).gestureDetected = s.gestureDetected := by
  unfold State.moveSideways
  dsimp only
  rw [h]
  split_ifs <;> simp_all

theorem moveDown_slow {s : State} {y dx dy : ℤ} (h : dy ≤ 10 ∨ 20 ≤ dx) :
    s.moveDown y dx dy = s := by
  rw [State.moveDown, if_neg (by omega)]

theorem recognise_calm {s : State} {i : Inputs} {dx dy : ℤ} (hnone : s.gestureDetected = .GEST_NONE)
    (hleft : -20 ≤ dx) (hright : dx ≤ 20) (hdown : dy ≤ 10) : s.recognise i dx dy = s := by
  rw [State.recognise, if_pos hnone, moveSideways_slow hleft hright, ite_self,
    moveDown_slow (Or.inl hdown)]

theorem Calm.look {s : State} (h : Calm s) {i : Inputs}
    (hslow : State.released i ∨ (s.gestOldX = -32768 ∧ 0 ≤ i.x) ∨
      (-20 ≤ i.x - s.gestOldX ∧ i.x - s.gestOldX ≤ 20 ∧ i.y - s.gestOldY ≤ 10)) :
    Calm (s.look i) := by
  have hnone : (s.rested i).gestureDetected = .GEST_NONE := by rw [rested_gesture, h.gesture]
  rw [State.look]
  by_cases hreleased : State.released i
  · have hx : s.gestDistanceX i = 0 := if_pos hreleased
    have hy : s.gestDistanceY i = 0 := if_pos hreleased
    rw [hx, hy, recognise_calm hnone (by decide) (by decide) (by decide), State.rested,
      if_pos hreleased]
    exact ⟨h.gesture, Int.zero_le_ofNat 1, rfl, fun _ => rfl⟩
  · have hx : s.gestDistanceX i = i.x - s.gestOldX := if_neg hreleased
    have hy : s.gestDistanceY i = i.y - s.gestOldY := if_neg hreleased
    have hrested : s.rested i = s := if_neg hreleased
    rw [hrested] at hnone ⊢
    rcases hslow.resolve_left hreleased with ⟨hold, hdown⟩ | ⟨hleft, hright, hdown⟩
    · -- the finger is put down
      have hfar : 20 ≤ s.gestDistanceX i := by omega
      obtain ⟨hdurationX, hdurationY, hgesture⟩ :=
        moveSideways_once (h.lifted hold) i.x i.y (s.gestDistanceX i)
      rw [State.recognise, if_pos hnone, moveDown_slow (Or.inr hfar)]
      have hold' : i.x = -32768 → False := by omega
      split_ifs
      · exact ⟨h.gesture, h.durationX, h.durationY, fun hx => (hold' hx).elim⟩
      · exact ⟨hgesture.trans h.gesture, hdurationX, hdurationY.trans h.durationY,
          fun hx => (hold' hx).elim⟩
    · rw [hx, hy, recognise_calm hnone hleft hright hdown]
      exact ⟨h.gesture, h.durationX, h.durationY, fun hx => absurd hx hreleased⟩

theorem Calm.detect {s : State} (h : Calm s) {i : Inputs}
    (hslow : State.released i ∨ (s.gestOldX = -32768 ∧ 0 ≤ i.x) ∨
      (-20 ≤ i.x - s.gestOldX ∧ i.x - s.gestOldX ≤ 20 ∧ i.y - s.gestOldY ≤ 10)) :
    Calm (s.detectGestures i) := by
  obtain ⟨timer, tracking, hignore⟩ := ignoreGesture_eq s i.track_tag i.millis
  unfold State.detectGestures
  generalize s.ignoreGesture i.track_tag i.millis = r at hignore ⊢
  obtain ⟨ignored, s₁⟩ := r
  dsimp only at hignore ⊢
  have hcalm : Calm s₁ := by
    rw [hignore]
    exact ⟨h.gesture, h.durationX, h.durationY, h.lifted⟩
  split_ifs
  · exact hcalm
  · refine hcalm.look ?_
    rw [hignore]
    exact hslow

/-- Nothing found, and the widgets as they were at the start. -/
structure AtRest (s : State) : Prop where
  calm : Calm s
  scroll : s.WIDGETS.scroll = 0
  activeWidget : s.WIDGETS.activeWidget = 0
  scrollDir : s.WIDGETS.scrollDir = 0

theorem AtRest.detect {s : State} (h : AtRest s) {i : Inputs} (hslow : Slow s (.main i)) :
    AtRest (s.detectGestures i) := by
  obtain ⟨hscroll, hactive, hdir, -, -, -⟩ := Swipes.detect s i
  exact ⟨h.calm.detect hslow, hscroll.trans h.scroll, hactive.trans h.activeWidget,
    hdir.trans h.scrollDir⟩

theorem AtRest.step {s : State} {f : Frame} (h : AtRest s) (hslow : Slow s f) :
    AtRest (Swipes.step s f) := by
  cases f with
  | main i =>
      have hdetect := h.detect hslow
      have hstill : (s.detectGestures i).WIDGETS.handleWidgetScrollPosition
          (s.detectGestures i).gestureDetected = { (s.detectGestures i).WIDGETS with
            scrollDir := 0
            scroll := 0 } := by
        have hdir : directed (s.detectGestures i).WIDGETS .GEST_NONE = 0 := hdetect.scrollDir
        rw [hdetect.calm.gesture, handle_between (Or.inl hdir), hdir, hdetect.scroll]
        rfl
      have hcalm := hdetect.calm
      refine ⟨⟨hcalm.gesture, hcalm.durationX, hcalm.durationY, hcalm.lifted⟩, ?_, ?_, ?_⟩
      · exact congrArg WidgetsClass.scroll hstill
      · exact (congrArg WidgetsClass.activeWidget hstill).trans hdetect.activeWidget
      · exact congrArg WidgetsClass.scrollDir hstill
  | other i => exact h.detect hslow
  | settings => exact h

/-- A finger that is put down and drawn aside by 18 pixels a frame. -/
def slowFinger : List Frame :=
  [.main ⟨0, -32768, -32768, 100, false⟩, .main ⟨0, 700, 400, 120, false⟩,
    .main ⟨0, 682, 401, 140, false⟩, .main ⟨0, 664, 402, 160, false⟩,
    .main ⟨0, 646, 400, 180, false⟩, .main ⟨0, -32768, -32768, 200, false⟩]

end Swipes
end PoorMansSmu
