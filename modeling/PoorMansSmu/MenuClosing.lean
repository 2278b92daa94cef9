import PoorMansSmu.FrontPanel
import PoorMansSmu.Lib.Run

/-!
# MenuClosing — how often the main menu reports a choice

Closing the menu calls the callback and lets the menu slide out; when it is out it counts as active
for another 50 ms.  The only guard against closing twice is that keys do nothing while the menu moves,
and it does not move in that time either.

So the callback is called once for each opening, as long as no key of the menu is found while the
menu is only kept active (`always_once_iff`).
-/

namespace PoorMansSmu
namespace MenuClosing

open FrontPanel

/-! ## State -/

/-- The menu, and what has become of its callback. -/
structure State where
  menu : MainMenuClass := {}
  /-- How often it was called since the menu was opened last. -/
  calls : ℕ := 0
  /-- How often it was called while the menu was only kept active. -/
  keptActiveCalls : ℕ := 0

inductive Event
  | open_
  | render (inputTag : Tag) (millis : ℕ)
  | handleButtonAction (inputTag : Tag)

/-- Take over what a method of the menu returns. -/
def State.count (s : State) (result : MainMenuClass × Option FunctionType) : State where
  menu := result.1
  calls := if result.2.isSome then s.calls + 1 else s.calls
  keptActiveCalls :=
    if result.2.isSome ∧ s.menu.toBeDisactive then s.keptActiveCalls + 1 else s.keptActiveCalls

def step (s : State) : Event → State
  | .open_ => { s with menu := s.menu.open_, calls := 0 }
  | .render inputTag millis => s.count (s.menu.render inputTag millis)
  | .handleButtonAction inputTag => s.count (s.menu.handleButtonAction inputTag)

/-- The callback was called at most once since the menu was opened, and never while the menu was only
kept active. -/
def Once (s : State) : Prop :=
  s.calls ≤ 1 ∧ s.keptActiveCalls = 0

/-! ## The methods of the menu -/

/-- The menu after the first statements of `render`, which move it. -/
def slide (m : MainMenuClass) : MainMenuClass :=
  let m := { m with scrollMainMenu := m.scrollMainMenu + m.scrollMainMenuDir * 30 }
  if m.scrollMainMenu > 350 then { m with scrollMainMenu := 350, scrollMainMenuDir := 0 } else m

/-- The statements of `render` for a menu that is sliding out. -/
def slideOut (m : MainMenuClass) (millis : ℕ) : MainMenuClass :=
  if m.scrollMainMenuDir = -1 then
    let m := { m with scrollMainMenu := m.scrollMainMenu + m.scrollMainMenuDir * 15 }
    if m.scrollMainMenu < 0 then
      { m with
        keepActiveForAWhileTimer := millis
        scrollMainMenu := 0
        toBeDisactive := true
        scrollMainMenuDir := 0 }
    else m
  else m

/-- The last statement of `render`, which ends the time the menu is kept active. -/
def disactivate (m : MainMenuClass) (millis : ℕ) : MainMenuClass :=
  if m.toBeDisactive ∧ elapsed m.keepActiveForAWhileTimer 50 millis then
    { m with active := false, toBeDisactive := false }
  else m

theorem render_eq (m : MainMenuClass) (inputTag : Tag) (millis : ℕ) :
    m.render inputTag millis =
      let closed :=
        if inputTag = .MAIN_MENU_CLOSE ∧ (slide m).scrollMainMenuDir = 0 then (slide m).close
        else (slide m, none)
      (disactivate (slideOut closed.1 millis) millis, closed.2) := rfl

/-- The direction is one of three, and an open menu is at its place or above. -/
structure Placed (m : MainMenuClass) : Prop where
  dir : m.scrollMainMenuDir = 0 ∨ m.scrollMainMenuDir = 1 ∨ m.scrollMainMenuDir = -1
  place : m.scrollMainMenu ≤ 350

theorem Placed.slide {m : MainMenuClass} (h : Placed m) :
    Placed (slide m) ∧ (slide m).active = m.active ∧ (slide m).toBeDisactive = m.toBeDisactive ∧
      ((slide m).scrollMainMenuDir = -1 ↔ m.scrollMainMenuDir = -1) := by
  obtain ⟨hdir, hplace⟩ := h
  unfold MenuClosing.slide
  dsimp only
  split_ifs with hend
  · refine ⟨⟨Or.inl rfl, Int.le_refl _⟩, rfl, rfl, ?_⟩
    constructor
    · intro h0
      exact absurd h0 (by decide)
    · -- a menu on its way out is below its place and does not come to its end here
      intro hm
      rw [hm] at hend
      omega
  · exact ⟨⟨hdir, by dsimp only; omega⟩, rfl, rfl, Iff.rfl⟩

theorem Placed.slideOut {m : MainMenuClass} (h : Placed m) (millis : ℕ) :
    Placed (slideOut m millis) := by
  have hplace := h.place
  unfold MenuClosing.slideOut
  dsimp only
  split_ifs with hout hgone
  · exact ⟨Or.inl rfl, by dsimp only; omega⟩
  · exact ⟨h.dir, by dsimp only; omega⟩
  · exact h

theorem Placed.disactivate {m : MainMenuClass} (h : Placed m) (millis : ℕ) :
    Placed (disactivate m millis) := by
  unfold MenuClosing.disactivate
  split
  · exact { h with }
  · exact h

/-- A key of the menu could be taken. -/
def Receptive (m : MainMenuClass) : Prop :=
  m.active = true ∧ m.toBeDisactive = false ∧ m.scrollMainMenuDir ≠ -1

theorem Placed.receptive_slide {m : MainMenuClass} (h : Placed m) :
    Receptive (MenuClosing.slide m) ↔ Receptive m := by
  obtain ⟨-, hactive, htoBe, hdir⟩ := h.slide
  unfold Receptive
  rw [hactive, htoBe, Ne, Ne, hdir]

/-- Taking the menu away does not make it receptive. -/
theorem receptive_of_slideOut {m : MainMenuClass} {millis : ℕ}
    (h : Receptive (slideOut m millis)) : Receptive m := by
  unfold slideOut at h
  dsimp only at h
  split at h
  · next hout =>
      split at h
      -- out of sight it is to be disactivated, and on its way it moves: neither takes a key
      · exact absurd h.2.1.symm Bool.false_ne_true
      · exact absurd hout h.2.2
  · exact h

theorem receptive_of_disactivate {m : MainMenuClass} {millis : ℕ}
    (h : Receptive (disactivate m millis)) : Receptive m := by
  unfold disactivate at h
  split at h
  · exact absurd h.1 Bool.false_ne_true
  · exact h

/-- What `close` leaves behind slides out. -/
theorem not_receptive_close (m : MainMenuClass) : ¬ Receptive m.close.1 :=
  fun h => h.2.2 rfl

/-! ## Runs -/

/-- The event closes the menu while it is only kept active. -/
def ClosesAgain (s : State) (e : Event) : Prop :=
  s.menu.active = true ∧ s.menu.toBeDisactive = true ∧
    match e with
    | .open_ => False
    | .render inputTag _ =>
        inputTag = .MAIN_MENU_CLOSE ∧ (slide s.menu).scrollMainMenuDir = 0
    | .handleButtonAction inputTag =>
        (MainMenuClass.buttonFunction inputTag).isSome ∧ s.menu.scrollMainMenuDir = 0

/-- The invariant: as long as a key could be taken, none has been since the menu was opened. -/
structure Inv (s : State) : Prop where
  placed : Placed s.menu
  calls : s.calls ≤ 1
  kept : s.keptActiveCalls = 0
  fresh : Receptive s.menu → s.calls = 0

theorem inv_start : Inv {} where
  placed := ⟨Or.inl rfl, by decide⟩
  calls := Nat.zero_le 1
  kept := rfl
  fresh _ := rfl

section Step

variable {s : State}

/-- A result without a call. -/
theorem Inv.count_none (h : Inv s) {m : MainMenuClass} (hplaced : Placed m)
    (hreceptive : Receptive m → Receptive s.menu) : Inv (s.count (m, none)) where
  placed := hplaced
  calls := h.calls
  kept := h.kept
  fresh hr := h.fresh (hreceptive hr)

/-- A result with a call, if the menu is active. -/
theorem Inv.count_close (h : Inv s) {m : MainMenuClass} {f : FunctionType} (hplaced : Placed m)
    (hnot : ¬ Receptive m) (hdir : s.menu.scrollMainMenuDir ≠ -1)
    (hok : ¬ (s.menu.active = true ∧ s.menu.toBeDisactive = true)) :
    Inv (s.count (m, if s.menu.active then some f else none)) := by
  cases hactive : s.menu.active
  · exact
      { placed := hplaced
        calls := h.calls
        kept := h.kept
        fresh := fun hr => absurd hr hnot }
  · -- an active menu that stands still and is not about to end was receptive: nothing was called yet
    have htoBe : s.menu.toBeDisactive = false := by
      rw [← Bool.not_eq_true]
      exact fun htrue => hok ⟨hactive, htrue⟩
    have hzero := h.fresh ⟨hactive, htoBe, hdir⟩
    refine ⟨hplaced, ?_, ?_, fun hr => absurd hr hnot⟩
    · show s.calls + 1 ≤ 1
      omega
    · simp [State.count, htoBe, h.kept]

/-- A call while the menu is only kept active is noticed. -/
theorem count_kept {m : MainMenuClass} {f : FunctionType} (hactive : s.menu.active = true)
    (htoBe : s.menu.toBeDisactive = true) :
    ¬ Once (s.count (m, if s.menu.active then some f else none)) := by
  intro honce
  have hzero := honce.2
  simp [State.count, hactive, htoBe] at hzero

theorem close_called (m : MainMenuClass) :
    m.close.2 = if m.active then some m.functionType else none := rfl

theorem Placed.close {m : MainMenuClass} (h : Placed m) : Placed m.close.1 :=
  ⟨Or.inr (Or.inr rfl), h.place⟩

/-- `handleButtonAction` closes the menu when it stands still and finds a button, and does nothing
else. -/
theorem handleButtonAction_cases (m : MainMenuClass) (inputTag : Tag) :
    (∃ f, (MainMenuClass.buttonFunction inputTag).isSome ∧ m.scrollMainMenuDir = 0 ∧
      m.handleButtonAction inputTag = ({ m with functionType := f } : MainMenuClass).close) ∨
    (¬ ((MainMenuClass.buttonFunction inputTag).isSome ∧ m.scrollMainMenuDir = 0) ∧
      m.handleButtonAction inputTag = (m, none)) := by
  unfold MainMenuClass.handleButtonAction
  by_cases hdir : m.scrollMainMenuDir = 0
  · rw [if_neg (not_not_intro hdir)]
    cases hf : MainMenuClass.buttonFunction inputTag with
    | some f => exact Or.inl ⟨f, rfl, hdir, rfl⟩
    | none => exact Or.inr ⟨fun h => absurd h.1 Bool.false_ne_true, rfl⟩
  · rw [if_pos hdir]
    exact Or.inr ⟨fun h => hdir h.2, rfl⟩

/-- `render` closes the menu when it stands still and finds the close key, and takes it away. -/
theorem render_cases (m : MainMenuClass) (inputTag : Tag) (millis : ℕ) :
    (inputTag = .MAIN_MENU_CLOSE ∧ (slide m).scrollMainMenuDir = 0 ∧
      m.render inputTag millis =
        (disactivate (slideOut (slide m).close.1 millis) millis, (slide m).close.2)) ∨
    (¬ (inputTag = .MAIN_MENU_CLOSE ∧ (slide m).scrollMainMenuDir = 0) ∧
      m.render inputTag millis = (disactivate (slideOut (slide m) millis) millis, none)) := by
  rw [render_eq]
  by_cases hclose : inputTag = .MAIN_MENU_CLOSE ∧ (slide m).scrollMainMenuDir = 0
  · exact Or.inl ⟨hclose.1, hclose.2, by rw [if_pos hclose]⟩
  · exact Or.inr ⟨hclose, by rw [if_neg hclose]⟩

theorem Inv.step (h : Inv s) {e : Event} (hok : ¬ ClosesAgain s e) : Inv (step s e) := by
  have hplaced := h.placed
  cases e with
  | open_ =>
      exact
        { placed := ⟨Or.inr (Or.inl rfl), hplaced.place⟩
          calls := Nat.zero_le 1
          kept := h.kept
          fresh := fun _ => rfl }
  | render inputTag millis =>
      obtain ⟨hslid, hactive, htoBe, hdir⟩ := hplaced.slide
      show Inv (s.count (s.menu.render inputTag millis))
      rcases render_cases s.menu inputTag millis with ⟨htag, hstill, heq⟩ | ⟨-, heq⟩
      · rw [heq, close_called, hactive]
        refine h.count_close ?_ ?_ ?_ ?_
        · exact (hslid.close.slideOut millis).disactivate millis
        · exact fun hr => not_receptive_close _ (receptive_of_slideOut (receptive_of_disactivate hr))
        · exact fun hm => absurd (hstill.symm.trans (hdir.2 hm)) (by decide)
        · exact fun hkept => hok ⟨hkept.1, hkept.2, htag, hstill⟩
      · -- nothing that `render` does by itself makes the menu receptive
        rw [heq]
        refine h.count_none ((hslid.slideOut millis).disactivate millis) fun hr => ?_
        exact hplaced.receptive_slide.1 (receptive_of_slideOut (receptive_of_disactivate hr))
  | handleButtonAction inputTag =>
      show Inv (s.count (s.menu.handleButtonAction inputTag))
      rcases handleButtonAction_cases s.menu inputTag with ⟨f, hf, hstill, heq⟩ | ⟨-, heq⟩
      · rw [heq]
        refine h.count_close (m := { s.menu with functionType := f, scrollMainMenuDir := -1 })
          ?_ ?_ ?_ ?_
        · exact ⟨Or.inr (Or.inr rfl), hplaced.place⟩
        · exact fun hr => hr.2.2 rfl
        · exact fun hm => absurd (hstill.symm.trans hm) (by decide)
        · exact fun hkept => hok ⟨hkept.1, hkept.2, hf, hstill⟩
      · rw [heq]
        exact h.count_none hplaced id

/-- Closing the menu again calls the callback at the wrong time. -/
theorem Inv.not_once (h : Inv s) {e : Event} (hbad : ClosesAgain s e) :
    ¬ Once (MenuClosing.step s e) := by
  obtain ⟨hactive, htoBe, hkey⟩ := hbad
  cases e with
  | open_ => exact absurd hkey id
  | render inputTag millis =>
      show ¬ Once (s.count (s.menu.render inputTag millis))
      rcases render_cases s.menu inputTag millis with ⟨-, -, heq⟩ | ⟨hnot, -⟩
      · obtain ⟨-, hslid, -, -⟩ := h.placed.slide
        rw [heq, close_called, hslid]
        exact count_kept hactive htoBe
      · exact absurd hkey hnot
  | handleButtonAction inputTag =>
      show ¬ Once (s.count (s.menu.handleButtonAction inputTag))
      rcases handleButtonAction_cases s.menu inputTag with ⟨f, -, -, heq⟩ | ⟨hnot, -⟩
      · rw [heq]
        exact count_kept (m := { s.menu with functionType := f, scrollMainMenuDir := -1 }) (f := f)
          hactive htoBe
      · exact absurd hkey hnot

end Step

/-- The runs in which the callback is called at most once for each opening, and not while the menu is
only kept active, are those in which no key of the menu is found in that time. -/
theorem always_once_iff (es : List Event) :
    Run.Always step Once {} es ↔ Run.Guarded step (fun s e => ¬ ClosesAgain s e) {} es :=
  Run.always_iff_guarded (fun _ h => ⟨h.calls, h.kept⟩) (fun _ _ h hok => h.step hok)
    (fun _ _ h hbad => h.not_once (not_not.1 hbad)) inv_start es

/-- The menu is opened, slides in, and the button for pulses is touched until it has slid out. -/
def longTouch : List Event :=
  .open_ :: List.replicate 12 (.render (.number 0) 1000) ++
    .handleButtonAction .MENU_BUTTON_SOURCE_PULSE ::
    List.replicate 12 (.render .MENU_BUTTON_SOURCE_PULSE 1000) ++
    [.handleButtonAction .MENU_BUTTON_SOURCE_PULSE]

theorem longTouch_calls : (Run.exec step {} longTouch).calls = 2 := by
  decide +kernel

theorem not_always_once : ¬ ∀ es : List Event, Run.Always step Once {} es := by
  intro hall
  have hlast := (hall longTouch).exec.1
  rw [longTouch_calls] at hlast
  exact absurd hlast (by decide)

end MenuClosing
end PoorMansSmu
