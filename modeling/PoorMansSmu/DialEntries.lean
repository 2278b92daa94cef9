import PoorMansSmu.Actions
import Mathlib.Tactic.Linarith
import Mathlib.Tactic.NormNum
import Mathlib.Tactic.Positivity

/-!
# DialEntries — what the dials accept

The OK key of a dial is there to be touched if the entry on its display was validated without error
and warning.  An entry that passes stays below the bound of its validation, 30 V or
`max_current_1A_range`.
-/

namespace PoorMansSmu

namespace FrontPanel

open SmuHal

/-! ## The value on the display -/

theorem DialDisplay.toMvFrom_nonneg (x : DialDisplay) (fuel i dec : ℕ) {sum : ℚ} (hsum : 0 ≤ sum) :
    0 ≤ x.toMvFrom fuel i dec sum := by
  induction fuel generalizing i dec sum with
  | zero => exact hsum
  | succ fuel ih =>
      have hentry : ∀ dec i, 0 ≤
          if dec = 0 then
            x.toMvFrom fuel (i + 1) dec
              (if sum = 0 then x.dialEntries i else sum * 10 + x.dialEntries i)
          else x.toMvFrom fuel (i + 1) (dec + 1) (sum + x.dialEntries i / 10 ^ dec) := by
        intro dec i
        split_ifs
        · exact ih _ _ (by positivity)
        · exact ih _ _ (by positivity)
        · exact ih _ _ (by positivity)
      unfold DialDisplay.toMvFrom
      by_cases hmore : i < x.digits
      · rw [if_pos hmore]
        by_cases hcomma : x.dialEntries i = KEYBOARD_COMMA
        · rw [if_pos hcomma]
          exact hentry 1 (i + 1)
        · rw [if_neg hcomma]
          exact hentry dec i
      · rw [if_neg hmore]
        exact hsum

/-- The display has no sign: it shows what the sign goes before. -/
theorem DialDisplay.toMv_nonneg (x : DialDisplay) : 0 ≤ x.toMv := by
  have hsum := x.toMvFrom_nonneg x.digits 0 0 le_rfl
  unfold DialDisplay.toMv
  cases x.voltDecade with
  | V => exact mul_nonneg hsum (by norm_num)
  | mV => exact hsum
  | uV => exact div_nonneg hsum (by norm_num)

/-! ## Validation -/

/-- Nothing passes without digits, or with a comma at the end. -/
theorem validateDigits_ok {x : DialDisplay} {verdict : Verdict}
    (h : validateDigits x verdict = .ok) : verdict = .ok := by
  unfold validateDigits at h
  split_ifs at h
  exact h

/-- An entry in millionths stays below a thousand thousandths. -/
theorem lt_of_numberValue {mv : ℚ} (h : ¬ numberValue mv > 999) : mv < 1000 := by
  unfold numberValue at h
  have hfloor : ⌊mv * 1000 + 1 / 2⌋ < 1000000 := by omega
  have hlt := Int.floor_lt.1 hfloor
  push_cast at hlt
  linarith

/-- An entry in units or thousandths is compared with the bound. -/
theorem le_of_inBound {mv bound : ℚ} (hmv : 0 ≤ mv) {verdict : Verdict}
    (h : (if |mv| > bound then Verdict.error else verdict) = .ok) : mv ≤ bound := by
  split_ifs at h with hbound
  exact (abs_of_nonneg hmv).symm.trans_le (not_lt.1 hbound)

theorem validateAnyVoltage_ok {x : DialDisplay} {mv : ℚ} (hmv : 0 ≤ mv)
    (h : validateAnyVoltage x mv = .ok) : mv ≤ 30000 := by
  have hverdict := validateDigits_ok h
  cases hdecade : x.voltDecade with
  | V =>
      rw [hdecade] at hverdict
      exact le_of_inBound hmv hverdict
  | mV =>
      rw [hdecade] at hverdict
      exact le_of_inBound hmv hverdict
  | uV =>
      simp only [hdecade] at hverdict
      split_ifs at hverdict with hnumber
      have hlt := lt_of_numberValue hnumber
      linarith

theorem validateAnyCurrent_ok {x : DialDisplay} {mv : ℚ} {tooFine : Prop} [Decidable tooFine]
    (hmv : 0 ≤ mv) (h : validateAnyCurrent x mv tooFine = .ok) : mv ≤ max_current_1A_range := by
  have hverdict := validateDigits_ok h
  cases hdecade : x.voltDecade with
  | V =>
      rw [hdecade] at hverdict
      exact le_of_inBound hmv hverdict
  | mV =>
      rw [hdecade] at hverdict
      exact le_of_inBound hmv hverdict
  | uV =>
      simp only [hdecade] at hverdict
      split_ifs at hverdict with hnumber
      have hlt := lt_of_numberValue hnumber
      unfold max_current_1A_range
      linarith

namespace DialClass

/-- The bound of what a dial is opened for, in thousandths. -/
def entryBound : Quantity → ℚ
  | .microVolt => 30000
  | .microAmpere => max_current_1A_range

/-- What a dial enters: the quantity that is sourced, or the one that limits. -/
def entryQuantity (set_or_limit : SetOrLimit) (type : OperationType) : Quantity :=
  match set_or_limit, type with
  | .SET, .SOURCE_VOLTAGE => .microVolt
  | .SET, .SOURCE_CURRENT => .microAmpere
  | .LIMIT, type => type.limitQuantity

/-- What passes is within the bound. -/
theorem validate_ok {d : DialClass} {set_or_limit : SetOrLimit} {x : DialDisplay} {mv : ℚ}
    (hmv : 0 ≤ mv) (h : d.validate set_or_limit x mv = .ok) :
    mv ≤ entryBound (entryQuantity set_or_limit d.vol_cur_type) := by
  unfold validate at h
  split at h
  · next htype =>
      rw [htype]
      exact validateAnyVoltage_ok hmv h
  · next htype =>
      rw [htype]
      exact validateAnyCurrent_ok hmv h
  · next htype =>
      rw [htype]
      exact validateAnyCurrent_ok hmv h
  · next htype =>
      rw [htype]
      exact validateAnyVoltage_ok hmv h

/-- The OK key is drawn exactly for an entry that passes, and the value kept is the one that was
validated. -/
theorem handleKeypadDialog_validated {d : DialClass} {set_or_limit : SetOrLimit} {x : DialDisplay}
    (hdialog : (d.handleKeypadDialog set_or_limit x).dialog = true)
    (hdrawn : (d.handleKeypadDialog set_or_limit x).okDrawn = true) :
    (d.handleKeypadDialog set_or_limit x).mv = x.toMv ∧
      (d.handleKeypadDialog set_or_limit x).vol_cur_type = d.vol_cur_type ∧
      d.validate set_or_limit x x.toMv = .ok := by
  unfold handleKeypadDialog at *
  split_ifs at * with hclosed
  · rw [hclosed] at hdialog
    cases hdialog
  · simp only at *
    -- the flags of before count only if the verdict is not `ok`
    cases hverdict : ({ d with mv := x.toMv } : DialClass).validate set_or_limit x x.toMv with
    | ok => exact ⟨rfl, rfl, hverdict⟩
    | warning =>
        rw [hverdict] at hdrawn
        simp at hdrawn
    | error =>
        rw [hverdict] at hdrawn
        simp at hdrawn

/-- While a dialog is open and its OK key drawn, the value kept is within the bound of the quantity
the dial was opened for. -/
def Validated (set_or_limit : SetOrLimit) (d : DialClass) : Prop :=
  d.dialog = true → d.okDrawn = true →
    0 ≤ d.mv ∧ d.mv ≤ entryBound (entryQuantity set_or_limit d.vol_cur_type)

theorem handleKeypadDialog_keeps (d : DialClass) (set_or_limit : SetOrLimit) (x : DialDisplay) :
    Validated set_or_limit (d.handleKeypadDialog set_or_limit x) := by
  intro hdialog hdrawn
  obtain ⟨hmv, htype, hok⟩ := handleKeypadDialog_validated hdialog hdrawn
  rw [hmv, htype]
  exact ⟨x.toMv_nonneg, validate_ok x.toMv_nonneg hok⟩

theorem Validated.of_same {set_or_limit : SetOrLimit} {d d' : DialClass}
    (h : Validated set_or_limit d) (hsame : Program.SameDial d d') :
    Validated set_or_limit d' := by
  intro hdialog hdrawn
  rw [hsame.mv, hsame.vol_cur_type]
  exact h (hsame.dialog hdialog) (hsame.okDrawn.symm.trans hdrawn)

/-- The value a dial commits, in millionths, within its bound. -/
theorem abs_getMv_le {d : DialClass} {bound : ℚ} (hnonneg : 0 ≤ d.mv) (hle : d.mv ≤ bound) :
    |(truncate (d.getMv * 1000) : ℚ)| ≤ bound * 1000 := by
  -- the sign is kept apart from the entry
  have habs : |d.getMv| = d.mv := by
    unfold getMv
    split_ifs
    · rw [abs_neg, abs_of_nonneg hnonneg]
    · exact abs_of_nonneg hnonneg
  calc |(truncate (d.getMv * 1000) : ℚ)|
      ≤ |d.getMv * 1000| := abs_truncate_le _
    _ = d.mv * 1000 := by rw [abs_mul, habs]; norm_num
    _ ≤ bound * 1000 := mul_le_mul_of_nonneg_right hle (by norm_num)

end DialClass

end FrontPanel
end PoorMansSmu
