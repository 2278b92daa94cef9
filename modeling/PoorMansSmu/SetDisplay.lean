import PoorMansSmu.DigitSplit
import Mathlib.Algebra.Order.Floor.Ring

/-!
# SetDisplay — the set value and the limit as they are drawn

Below the measured value the displays show what was set, in micro-units, as whole units, milli and
micro.  Each part is what the parts before it leave, except the last one: only the milli-units are
taken off for it, not the whole units.

- `setParts_eq`    : the three numbers, as quotients and remainders of the set value;
- `restores_iff`   : they are the digits of the set value when that is less than a whole unit;
- `drawn_fits_iff` : otherwise the last number does not fit the place it is drawn in.
-/

namespace PoorMansSmu
namespace SetDisplay

open DigitSplit

/-- The commands to the display controller. -/
inductive Command
  | cmd_text (x y : ℤ) (font options : ℕ) (s : String)
  | cmd_number (x y : ℤ) (font options : ℕ) (n : ℤ)
  deriving DecidableEq

/-- What `separate64t` writes; the value in milli-units is a whole number here. -/
def separate64t (rawMv : ℤ) : Parts :=
  let neg := decide (rawMv < 0)
  let rawMv := if rawMv < 0 then 0 - rawMv else rawMv
  let v := wrap32 (rawMv.tdiv 1000)
  let mv := wrap32 (rawMv - v * 1000)
  let uv_f : ℚ := (rawMv - wrap32 rawMv) * 1000
  let uv := truncate uv_f
  let nv := truncate ((uv_f - truncate uv_f) * 1000)
  { v, mv, uv, nv, neg }

/-- Whole units, milli and micro: `v`, `mv`, `uv` of one display and `a`, `ma`, `ua` of the other. -/
structure SetParts where
  whole : ℤ
  milli : ℤ
  micro : ℤ
  deriving DecidableEq

/-- The three numbers as both displays take them from the set value. -/
def setParts (raw : ℤ) : SetParts :=
  let whole := wrap32 ((|raw|.tdiv 1000).tdiv 1000)
  let rest : ℚ := |raw| - wrap32 (whole * 1000 * 1000)
  let milli := truncate (rest / 1000)
  -- the whole units are in the remainder again
  let rest : ℚ := |raw| - wrap32 (milli * 1000)
  let micro := truncate rest
  { whole, milli, micro }

namespace VoltDisplayClass

def setParts (raw_uV : ℤ) : SetParts := SetDisplay.setParts raw_uV

def renderSet (x y raw_uV : ℤ) : List Command :=
  let rawMv : ℚ := raw_uV / 1000
  let neg := (separate2 rawMv).neg
  let ⟨v, mv, uv⟩ := setParts raw_uV
  [.cmd_text x y 31 3 (if neg then "-" else "+"),
    .cmd_number (x + 25) y 31 2 v,
    .cmd_number (x + 85) y 31 3 mv,
    .cmd_text (x + 73) y 31 0 ".",
    .cmd_number (x + 165) y 31 2 (uv.tdiv 10),
    .cmd_text (x + 215) y 31 0 "V"]

end VoltDisplayClass

namespace CurrentDisplayClass

def setParts (raw_uA : ℤ) : SetParts := SetDisplay.setParts raw_uA

def renderSet (x y raw_uA : ℤ) (current_range : CurrentRange) : List Command :=
  let rawMa : ℚ := raw_uA / 1000
  let na := (separate64t (truncate rawMa)).nv
  let ⟨a, ma, ua⟩ := setParts raw_uA
  let sign : List Command := if rawMa < 0 then [.cmd_text x y 31 0 "-"] else []
  let x := x + 20
  sign ++
    match current_range with
    | .AMP1 =>
        [.cmd_number (x + 5) y 31 1 a,
          .cmd_text (x + 30) y 31 0 ".",
          .cmd_number (x + 40) y 31 3 ma,
          .cmd_number (x + 120) y 31 2 (ua.tdiv 10),
          .cmd_text (x + 165) y 31 0 "A"]
    | .MILLIAMP10 =>
        [.cmd_number (x + 5) y 31 2 ma,
          .cmd_text (x + 50) y 31 0 ".",
          .cmd_number (x + 60) y 31 3 ua,
          .cmd_number (x + 136) y 31 1 (na.tdiv 100),
          .cmd_text (x + 160) y 31 0 "mA"]

end CurrentDisplayClass

/-- The parts are the digits of the set value to the base 1000. -/
def Restores (raw : ℤ) (p : SetParts) : Prop :=
  (0 ≤ p.milli ∧ p.milli ≤ 999) ∧ (0 ≤ p.micro ∧ p.micro ≤ 999) ∧
    p.whole * 1000000 + p.milli * 1000 + p.micro = |raw|

instance (raw : ℤ) (p : SetParts) : Decidable (Restores raw p) :=
  inferInstanceAs (Decidable (_ ∧ _))

/-- A number has no more digits than its place. -/
def Fits : Command → Prop
  | .cmd_text _ _ _ _ _ => True
  | .cmd_number _ _ _ options n => n < 10 ^ options

/-! ## The parts -/

/-- The fraction of a quotient of whole numbers is dropped. -/
theorem truncate_div {n : ℤ} (hn : 0 ≤ n) (b : ℕ) : truncate ((n : ℚ) / b) = n / b := by
  have hquotient : (0 : ℚ) ≤ n / b := by
    apply div_nonneg
    · exact_mod_cast hn
    · exact_mod_cast Nat.zero_le b
  rw [truncate_of_nonneg hquotient, Int.floor_div_natCast, Int.floor_intCast]

theorem truncate_intCast (n : ℤ) : truncate (n : ℚ) = n := by
  unfold truncate
  split_ifs
  · exact Int.ceil_intCast n
  · exact Int.floor_intCast n

theorem setParts_eq {raw : ℤ} (hfits : |raw| < 100000000) :
    setParts raw =
      { whole := |raw| / 1000000
        milli := |raw| % 1000000 / 1000
        micro := |raw| / 1000000 * 1000000 + |raw| % 1000 } := by
  have hraw : 0 ≤ |raw| := abs_nonneg raw
  have hwhole : wrap32 ((|raw|.tdiv 1000).tdiv 1000) = |raw| / 1000000 := by
    rw [Int.tdiv_eq_ediv_of_nonneg hraw, Int.tdiv_eq_ediv_of_nonneg (by omega),
      wrap32_of_fits (by omega) (by omega)]
    omega
  have hwhole' : wrap32 (|raw| / 1000000 * 1000 * 1000) = |raw| / 1000000 * 1000 * 1000 :=
    wrap32_of_fits (by omega) (by omega)
  have hmilli' : wrap32 (|raw| % 1000000 / 1000 * 1000) = |raw| % 1000000 / 1000 * 1000 :=
    wrap32_of_fits (by omega) (by omega)
  have hrest : ((|raw| : ℤ) : ℚ) - ((|raw| / 1000000 * 1000 * 1000 : ℤ) : ℚ) =
      ((|raw| % 1000000 : ℤ) : ℚ) := by
    have hint : |raw| - |raw| / 1000000 * 1000 * 1000 = |raw| % 1000000 := by omega
    exact_mod_cast hint
  have hmilli : truncate (((|raw| % 1000000 : ℤ) : ℚ) / 1000) = |raw| % 1000000 / 1000 := by
    have hdiv := truncate_div (n := |raw| % 1000000) (by omega) 1000
    exact_mod_cast hdiv
  have hmicro : truncate (((|raw| : ℤ) : ℚ) - ((|raw| % 1000000 / 1000 * 1000 : ℤ) : ℚ)) =
      |raw| / 1000000 * 1000000 + |raw| % 1000 := by
    -- taking the milli-units off leaves the whole units where they are
    have hint : |raw| - |raw| % 1000000 / 1000 * 1000 =
        |raw| / 1000000 * 1000000 + |raw| % 1000 := by omega
    rw [← hint, ← truncate_intCast (|raw| - |raw| % 1000000 / 1000 * 1000)]
    push_cast
    rfl
  unfold setParts
  simp only [hwhole, hwhole', hrest, hmilli, hmilli', hmicro]

theorem restores_iff {raw : ℤ} (hfits : |raw| < 100000000) :
    Restores raw (setParts raw) ↔ |raw| < 1000000 := by
  have hraw : 0 ≤ |raw| := abs_nonneg raw
  rw [setParts_eq hfits]
  unfold Restores
  constructor
  · rintro ⟨-, ⟨-, hmicro⟩, -⟩
    dsimp only at hmicro
    omega
  · intro hsmall
    refine ⟨⟨?_, ?_⟩, ⟨?_, ?_⟩, ?_⟩
    all_goals
      dsimp only
      omega

/-- The parts on both displays are the digits of the set value exactly below a whole unit. -/
theorem renderSet_parts_iff {r : ℤ} (hr : |r| < 100000000) :
    (Restores r (VoltDisplayClass.setParts r) ↔ |r| < 1000000) ∧
      (Restores r (CurrentDisplayClass.setParts r) ↔ |r| < 1000000) :=
  ⟨restores_iff hr, restores_iff hr⟩

/-- The digits of 999.999 milli-units, below zero. -/
theorem renderSet_parts_small :
    Restores (-999999) (VoltDisplayClass.setParts (-999999)) ∧
      Restores (-999999) (CurrentDisplayClass.setParts (-999999)) := by
  have hparts := renderSet_parts_iff (r := -999999) (by decide)
  exact ⟨hparts.1.2 (by decide), hparts.2.2 (by decide)⟩

/-- With 1.234567 V set, 1000567 is to be drawn as microvolts. -/
theorem not_restores_volt :
    |(1234567 : ℤ)| < 100000000 ∧
      VoltDisplayClass.setParts 1234567 = { whole := 1, milli := 234, micro := 1000567 } ∧
      ¬ Restores 1234567 (VoltDisplayClass.setParts 1234567) := by
  decide +kernel

/-! ## The drawing -/

/-- The numbers of the set voltage fit their places exactly below a whole unit. -/
theorem drawn_fits_iff (x y : ℤ) {r : ℤ} (hr : |r| < 100000000) :
    (∀ c ∈ VoltDisplayClass.renderSet x y r, Fits c) ↔ |r| < 1000000 := by
  have hraw : 0 ≤ |r| := abs_nonneg r
  have hmicro : (|r| / 1000000 * 1000000 + |r| % 1000).tdiv 10 =
      (|r| / 1000000 * 1000000 + |r| % 1000) / 10 :=
    Int.tdiv_eq_ediv_of_nonneg (by omega)
  unfold VoltDisplayClass.renderSet VoltDisplayClass.setParts
  rw [setParts_eq hr]
  simp only [List.forall_mem_cons, List.not_mem_nil, false_imp_iff, implies_true, Fits, true_and,
    and_true, hmicro]
  constructor
  · rintro ⟨-, -, hlast⟩
    norm_num at hlast
    omega
  · intro hsmall
    refine ⟨?_, ?_, ?_⟩
    all_goals
      norm_num
      omega

end SetDisplay
end PoorMansSmu
