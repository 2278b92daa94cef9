import PoorMansSmu.Stats

/-!
# TrendAxis — the axis of the trend curve

`renderTrend` of `StatsClass` fits its axis to `minimum` and `maximum`.  The limits of the axis
follow an extreme that moves outwards at once and one that moves inwards slowly, a small span is
widened, and in the end both limits are rounded to tens of micro-units.

Rounding drops the fraction, and for the upper limit ten are added then, so that it always ends
above the maximum.  Nothing is taken from the lower limit, which for a negative value therefore
moves up.  Whether it passes the minimum depends on how much room there was below (`axis_fits_iff`).
-/

namespace PoorMansSmu
namespace TrendAxis

open Run Stats

/-! ## renderTrend -/

structure TrendView extends StatsClass where
  visibleMax : ℚ
  visibleMin : ℚ
  uispan : ℚ
  visibleMaxSlow : ℚ := -undefinedValue
  visibleMinSlow : ℚ := undefinedValue

/-- `int viewHeight` -/
def viewHeight : ℚ := 150

/-- Slow transition of the highest value: what becomes of `visibleMaxSlow`, and `visibleMax`. -/
def followMax (maximum visibleMaxSlow : ℚ) : ℚ × ℚ :=
  if maximum ≥ visibleMaxSlow then (maximum, maximum)
  else
    let visibleMaxSlow := visibleMaxSlow - (visibleMaxSlow - maximum) / 3
    (visibleMaxSlow, if visibleMaxSlow ≥ maximum then visibleMaxSlow else maximum)

/-- Slow transition of the lowest value. -/
def followMin (minimum visibleMinSlow : ℚ) : ℚ × ℚ :=
  if minimum ≤ visibleMinSlow then (minimum, minimum)
  else
    let visibleMinSlow := visibleMinSlow + (minimum - visibleMinSlow) / 3
    (visibleMinSlow, if visibleMinSlow < minimum then visibleMinSlow else minimum)

/-- 100u -/
def minimumFullpan : ℚ := 100

/-- What is added at both ends of the axis, for a minimum full span view. -/
def adjust (span : ℚ) : ℚ := if span < minimumFullpan then (minimumFullpan - span) / 4 else 0

def roundMax (visibleMax : ℚ) : ℚ := ((truncate (visibleMax / 10) + 1) * 10 : ℤ) / 1000

def roundMin (visibleMin : ℚ) : ℚ := (truncate (visibleMin / 10) * 10 : ℤ) / 1000

namespace TrendView

/-- The figures in micro-units, while the axis is computed. -/
def highest (v : TrendView) : ℤ := truncate (v.maximum * 1000)

def lowest (v : TrendView) : ℤ := truncate (v.minimum * 1000)

def renderTrend (v : TrendView) : TrendView :=
  let maximum : ℚ := v.highest
  let minimum : ℚ := v.lowest
  let (visibleMaxSlow, visibleMax) := followMax maximum v.visibleMaxSlow
  let (visibleMinSlow, visibleMin) := followMin minimum v.visibleMinSlow
  let span := maximum - minimum
  let visibleMax := roundMax (visibleMax + adjust span)
  let visibleMin := roundMin (visibleMin - adjust span)
  { v with
    toStatsClass := v.toStatsClass.renderTrend
    visibleMaxSlow, visibleMinSlow, visibleMax, visibleMin
    uispan := visibleMax - visibleMin }

/-- How far below the top of the graph a value is drawn. -/
def height (v : TrendView) (value : ℚ) : ℚ := viewHeight * ((v.visibleMax - value) / v.uispan)

end TrendView

/-- The trend is drawn, after the rest of the object has come to be `stats`. -/
def render (v : TrendView) (stats : StatsClass) : TrendView :=
  { v with toStatsClass := stats }.renderTrend

/-- Before anything is drawn. -/
def boot (stats : StatsClass) (visibleMax visibleMin uispan : ℚ) : TrendView :=
  { toStatsClass := stats, visibleMax, visibleMin, uispan }

/-! ## Slow transitions and rounding -/

/-- The axis does not end below the maximum. -/
theorem le_followMax (maximum visibleMaxSlow : ℚ) :
    maximum ≤ (followMax maximum visibleMaxSlow).2 := by
  unfold followMax
  split_ifs with hfast
  · exact le_rfl
  · simp only
    split_ifs with hslow
    · exact hslow
    · exact le_rfl

/-- The lower end stays away from the minimum by two thirds of what it has to go. -/
theorem followMin_eq (minimum visibleMinSlow : ℚ) :
    (followMin minimum visibleMinSlow).2 =
      minimum - 2 / 3 * max 0 (minimum - visibleMinSlow) := by
  unfold followMin
  split_ifs with hfast
  · rw [max_eq_left (sub_nonpos.2 hfast), mul_zero, sub_zero]
  · have hbelow := lt_of_not_ge hfast
    -- a third of the way does not reach the minimum
    have hslow : visibleMinSlow + (minimum - visibleMinSlow) / 3 < minimum := by linarith
    rw [max_eq_right (sub_nonneg.2 hbelow.le)]
    simp only [if_pos hslow]
    ring

theorem adjust_eq (span : ℚ) : adjust span = max 0 (minimumFullpan - span) / 4 := by
  unfold adjust
  split_ifs with h
  · rw [max_eq_right (sub_nonneg.2 h.le)]
  · rw [max_eq_left (sub_nonpos.2 (not_lt.1 h)), zero_div]

theorem adjust_nonneg (span : ℚ) : 0 ≤ adjust span := by
  rw [adjust_eq]
  exact div_nonneg (le_max_left _ _) (by norm_num)

theorem lt_roundMax (x : ℚ) : x / 1000 < roundMax x := by
  have hten := lt_truncate_add_one (x / 10)
  unfold roundMax
  push_cast
  linarith

/-- Rounding leaves an axis. -/
theorem roundMin_lt_roundMax {x y : ℚ} (h : x ≤ y) : roundMin x < roundMax y := by
  have hten : truncate (x / 10) ≤ truncate (y / 10) := truncate_mono (by linarith)
  have hcast : (truncate (x / 10) : ℚ) ≤ truncate (y / 10) := Int.cast_le.2 hten
  unfold roundMin roundMax
  push_cast
  linarith

/-- A limit below a number that is not negative is rounded to zero at most, or down. -/
theorem tens_le_of_nonneg {x : ℚ} {n : ℤ} (h : x ≤ n) (hn : 0 ≤ n) :
    truncate (x / 10) * 10 ≤ n := by
  rcases lt_or_ge (x / 10) 0 with hx | hx
  · rw [truncate_of_neg hx]
    have hceil : ⌈x / 10⌉ ≤ 0 := Int.ceil_le.2 (by simpa using hx.le)
    omega
  · rw [truncate_of_nonneg hx]
    have hfloor := Int.floor_le (x / 10)
    have hle : ((⌊x / 10⌋ * 10 : ℤ) : ℚ) ≤ n := by
      push_cast
      linarith
    exact_mod_cast hle

/-- A negative limit is rounded up, and the next ten from it is not above `n` exactly if the last
ten before `n` is not below the limit. -/
theorem tens_le_iff_of_neg {x : ℚ} {n : ℤ} (h : x ≤ n) (hn : n < 0) :
    truncate (x / 10) * 10 ≤ n ↔ ((n % 10 : ℤ) : ℚ) ≤ n - x := by
  have hneg : x / 10 < 0 := by
    have hn' : (n : ℚ) < 0 := Int.cast_lt_zero.2 hn
    linarith
  have htens : ((n / 10 : ℤ) : ℚ) * 10 = n - (n % 10 : ℤ) := by
    exact_mod_cast (show n / 10 * 10 = n - n % 10 by omega)
  rw [truncate_of_neg hneg]
  calc
    ⌈x / 10⌉ * 10 ≤ n ↔ ⌈x / 10⌉ ≤ n / 10 := (Int.le_ediv_iff_mul_le (by norm_num)).symm
    _ ↔ x / 10 ≤ (n / 10 : ℤ) := Int.ceil_le
    _ ↔ ((n % 10 : ℤ) : ℚ) ≤ n - x := by
          constructor
          · intro hle
            linarith
          · intro hle
            linarith

/-- A limit at or below the whole number `n` is rounded to one that is not above it exactly if `n`
is not negative or the limit is not above the last ten before `n`. -/
theorem roundMin_le_iff {x : ℚ} {n : ℤ} (h : x ≤ n) :
    roundMin x ≤ n / 1000 ↔ 0 ≤ n ∨ ((n % 10 : ℤ) : ℚ) ≤ n - x := by
  have hunits : roundMin x ≤ n / 1000 ↔ truncate (x / 10) * 10 ≤ n := by
    unfold roundMin
    rw [div_le_div_iff_of_pos_right (by norm_num)]
    exact Int.cast_le
  rw [hunits]
  rcases lt_or_ge n 0 with hn | hn
  · rw [tens_le_iff_of_neg h hn, or_iff_right (not_le.2 hn)]
  · exact iff_of_true (tens_le_of_nonneg h hn) (Or.inl hn)

/-! ## The axis -/

/-- A value as far as the graph shows it. -/
def micro (x : ℚ) : ℚ := truncate (x * 1000) / 1000

/-- After the trend of `stats` was drawn, the minimum and the maximum are on the axis, and
everything between them is drawn in the graph. -/
structure Fits (stats : StatsClass) (v : TrendView) : Prop where
  bottom : v.visibleMin ≤ v.minimum
  top : v.maximum ≤ v.visibleMax
  span : 0 < v.uispan
  plotted : ∀ x, stats.minimum ≤ x → x ≤ stats.maximum →
    0 ≤ v.height (micro x) ∧ v.height (micro x) ≤ viewHeight

/-- The minimum is not negative, or there is room below it down to the next ten. -/
def Room (v : TrendView) : Prop :=
  0 ≤ v.lowest ∨
    ((v.lowest % 10 : ℤ) : ℚ) ≤
      2 / 3 * max 0 (v.lowest - v.visibleMinSlow) +
        max 0 (minimumFullpan - (v.highest - v.lowest)) / 4

instance (v : TrendView) : Decidable (Room v) := inferInstanceAs (Decidable (_ ∨ _))

theorem micro_mono {x y : ℚ} (h : x ≤ y) : micro x ≤ micro y := by
  have hthousand : truncate (x * 1000) ≤ truncate (y * 1000) := truncate_mono (by linarith)
  have hcast : (truncate (x * 1000) : ℚ) ≤ truncate (y * 1000) := Int.cast_le.2 hthousand
  unfold micro
  linarith

section RenderTrend

variable (v : TrendView)

theorem renderTrend_minimum : v.renderTrend.minimum = v.lowest / 1000 := by
  rw [TrendView.renderTrend, StatsClass.renderTrend, TrendView.lowest]

theorem renderTrend_maximum : v.renderTrend.maximum = v.highest / 1000 := by
  rw [TrendView.renderTrend, StatsClass.renderTrend, TrendView.highest]

theorem renderTrend_visibleMax :
    v.renderTrend.visibleMax =
      roundMax ((followMax v.highest v.visibleMaxSlow).2 + adjust (v.highest - v.lowest)) := by
  rw [TrendView.renderTrend]

theorem renderTrend_visibleMin :
    v.renderTrend.visibleMin =
      roundMin ((followMin v.lowest v.visibleMinSlow).2 - adjust (v.highest - v.lowest)) := by
  rw [TrendView.renderTrend]

theorem renderTrend_uispan :
    v.renderTrend.uispan = v.renderTrend.visibleMax - v.renderTrend.visibleMin := by
  rw [TrendView.renderTrend]

/-- The lower end of the axis before it is rounded. -/
theorem before_rounding :
    (followMin v.lowest v.visibleMinSlow).2 - adjust (v.highest - v.lowest) =
      v.lowest - (2 / 3 * max 0 (v.lowest - v.visibleMinSlow) +
        max 0 (minimumFullpan - (v.highest - v.lowest)) / 4) := by
  rw [followMin_eq, adjust_eq]
  ring

theorem before_rounding_le :
    (followMin v.lowest v.visibleMinSlow).2 - adjust (v.highest - v.lowest) ≤ v.lowest := by
  have hslow : 0 ≤ max 0 ((v.lowest : ℚ) - v.visibleMinSlow) := le_max_left _ _
  have hspan : 0 ≤ max 0 (minimumFullpan - ((v.highest : ℚ) - v.lowest)) := le_max_left _ _
  rw [before_rounding]
  linarith

/-- The axis always reaches above the maximum. -/
theorem maximum_lt_visibleMax : v.renderTrend.maximum < v.renderTrend.visibleMax := by
  have hfollow := le_followMax v.highest v.visibleMaxSlow
  have hadjust := adjust_nonneg (v.highest - v.lowest)
  rw [renderTrend_maximum, renderTrend_visibleMax]
  refine lt_of_le_of_lt ?_ (lt_roundMax _)
  linarith

/-- The axis reaches down to the minimum exactly if there is room. -/
theorem visibleMin_le_iff : v.renderTrend.visibleMin ≤ v.renderTrend.minimum ↔ Room v := by
  rw [renderTrend_visibleMin, renderTrend_minimum, roundMin_le_iff (before_rounding_le v),
    before_rounding, sub_sub_cancel]
  exact Iff.rfl

variable {v} (horder : v.minimum ≤ v.maximum)

include horder

theorem lowest_le_highest : (v.lowest : ℚ) ≤ v.highest :=
  Int.cast_le.2 (truncate_mono (by linarith))

theorem uispan_pos : 0 < v.renderTrend.uispan := by
  have hle := before_rounding_le v
  have hfollow := le_followMax v.highest v.visibleMaxSlow
  have hadjust := adjust_nonneg (v.highest - v.lowest)
  have horder' := lowest_le_highest horder
  rw [renderTrend_uispan, renderTrend_visibleMax, renderTrend_visibleMin]
  apply sub_pos.2
  apply roundMin_lt_roundMax
  linarith

end RenderTrend

/-- A value on the axis is drawn in the graph. -/
theorem height_mem {v : TrendView} (hspan : v.uispan = v.visibleMax - v.visibleMin)
    (hpos : 0 < v.uispan) {x : ℚ} (hbottom : v.visibleMin ≤ x) (htop : x ≤ v.visibleMax) :
    0 ≤ v.height x ∧ v.height x ≤ viewHeight := by
  have hview : 0 ≤ viewHeight := by norm_num [viewHeight]
  have hlow : 0 ≤ (v.visibleMax - x) / v.uispan := div_nonneg (sub_nonneg.2 htop) hpos.le
  have hhigh : (v.visibleMax - x) / v.uispan ≤ 1 := by
    rw [div_le_one hpos, hspan]
    linarith
  constructor
  · exact mul_nonneg hview hlow
  · exact mul_le_of_le_one_right hview hhigh

/-- With a new minimum and maximum, everything plotted is in the graph exactly if there is room
below the minimum. -/
theorem fits_render_iff (v : TrendView) {stats : StatsClass}
    (horder : stats.minimum ≤ stats.maximum) :
    Fits stats (render v stats) ↔ Room { v with toStatsClass := stats } := by
  set w : TrendView := { v with toStatsClass := stats } with hw
  have hbottom := visibleMin_le_iff w
  have htop := (maximum_lt_visibleMax w).le
  have hspan := uispan_pos (v := w) horder
  constructor
  · intro h
    exact hbottom.1 h.bottom
  · intro hroom
    refine ⟨hbottom.2 hroom, htop, hspan, fun x hmin hmax => ?_⟩
    -- what lies between the extremes lies on the axis, also when it is cut to micro-units
    apply height_mem rfl hspan
    · exact (hbottom.2 hroom).trans (micro_mono hmin)
    · exact (micro_mono hmax).trans htop

/-! ## Runs -/

/-- The largest number of micro-units that a figure below the mark for "not set" comes to. -/
def microLimit : ℚ := undefinedValue * 1000

/-- The slow limits are such numbers of micro-units. -/
structure InRange (v : TrendView) : Prop where
  max : |v.visibleMaxSlow| ≤ microLimit
  min : |v.visibleMinSlow| ≤ microLimit

/-- The figures are below the mark for "not set". -/
def Measured (stats : StatsClass) : Prop :=
  |stats.minimum| < undefinedValue ∧ |stats.maximum| < undefinedValue

theorem abs_micro_le {x : ℚ} (h : |x| < undefinedValue) :
    |(truncate (x * 1000) : ℚ)| ≤ microLimit := by
  calc
    |(truncate (x * 1000) : ℚ)| ≤ |x * 1000| := abs_truncate_le _
    _ = |x| * 1000 := by rw [abs_mul, abs_of_pos (by norm_num : (0 : ℚ) < 1000)]
    _ ≤ microLimit := mul_le_mul_of_nonneg_right h.le (by norm_num)

/-- A third of the way from one number in range to another one ends in range. -/
theorem abs_third_le {x slow c : ℚ} (hx : |x| ≤ c) (hslow : |slow| ≤ c) :
    |slow + (x - slow) / 3| ≤ c := by
  rcases abs_le.1 hx with ⟨hx₁, hx₂⟩
  rcases abs_le.1 hslow with ⟨hslow₁, hslow₂⟩
  apply abs_le.2
  constructor
  · linarith
  · linarith

theorem followMax_abs_le {maximum visibleMaxSlow c : ℚ} (hmax : |maximum| ≤ c)
    (hslow : |visibleMaxSlow| ≤ c) :
    |(followMax maximum visibleMaxSlow).1| ≤ c ∧ |(followMax maximum visibleMaxSlow).2| ≤ c := by
  have hbetween : |visibleMaxSlow - (visibleMaxSlow - maximum) / 3| ≤ c := by
    have hthird := abs_third_le hmax hslow
    rwa [← neg_sub, neg_div, ← sub_eq_add_neg] at hthird
  unfold followMax
  split_ifs with hfast
  · exact ⟨hmax, hmax⟩
  · simp only
    split_ifs
    · exact ⟨hbetween, hbetween⟩
    · exact ⟨hbetween, hmax⟩

theorem followMin_abs_le {minimum visibleMinSlow c : ℚ} (hmin : |minimum| ≤ c)
    (hslow : |visibleMinSlow| ≤ c) :
    |(followMin minimum visibleMinSlow).1| ≤ c ∧ |(followMin minimum visibleMinSlow).2| ≤ c := by
  have hbetween := abs_third_le hmin hslow
  unfold followMin
  split_ifs with hfast
  · exact ⟨hmin, hmin⟩
  · simp only
    split_ifs
    · exact ⟨hbetween, hbetween⟩
    · exact ⟨hbetween, hmin⟩

/-- Drawing keeps the slow limits in range. -/
theorem render_inRange (v : TrendView) (stats : StatsClass) (h : InRange v)
    (hstats : Measured stats) : InRange (render v stats) where
  max := (followMax_abs_le (abs_micro_le hstats.2) h.max).1
  min := (followMin_abs_le (abs_micro_le hstats.1) h.min).1

theorem boot_inRange (stats : StatsClass) (visibleMax visibleMin uispan : ℚ) :
    InRange (boot stats visibleMax visibleMin uispan) := by
  constructor <;> norm_num [boot, microLimit, undefinedValue, abs_of_pos]

/-- As long as all figures are below the mark for "not set", the slow limits stay in range. -/
theorem always_inRange (stats₀ : StatsClass) (visibleMax visibleMin uispan : ℚ)
    {drawn : List StatsClass} (h : ∀ stats ∈ drawn, Measured stats) :
    Always render InRange (boot stats₀ visibleMax visibleMin uispan) drawn :=
  always_of_guarded (fun v stats => render_inRange v stats)
    (boot_inRange stats₀ visibleMax visibleMin uispan) (guarded_of_forall _ h)

theorem adjust_le {span : ℚ} (h : 0 ≤ span) : adjust span ≤ 25 := by
  unfold adjust minimumFullpan
  split_ifs
  · linarith
  · norm_num

/-- Whole tens up to the limit and a little more fit into the 32 bits of an `int`. -/
theorem tens_fit {x : ℚ} (h : |x| ≤ microLimit + 25) :
    |truncate (x / 10) * 10| < 2147483648 ∧ |(truncate (x / 10) + 1) * 10| < 2147483648 := by
  have hten : |truncate (x / 10)| ≤ 100000002 := by
    have hcast : |(truncate (x / 10) : ℚ)| ≤ 100000002.5 := by
      calc
        |(truncate (x / 10) : ℚ)| ≤ |x / 10| := abs_truncate_le _
        _ = |x| / 10 := by rw [abs_div, abs_of_pos (by norm_num : (0 : ℚ) < 10)]
        _ ≤ (microLimit + 25) / 10 := div_le_div_of_nonneg_right h (by norm_num)
        _ = 100000002.5 := by norm_num [microLimit, undefinedValue]
    have hlt : (|truncate (x / 10)| : ℚ) < (100000003 : ℤ) := by
      rw [Int.cast_ofNat]
      linarith
    rw [← Int.cast_abs, Int.cast_lt] at hlt
    omega
  obtain ⟨hlow, hhigh⟩ := abs_le.1 hten
  constructor <;> apply abs_lt.2 <;> constructor <;> omega

/-- The integers that the ends of the axis are rounded to fit into an `int`. -/
theorem rounding_fits {v : TrendView} (h : InRange v) (hstats : Measured v.toStatsClass)
    (horder : v.minimum ≤ v.maximum) :
    let top := (followMax v.highest v.visibleMaxSlow).2 + adjust (v.highest - v.lowest)
    let bottom := (followMin v.lowest v.visibleMinSlow).2 - adjust (v.highest - v.lowest)
    |(truncate (top / 10) + 1) * 10| < 2147483648 ∧ |truncate (bottom / 10) * 10| < 2147483648 := by
  have hmax := (followMax_abs_le (abs_micro_le hstats.2) h.max).2
  have hmin := (followMin_abs_le (abs_micro_le hstats.1) h.min).2
  have hadjust : |adjust (v.highest - v.lowest)| ≤ 25 := by
    rw [abs_of_nonneg (adjust_nonneg _)]
    exact adjust_le (sub_nonneg.2 (lowest_le_highest horder))
  constructor
  · exact (tens_fit ((abs_add_le _ _).trans (add_le_add hmax hadjust))).2
  · exact (tens_fit ((abs_sub _ _).trans (add_le_add hmin hadjust))).1

/-- Whatever was drawn before, everything plotted is in the graph exactly if there is room below
the minimum. -/
theorem axis_fits_iff (stats₀ : StatsClass) (visibleMax visibleMin uispan : ℚ)
    (earlier : List StatsClass) (stats : StatsClass) (horder : stats.minimum ≤ stats.maximum) :
    Fits stats (exec render (boot stats₀ visibleMax visibleMin uispan) (earlier ++ [stats])) ↔
      Room { exec render (boot stats₀ visibleMax visibleMin uispan) earlier with
        toStatsClass := stats } := by
  rw [exec_append]
  exact fits_render_iff _ horder

/-- An object with these figures. -/
def measured (minimum maximum : ℚ) : StatsClass where
  prelimBuffer := fun _ => 0
  value := fun _ => undefinedValue
  valueExt := fun _ => (undefinedValue, undefinedValue)
  minimum := minimum
  maximum := maximum

/-- The minimum has just gone up from -2 mV, and the axis still reaches down far enough. -/
theorem axis_fits_iff_slow :
    (measured (-1.005) 0).minimum ≤ (measured (-1.005) 0).maximum ∧
      Fits (measured (-1.005) 0)
        (exec render (boot (measured 0 0) 0 0 0) ([measured (-2) 0] ++ [measured (-1.005) 0])) := by
  have horder : (measured (-1.005) 0).minimum ≤ (measured (-1.005) 0).maximum := by decide +kernel
  have hfits := (axis_fits_iff (measured 0 0) 0 0 0 [measured (-2) 0] _ horder).2
  exact ⟨horder, hfits (by decide +kernel)⟩

/-- The first time the trend is drawn, with a minimum of -1.005 mV, the axis ends at -1 mV. -/
theorem fits_not_negative :
    Measured (measured (-1.005) 0) ∧
      (render (boot (measured 0 0) 0 0 0) (measured (-1.005) 0)).visibleMin = -1 ∧
      ¬Fits (measured (-1.005) 0) (render (boot (measured 0 0) 0 0 0) (measured (-1.005) 0)) := by
  refine ⟨?_, by decide +kernel, fun h => ?_⟩
  · constructor <;> decide +kernel
  · exact absurd h.bottom (by decide +kernel)

end TrendAxis
end PoorMansSmu
