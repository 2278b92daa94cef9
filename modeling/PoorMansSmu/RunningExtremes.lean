import PoorMansSmu.Lib.Extremes
import PoorMansSmu.Logger
import Mathlib.Algebra.Order.Group.Unbundled.Abs

/-!
# RunningExtremes — least and greatest value since the statistics were cleared

`SimpleStatsClass` and `LoggerClass` keep a minimum and a maximum by one and the same chain of
comparisons, each with a mark of its own for "not set".  They do not trust the first ten values, but
the chain compares these too, and a value below the mark is taken for a minimum.  The maximum keeps
the mark until the eleventh value comes, which therefore always sets both (`Tracks.concat`).
-/

namespace PoorMansSmu
namespace RunningExtremes

open Run Extremes

/-! ## The two classes -/

structure SimpleStatsClass where
  minimum : ℚ
  maximum : ℚ
  samples : ℚ

/-- Marks `minimum` and `maximum` as not set. -/
def undefinedValue : ℚ := 1000000

namespace SimpleStatsClass

def init (s : SimpleStatsClass) : SimpleStatsClass :=
  { s with minimum := undefinedValue, maximum := undefinedValue, samples := 0 }

def clear (s : SimpleStatsClass) : SimpleStatsClass :=
  { s with minimum := undefinedValue, maximum := undefinedValue, samples := 0 }

def registerValue (s : SimpleStatsClass) (value : ℚ) : SimpleStatsClass :=
  let s := { s with samples := s.samples + 1 }
  if (s.minimum = undefinedValue ∨ s.maximum = undefinedValue) ∧ s.samples > 10 then
    { s with minimum := value, maximum := value }
  else if value < s.minimum then { s with minimum := value }
  else if value > s.maximum then { s with maximum := value }
  else s

end SimpleStatsClass

/-- The chain of comparisons, on minimum and maximum; `trusted` says that the first ten values are
past. -/
def track (mark : ℚ) (trusted : Bool) (e : ℚ × ℚ) (value : ℚ) : ℚ × ℚ :=
  if (e.1 = mark ∨ e.2 = mark) ∧ trusted then (value, value)
  else if value < e.1 then (value, e.2)
  else if value > e.2 then (e.1, value)
  else e

theorem registerValue_track (s : SimpleStatsClass) (value : ℚ) :
    ((s.registerValue value).minimum, (s.registerValue value).maximum) =
      track undefinedValue (s.samples + 1 > 10 : Bool) (s.minimum, s.maximum) value := by
  simp only [SimpleStatsClass.registerValue, track, decide_eq_true_eq]
  split_ifs <;> rfl

theorem registerValue_samples (s : SimpleStatsClass) (value : ℚ) :
    (s.registerValue value).samples = s.samples + 1 := by
  simp only [SimpleStatsClass.registerValue]
  split_ifs <;> rfl

/-- The count is the one of `makeRoom`, which stops when the ring is full. -/
theorem logger_registerValue_track (l : Logger.LoggerClass)
    (logData : Logger.LogDataWithTimeStamp) :
    ((l.registerValue logData).minimum, (l.registerValue logData).maximum) =
      track Logger.undefinedValue (l.makeRoom.samples > 10 : Bool) (l.minimum, l.maximum)
        logData.value := by
  have hkept : ((l.makeRoom.store logData).minimum, (l.makeRoom.store logData).maximum) =
      (l.minimum, l.maximum) := rfl
  rw [← hkept]
  simp only [Logger.LoggerClass.registerValue, Logger.LoggerClass.trackExtremes, track,
    decide_eq_true_eq]
  have hsamples : (l.makeRoom.store logData).samples = l.makeRoom.samples := rfl
  rw [hsamples]
  split_ifs <;> rfl

/-! ## The chain over a sequence of values -/

/-- Minimum and maximum after the values `xs`: up to the tenth value the maximum is not set, and after
that they are the extremes of what came later. -/
structure Tracks (mark : ℚ) (xs : List ℚ) (e : ℚ × ℚ) : Prop where
  early : xs.length ≤ 10 → e.2 = mark
  late : 10 < xs.length →
    IsLeast {x | x ∈ xs.drop 10} e.1 ∧ IsGreatest {x | x ∈ xs.drop 10} e.2

section Chain

variable {mark : ℚ} {xs : List ℚ} {e : ℚ × ℚ}

theorem tracks_nil (mark : ℚ) : Tracks mark [] (mark, mark) where
  early _ := rfl
  late h := absurd h (by decide)

/-- Once both are set, each value is compared with both. -/
theorem track_set {trusted : Bool} (hle : e.1 ≤ e.2) (hmin : e.1 ≠ mark) (hmax : e.2 ≠ mark)
    (value : ℚ) : track mark trusted e value = (min value e.1, max value e.2) := by
  have hset : ¬ ((e.1 = mark ∨ e.2 = mark) ∧ trusted) := by
    rintro ⟨hmin' | hmax', -⟩
    · exact hmin hmin'
    · exact hmax hmax'
  rw [track, if_neg hset]
  rcases lt_or_ge value e.1 with hlow | hnot
  · -- a new minimum is not compared with the maximum, which it does not exceed
    rw [if_pos hlow, min_eq_left hlow.le, max_eq_right (hlow.le.trans hle)]
  · rw [if_neg (not_lt.2 hnot), min_eq_right hnot]
    rcases lt_or_ge e.2 value with hhigh | hnot'
    · rw [if_pos hhigh, max_eq_left hhigh.le]
    · rw [if_neg (not_lt.2 hnot'), max_eq_right hnot']

theorem Tracks.concat (h : Tracks mark xs e) {value : ℚ} (hbelow : ∀ x ∈ xs ++ [value], x < mark)
    {trusted : Bool} (htrusted : trusted = true ↔ 10 ≤ xs.length) :
    Tracks mark (xs ++ [value]) (track mark trusted e value) := by
  have hvalue : value < mark := hbelow value (by simp)
  rcases lt_trichotomy xs.length 10 with hfew | hten | hmany
  · -- a value below the mark is no greater than the maximum, which is not set
    have hmax := h.early hfew.le
    have hnot : ¬ trusted = true := fun ht => absurd (htrusted.1 ht) (by omega)
    have hhigh : ¬ value > e.2 := by
      rw [hmax]
      exact not_lt.2 hvalue.le
    have hkept : (track mark trusted e value).2 = mark := by
      rw [track, if_neg (fun hset => hnot hset.2), if_neg hhigh]
      split_ifs
      · exact hmax
      · exact hmax
    refine ⟨fun _ => hkept, fun hlong => absurd hlong ?_⟩
    rw [List.length_append, List.length_singleton]
    omega
  · -- the eleventh value
    have hset : track mark trusted e value = (value, value) :=
      if_pos ⟨Or.inr (h.early hten.le), htrusted.2 hten.ge⟩
    have hdrop : {x | x ∈ (xs ++ [value]).drop 10} = {value} := by
      rw [List.drop_left' hten]
      ext x
      simp
    refine ⟨fun hfew => absurd hfew ?_, fun _ => ?_⟩
    · rw [List.length_append, List.length_singleton]
      omega
    · rw [hset, hdrop]
      exact ⟨isLeast_singleton, isGreatest_singleton⟩
  · obtain ⟨hleast, hgreatest⟩ := h.late hmany
    have hin : ∀ x ∈ xs.drop 10, x < mark := fun x hx =>
      hbelow x (List.mem_append_left _ (List.mem_of_mem_drop hx))
    have hmin : e.1 ≠ mark := (hin _ hleast.1).ne
    have hmax : e.2 ≠ mark := (hin _ hgreatest.1).ne
    have hdrop : (xs ++ [value]).drop 10 = xs.drop 10 ++ [value] :=
      List.drop_append_of_le_length hmany.le
    refine ⟨fun hfew => absurd hfew ?_, fun _ => ?_⟩
    · rw [List.length_append, List.length_singleton]
      omega
    · rw [track_set (hleast.2 hgreatest.1) hmin hmax, hdrop]
      exact ⟨isLeast_concat hleast value, isGreatest_concat hgreatest value⟩

end Chain

/-! ## Runs of the classes -/

theorem simpleStats_tracks (s : SimpleStatsClass) {xs : List ℚ} (hbelow : ∀ x ∈ xs, x < 1000000) :
    (exec SimpleStatsClass.registerValue s.clear xs).samples = xs.length ∧
      Tracks undefinedValue xs ((exec SimpleStatsClass.registerValue s.clear xs).minimum,
        (exec SimpleStatsClass.registerValue s.clear xs).maximum) := by
  induction xs using List.reverseRecOn with
  | nil => exact ⟨rfl, tracks_nil undefinedValue⟩
  | append_singleton xs value ih =>
      obtain ⟨hsamples, htracks⟩ := ih fun x hx => hbelow x (List.mem_append_left _ hx)
      rw [exec_append, exec_cons, exec_nil, registerValue_track, registerValue_samples, hsamples]
      refine ⟨?_, htracks.concat hbelow ?_⟩
      · rw [List.length_append, List.length_singleton, Nat.cast_add, Nat.cast_one]
      · rw [decide_eq_true_eq, gt_iff_lt]
        constructor
        · intro hmany
          have hmany' : 10 < xs.length + 1 := by exact_mod_cast hmany
          omega
        · intro hmany
          have hmany' : 10 < xs.length + 1 := by omega
          exact_mod_cast hmany'

theorem logger_tracks (l : Logger.LoggerClass) {recs : List Logger.LogDataWithTimeStamp}
    (hbelow : ∀ r ∈ recs, r.value < Logger.undefinedValue) :
    Tracks Logger.undefinedValue (recs.map (·.value))
      ((exec Logger.LoggerClass.registerValue l.clear recs).minimum,
        (exec Logger.LoggerClass.registerValue l.clear recs).maximum) := by
  induction recs using List.reverseRecOn with
  | nil => exact tracks_nil Logger.undefinedValue
  | append_singleton recs logData ih =>
      have htracks := ih fun r hr => hbelow r (List.mem_append_left _ hr)
      have hsamples := (Logger.registered_logged l recs).makeRoom_samples
      rw [Logger.logged] at hsamples
      rw [exec_append, exec_cons, exec_nil, logger_registerValue_track, List.map_append,
        List.map_singleton]
      apply htracks.concat
      · intro x hx
        rw [← List.map_singleton, ← List.map_append] at hx
        obtain ⟨r, hr, rfl⟩ := List.mem_map.1 hx
        exact hbelow r hr
      · -- the count stops far beyond ten
        rw [decide_eq_true_eq, hsamples, List.length_map, Logger.maxSize]
        omega

/-- A log that gets some memory starts as a cleared one. -/
theorem init_eq_clear (l : Logger.LoggerClass) {size : ℕ} (hsize : size ≠ 0) :
    l.init size = Logger.LoggerClass.clear { l with notAvailable := false } := by
  rw [Logger.LoggerClass.init, if_neg hsize]

/-- Whatever the first ten values are, both classes end with the extremes of the later ones. -/
theorem extremes_of_later_values {s cleared : SimpleStatsClass}
    (hs : cleared = s.clear ∨ cleared = s.init) {l clearedLog : Logger.LoggerClass}
    (hl : clearedLog = l.clear ∨ ∃ size ≠ 0, clearedLog = l.init size)
    {recs : List Logger.LogDataWithTimeStamp} (hmany : 10 < recs.length)
    (hsmall : ∀ r ∈ recs, |r.value| < 1000000) :
    let simple := exec SimpleStatsClass.registerValue cleared (recs.map (·.value))
    let logger := exec Logger.LoggerClass.registerValue clearedLog recs
    let later : Set ℚ := {x | x ∈ (recs.map (·.value)).drop 10}
    (IsLeast later simple.minimum ∧ IsGreatest later simple.maximum) ∧
    (IsLeast later logger.minimum ∧ IsGreatest later logger.maximum) ∧
    simple.minimum = logger.minimum ∧ simple.maximum = logger.maximum := by
  intro simple logger later
  have hbelow : ∀ r ∈ recs, r.value < 1000000 := fun r hr => (abs_lt.1 (hsmall r hr)).2
  have hlong : 10 < (recs.map (·.value)).length := by rwa [List.length_map]
  have hsimple : IsLeast later simple.minimum ∧ IsGreatest later simple.maximum := by
    have hcleared : cleared = s.clear := hs.elim id id
    have hvalues : ∀ x ∈ recs.map (·.value), x < 1000000 := by
      intro x hx
      obtain ⟨r, hr, rfl⟩ := List.mem_map.1 hx
      exact hbelow r hr
    have htracks := (simpleStats_tracks s hvalues).2
    rw [← hcleared] at htracks
    exact htracks.late hlong
  have hlogger : IsLeast later logger.minimum ∧ IsGreatest later logger.maximum := by
    have hcleared : ∃ l', clearedLog = Logger.LoggerClass.clear l' := by
      rcases hl with hclear | ⟨size, hsize, hinit⟩
      · exact ⟨l, hclear⟩
      · exact ⟨_, hinit.trans (init_eq_clear l hsize)⟩
    obtain ⟨l', hcleared⟩ := hcleared
    have hmark : ∀ r ∈ recs, r.value < Logger.undefinedValue := by
      intro r hr
      exact (hbelow r hr).trans (by decide)
    have htracks := logger_tracks l' hmark
    rw [← hcleared] at htracks
    exact htracks.late hlong
  exact ⟨hsimple, hlogger, hsimple.1.unique hlogger.1, hsimple.2.unique hlogger.2⟩

/-- Ten values below all others, and two that count. -/
theorem extremes_of_later_values_twelve :
    let recs : List Logger.LogDataWithTimeStamp := List.replicate 10 ⟨-5, 0⟩ ++ [⟨3, 1⟩, ⟨7, 2⟩]
    (exec SimpleStatsClass.registerValue (SimpleStatsClass.clear ⟨0, 0, 0⟩)
      (recs.map (·.value))).minimum =
    (exec Logger.LoggerClass.registerValue
      (Logger.LoggerClass.clear { adrP := fun _ => ⟨0, 0⟩ }) recs).minimum := by
  intro recs
  have hmany : 10 < recs.length := by decide
  have hsmall : ∀ r ∈ recs, |r.value| < 1000000 := by decide +kernel
  exact (extremes_of_later_values (s := ⟨0, 0, 0⟩) (l := { adrP := fun _ => ⟨0, 0⟩ })
    (Or.inl rfl) (Or.inl rfl) hmany hsmall).2.2.1

end RunningExtremes
end PoorMansSmu
