import PoorMansSmu.CalTables
import PoorMansSmu.Lib.Extremes
import PoorMansSmu.RamLog
import Mathlib.Data.Fin.VecNotation
import Mathlib.Tactic.FieldSimp
import Mathlib.Tactic.Linarith

/-!
# TrendGraph — the scale of the trend graph and the samples drawn in it

`TrendGraphClass::loop` walks the log twice, 200 steps each time.  The first walk finds the scale and
reads before it steps, the second one draws and steps before it reads.  So the first walk begins with
the slot that is written next, and leaves out the oldest of the samples drawn.  The slot holds a value
that does not count until the ring has gone round, and the oldest entry of the log from then on.

The scale is that of the samples drawn exactly when these two entries do not stick out
(`scale_fits_iff`).
-/

namespace PoorMansSmu
namespace TrendGraph

open Extremes RamLog Run

/-! ## The graph -/

/-- The number in an entry, if it is one. -/
def val (entry : TimedLog) : Option ℚ := CalTables.floatOfBytes entry.value

/-- The bytes of 99000.0, which `RamClass::init` writes to all entries. -/
def unset : FourBytes := ![0x00, 0x5C, 0xC1, 0x47]

/-- The log in the arrays of the processor, after `RamClass::init`. -/
def init (normalRamTime : ℕ → FourBytes) (ram : ℕ → UInt8) : RamClass :=
  start true (fun _ => unset) normalRamTime ram

/-- `maxV` and `minV` of `TrendGraphClass::loop`. -/
structure Scale where
  maxV : ℚ := -1000000
  minV : ℚ := 1000000

namespace Scale

/-- A value of the first loop; those from 50000 on do not count. -/
def count (s : Scale) (v : Option ℚ) : Scale :=
  match v with
  | none => s
  | some v =>
      if v < 50000 then
        { maxV := if v > s.maxV then v else s.maxV
          minV := if v < s.minV then v else s.minV }
      else s

/-- The graph spans at least 20 mV. -/
def widen (s : Scale) : Scale :=
  if s.maxV - s.minV < 0.020 then
    let valueLeft := 0.020 - (s.maxV - s.minV)
    { maxV := s.maxV + valueLeft / 2, minV := s.minV - valueLeft / 2 }
  else s

/-- How far below the middle line a value is drawn. -/
def y (s : Scale) (v : ℚ) : ℚ :=
  let span := s.maxV - s.minV
  let mid := s.maxV - span / 2
  (mid - v) * 300 / span

end Scale

/-- The first loop, with `n` rounds to go; `max` and `min` are those that `RamClass` keeps, which are
taken for the external RAM. -/
def scalePass (r : RamClass) (max min : ℚ) : (n : ℕ) → (adr : ℤ) → Scale → Scale
  | 0, _, s => s
  | n + 1, adr, s =>
      let v := val (r.readLogData adr.toNat)
      let s := if r.USE_NORMAL_RAM then s.count v else { maxV := max, minV := min }
      let adr := r.nextAdr adr
      if adr = -1 then s else scalePass r max min n adr s

def scale (r : RamClass) (max min : ℚ) : Scale :=
  scalePass r max min 200 r.currentLogAddress {}

/-- The entries that the second loop draws. -/
def drawn (r : RamClass) : List TimedLog := r.plot 200 r.currentLogAddress

/-- The points it draws them at, every 3 pixels. -/
def points (r : RamClass) (max min : ℚ) : List (ℤ × ℤ) :=
  (drawn r).zipIdx.map fun (entry, i) =>
    (150 + 600 - 3 * (i : ℤ),
      240 + truncate (((val entry).map (scale r max min).widen.y).getD 0))

/-- The values of the entries drawn. -/
def drawnValues (r : RamClass) : Set ℚ := {v | ∃ entry ∈ drawn r, val entry = some v}

/-- The scale is that of the entries drawn, and all points are within 150 pixels of the middle. -/
def ScaleFits (r : RamClass) (max min : ℚ) : Prop :=
  (drawn r ≠ [] → IsGreatest (drawnValues r) (scale r max min).maxV ∧
    IsLeast (drawnValues r) (scale r max min).minV) ∧
  ∀ p ∈ points r max min, |p.2 - 240| ≤ 150

/-! ## Both walks -/

theorem plot_end {r : RamClass} (hfull : r.full = false) (n : ℕ) : r.plot n (-1) = [] := by
  induction n with
  | zero => rfl
  | succ n ih =>
      have hnext : r.nextAdr (-1) = -1 := by
        rw [nextAdr_not_full hfull]
        rfl
      simp only [RamClass.plot, hnext, if_true, ih]

theorem full_of_nextAdr {r : RamClass} {adr : ℤ} (h : r.nextAdr adr = -1) : r.full = false := by
  cases hfull : r.full with
  | false => rfl
  | true =>
      simp only [RamClass.nextAdr, hfull, and_true, Bool.not_true, Bool.false_eq_true, and_false,
        if_false, maxLogAddress] at h
      split_ifs at h
      omega

/-- The first walk sees the slot it starts from, and then what the second one sees in one round
less. -/
theorem scalePass_eq {r : RamClass} (hnormal : r.USE_NORMAL_RAM = true) (max min : ℚ) (n : ℕ)
    (adr : ℤ) (s : Scale) :
    scalePass r max min (n + 1) adr s =
      ((r.readLogData adr.toNat :: r.plot n adr).map val).foldl Scale.count s := by
  induction n generalizing adr s with
  | zero =>
      simp only [scalePass, hnormal, if_true, ite_self]
      rfl
  | succ n ih =>
      rw [scalePass]
      simp only [hnormal, if_true]
      by_cases hend : r.nextAdr adr = -1
      · -- the second walk goes on without drawing
        have hrest : r.plot (n + 1) adr = [] := by
          rw [RamClass.plot]
          simp only [hend, if_true]
          exact plot_end (full_of_nextAdr hend) n
        rw [if_pos hend, hrest]
        rfl
      · have hrest : r.plot (n + 1) adr =
            r.readLogData (r.nextAdr adr).toNat :: r.plot n (r.nextAdr adr) := by
          rw [RamClass.plot]
          exact if_neg hend
        rw [if_neg hend, hrest, ih]
        rfl

/-- The values that count in a list. -/
def counted (l : List TimedLog) : Set ℚ := {v | ∃ entry ∈ l, val entry = some v ∧ v < 50000}

theorem counted_cons_of_counts {entry : TimedLog} {v : ℚ} (hv : val entry = some v)
    (hlow : v < 50000) (l : List TimedLog) : counted (entry :: l) = insert v (counted l) := by
  ext w
  simp only [counted, List.mem_cons, exists_eq_or_imp, hv, Option.some.injEq, Set.mem_ofPred_eq,
    Set.mem_insert_iff]
  constructor
  · rintro (⟨rfl, -⟩ | hw)
    · exact Or.inl rfl
    · exact Or.inr hw
  · rintro (rfl | hw)
    · exact Or.inl ⟨rfl, hlow⟩
    · exact Or.inr hw

theorem counted_cons_of_not {entry : TimedLog} (h : ¬ ∃ v, val entry = some v ∧ v < 50000)
    (l : List TimedLog) : counted (entry :: l) = counted l := by
  ext w
  simp only [counted, List.mem_cons, exists_eq_or_imp, Set.mem_ofPred_eq]
  exact or_iff_right fun hw => h ⟨w, hw⟩

theorem search_count {S : Set ℚ} {s : Scale} (h : Search (-1000000) 1000000 S s.maxV s.minV)
    (l : List TimedLog) :
    Search (-1000000) 1000000 (counted l ∪ S) ((l.map val).foldl Scale.count s).maxV
      ((l.map val).foldl Scale.count s).minV := by
  induction l generalizing S s with
  | nil =>
      have hnone : counted [] ∪ S = S := by
        ext v
        simp [counted]
      rw [hnone]
      exact h
  | cons entry l ih =>
      rw [List.map_cons, List.foldl_cons]
      by_cases hcounts : ∃ v, val entry = some v ∧ v < 50000
      · -- a value that counts goes into the search
        obtain ⟨v, hv, hlow⟩ := hcounts
        have hcount : s.count (val entry) = ⟨max v s.maxV, min v s.minV⟩ := by
          rw [max_comm, max_def_lt, min_def_lt]
          simp only [Scale.count, hv, if_pos hlow, gt_iff_lt]
        rw [counted_cons_of_counts hv hlow, Set.insert_union, ← Set.union_insert, hcount]
        exact ih (h.insert v)
      · -- anything else is passed over
        have hcount : s.count (val entry) = s := by
          cases hv : val entry with
          | none => rfl
          | some v => exact if_neg fun hlow => hcounts ⟨v, hv, hlow⟩
        rw [counted_cons_of_not hcounts, hcount]
        exact ih h

/-! ## The slot that is written next -/

theorem logData_normal (r : RamClass) (entry : TimedLog) :
    (r.logData entry).USE_NORMAL_RAM = r.USE_NORMAL_RAM := by
  have hwrite : (r.writeLogData r.currentLogAddress entry.value entry.time).USE_NORMAL_RAM =
      r.USE_NORMAL_RAM := by
    unfold RamClass.writeLogData
    split_ifs <;> rfl
  unfold RamClass.logData
  rw [← hwrite]
  generalize r.writeLogData r.currentLogAddress entry.value entry.time = r'
  simp only
  split_ifs <;> rfl

/-- The log after `init` and some entries. -/
def log (normalRamTime : ℕ → FourBytes) (ram : ℕ → UInt8) (entries : List TimedLog) : RamClass :=
  exec RamClass.logData (init normalRamTime ram) entries

section Log

variable (normalRamTime : ℕ → FourBytes) (ram : ℕ → UInt8) (entries : List TimedLog)

theorem logged_log : Logged (log normalRamTime ram entries) entries :=
  logged_run (logged_start true (fun _ => unset) normalRamTime ram) entries

theorem log_append (entry : TimedLog) :
    log normalRamTime ram (entries ++ [entry]) = (log normalRamTime ram entries).logData entry := by
  rw [log, exec_append]
  rfl

theorem log_normal : (log normalRamTime ram entries).USE_NORMAL_RAM = true := by
  induction entries using List.reverseRecOn with
  | nil => rfl
  | append_singleton entries entry ih => rw [log_append, logData_normal, ih]

/-- A slot that no entry has come to is as `init` has left it. -/
theorem log_unset {a : ℕ} (hlow : entries.length ≤ a) (hhigh : a < slots) :
    ((log normalRamTime ram entries).readLogData a).value = unset := by
  induction entries using List.reverseRecOn with
  | nil => rfl
  | append_singleton entries entry ih =>
      rw [List.length_append, List.length_singleton] at hlow
      obtain ⟨-, -, hread⟩ := logData_fields (log normalRamTime ram entries) entry
      have haddress := (logged_log normalRamTime ram entries).address
      rw [Nat.mod_eq_of_lt (by omega)] at haddress
      rw [log_append, hread, haddress, Function.update_of_ne (by omega)]
      exact ih (by omega)

/-- What the first walk sees in the slot that is written next. -/
theorem log_next :
    counted [(log normalRamTime ram entries).readLogData
        (log normalRamTime ram entries).currentLogAddress] =
      counted (entries.reverse[300]?).toList := by
  have hlog := logged_log normalRamTime ram entries
  have haddress := hlog.address
  have hslots : slots = 301 := rfl
  rcases Nat.lt_or_ge entries.length slots with hroom | hround
  · -- it is unset, and there are not enough entries on the other side
    have hnone : entries.reverse[300]? = none := by
      rw [List.getElem?_eq_none_iff, List.length_reverse]
      omega
    rw [Nat.mod_eq_of_lt hroom] at haddress
    have hvalue := log_unset normalRamTime ram entries haddress.ge (by omega)
    have hunset : CalTables.floatOfBytes unset = some 99000 := by decide +kernel
    rw [hnone]
    ext v
    simp only [counted, List.mem_singleton, exists_eq_left, val, hvalue, hunset, Option.some.injEq,
      Option.toList_none, List.not_mem_nil, false_and, exists_false, Set.mem_ofPred_eq, iff_false,
      not_and, not_lt]
    rintro rfl
    norm_num
  · -- it holds the oldest entry
    have hlast : entries.length - 301 < entries.length := by omega
    have hfits : entries.length ≤ entries.length - 301 + slots := by omega
    have hread := hlog.holds (entries.length - 301) hlast hfits
    have hmod : (entries.length - 301) % slots = entries.length % slots := by
      rw [hslots]
      omega
    rw [hmod, ← haddress] at hread
    have hrank : entries.length - 1 - 300 = entries.length - 301 := by omega
    have hfull : 300 < entries.length := by omega
    have hrev : entries.reverse[300]? = some (entries.get ⟨entries.length - 301, hlast⟩) := by
      rw [List.getElem?_reverse hfull, hrank]
      exact List.getElem?_eq_getElem hlast
    rw [hread, hrev, Option.toList_some, List.get_eq_getElem]

theorem drawn_log : drawn (log normalRamTime ram entries) = entries.reverse.take 200 :=
  (logged_log normalRamTime ram entries).plot_eq 200 0 (by decide)

theorem search_scale (max min : ℚ) :
    Search (-1000000) 1000000
      (counted (entries.reverse.take 199) ∪ counted (entries.reverse[300]?).toList)
      (scale (log normalRamTime ram entries) max min).maxV
      (scale (log normalRamTime ram entries) max min).minV := by
  have hplot : (log normalRamTime ram entries).plot 199
      (log normalRamTime ram entries).currentLogAddress = entries.reverse.take 199 :=
    (logged_log normalRamTime ram entries).plot_eq 199 0 (by decide)
  have hpass := scalePass_eq (log_normal normalRamTime ram entries) max min 199
    (log normalRamTime ram entries).currentLogAddress {}
  rw [Int.toNat_natCast, hplot] at hpass
  have hstart : Search (-1000000) 1000000 ∅ ({} : Scale).maxV ({} : Scale).minV :=
    search_empty _ _
  have hfirst := search_count hstart
    [(log normalRamTime ram entries).readLogData (log normalRamTime ram entries).currentLogAddress]
  rw [Set.union_empty, log_next] at hfirst
  have hrest := search_count hfirst (entries.reverse.take 199)
  rw [scale, hpass]
  exact hrest

end Log

/-! ## Points on the graph -/

/-- What lies between the extremes is drawn within 150 pixels of the middle line. -/
theorem abs_y_le {s : Scale} {v : ℚ} (hlow : s.minV ≤ v) (hhigh : v ≤ s.maxV) :
    |s.widen.y v| ≤ 150 := by
  have hwide : s.widen.minV ≤ s.minV ∧ s.maxV ≤ s.widen.maxV ∧
      0 < s.widen.maxV - s.widen.minV := by
    unfold Scale.widen
    split_ifs with hclose
    · refine ⟨?_, ?_, ?_⟩
      · linarith
      · linarith
      · linarith
    · exact ⟨le_rfl, le_rfl, by linarith⟩
  obtain ⟨hmin, hmax, hspan⟩ := hwide
  have hpos : 0 < (s.widen.maxV - s.widen.minV) := hspan
  rw [Scale.y, abs_le]
  constructor
  · rw [le_div_iff₀ hpos]
    linarith
  · rw [div_le_iff₀ hpos]
    linarith

/-- A point that is 150 pixels away at most before its fraction is dropped is so afterwards. -/
theorem abs_truncate_le_of_abs_le {x : ℚ} (h : |x| ≤ 150) : |truncate x| ≤ 150 := by
  have hle : |((truncate x : ℤ) : ℚ)| ≤ 150 := (abs_truncate_le x).trans h
  exact_mod_cast hle

theorem points_fit {r : RamClass} {max min : ℚ}
    (hbetween : ∀ entry ∈ drawn r, ∃ v, val entry = some v ∧
      (scale r max min).minV ≤ v ∧ v ≤ (scale r max min).maxV) :
    ∀ p ∈ points r max min, |p.2 - 240| ≤ 150 := by
  intro p hp
  obtain ⟨⟨entry, i⟩, hentry, rfl⟩ := List.mem_map.1 hp
  obtain ⟨v, hv, hlow, hhigh⟩ := hbetween entry (List.fst_mem_of_mem_zipIdx hentry)
  have hy := abs_truncate_le_of_abs_le (abs_y_le hlow hhigh)
  simp only [hv, Option.map_some, Option.getD_some, add_sub_cancel_left]
  exact hy

/-! ## When the scale fits -/

/-- The newest `n` values. -/
def newest (entries : List TimedLog) (n : ℕ) : Set ℚ :=
  {v | ∃ entry ∈ entries.reverse.take n, val entry = some v}

/-- The value with number `i` from the newest one on, counted from zero. -/
def ranked (entries : List TimedLog) (i : ℕ) : Set ℚ :=
  {v | ∃ entry, entries.reverse[i]? = some entry ∧ val entry = some v}

/-- The 200th value, which only the second walk comes to, lies among those that the first one comes
to, and the 301st value, which only the first one comes to, lies among those drawn. -/
structure Inside (entries : List TimedLog) : Prop where
  above : ∃ v ∈ newest entries 200, -1000000 ≤ v
  last : ∀ v ∈ ranked entries 199,
    (v ≤ -1000000 ∨ ∃ w ∈ newest entries 199 ∪ ranked entries 300, v ≤ w) ∧
      ∃ w ∈ newest entries 199 ∪ ranked entries 300, w ≤ v
  oldest : ∀ v ∈ ranked entries 300,
    (∃ w ∈ newest entries 200, v ≤ w) ∧ ∃ w ∈ newest entries 200, w ≤ v

theorem drawnValues_log (normalRamTime : ℕ → FourBytes) (ram : ℕ → UInt8)
    (entries : List TimedLog) : drawnValues (log normalRamTime ram entries) = newest entries 200 := by
  rw [drawnValues, drawn_log]
  rfl

theorem drawn_log_eq_nil_iff (normalRamTime : ℕ → FourBytes) (ram : ℕ → UInt8)
    (entries : List TimedLog) : drawn (log normalRamTime ram entries) = [] ↔ entries = [] := by
  rw [drawn_log]
  constructor
  · intro htake
    rcases List.take_eq_nil_iff.1 htake with hzero | hrev
    · exact absurd hzero (by decide)
    · exact List.reverse_eq_nil_iff.1 hrev
  · rintro rfl
    rfl

section Fits

variable {entries : List TimedLog}

theorem newest_succ (entries : List TimedLog) (n : ℕ) :
    newest entries (n + 1) = newest entries n ∪ ranked entries n := by
  ext v
  simp only [newest, ranked, List.take_add_one, List.mem_append, Option.mem_toList, or_and_right,
    exists_or, Set.mem_union, Set.mem_ofPred_eq]

theorem counted_eq {l : List TimedLog} (hlow : ∀ entry ∈ l, ∃ v, val entry = some v ∧ v < 50000) :
    counted l = {v | ∃ entry ∈ l, val entry = some v} := by
  ext v
  constructor
  · rintro ⟨entry, hentry, hv, -⟩
    exact ⟨entry, hentry, hv⟩
  · rintro ⟨entry, hentry, hv⟩
    obtain ⟨w, hw, hwlow⟩ := hlow entry hentry
    obtain rfl : w = v := Option.some.inj (hw.symm.trans hv)
    exact ⟨entry, hentry, hv, hwlow⟩

variable (hlow : ∀ entry ∈ entries, ∃ v, val entry = some v ∧ v < 50000)

include hlow

theorem lt_of_newest {n : ℕ} {v : ℚ} (hv : v ∈ newest entries n) : v < 50000 := by
  obtain ⟨entry, hentry, hval⟩ := hv
  obtain ⟨w, hw, hwlow⟩ := hlow entry (List.mem_reverse.1 (List.mem_of_mem_take hentry))
  obtain rfl : w = v := Option.some.inj (hw.symm.trans hval)
  exact hwlow

theorem search_scale_low (normalRamTime : ℕ → FourBytes) (ram : ℕ → UInt8) (max min : ℚ) :
    Search (-1000000) 1000000 (newest entries 199 ∪ ranked entries 300)
      (scale (log normalRamTime ram entries) max min).maxV
      (scale (log normalRamTime ram entries) max min).minV := by
  have hsearch := search_scale normalRamTime ram entries max min
  have hnewest : counted (entries.reverse.take 199) = newest entries 199 :=
    counted_eq fun entry hentry => hlow entry (List.mem_reverse.1 (List.mem_of_mem_take hentry))
  have hranked : counted (entries.reverse[300]?).toList = ranked entries 300 := by
    have hin : ∀ entry ∈ (entries.reverse[300]?).toList, ∃ v, val entry = some v ∧ v < 50000 := by
      intro entry hentry
      exact hlow entry (List.mem_reverse.1 (List.mem_of_getElem? (Option.mem_toList.1 hentry)))
    rw [counted_eq hin]
    ext v
    simp only [ranked, Option.mem_toList]
  rw [hnewest, hranked] at hsearch
  exact hsearch

/-- Neither of the two sets goes beyond the other one, upwards or downwards. -/
theorem inside_iff :
    (IsCofinalFor (newest entries 200)
        (insert (-1000000) (newest entries 199 ∪ ranked entries 300)) ∧
      IsCofinalFor (insert (-1000000) (newest entries 199 ∪ ranked entries 300))
        (newest entries 200)) ∧
    (IsCoinitialFor (newest entries 200)
        (insert 1000000 (newest entries 199 ∪ ranked entries 300)) ∧
      IsCoinitialFor (insert 1000000 (newest entries 199 ∪ ranked entries 300))
        (newest entries 200)) ↔ Inside entries := by
  have hsplit : newest entries 200 = newest entries 199 ∪ ranked entries 199 :=
    newest_succ entries 199
  -- every value is low, so that no value drawn lies above the start of the search downwards
  have hstart : ∀ w ∈ newest entries 200, w ≤ 1000000 := by
    intro w hw
    have hw' := lt_of_newest hlow hw
    linarith
  rw [hsplit, cofinal_shared_iff, coinitial_shared_iff, ← hsplit]
  constructor
  · rintro ⟨⟨habove, hup, hup'⟩, -, hdown, hdown'⟩
    refine ⟨habove, fun v hv => ⟨hup v hv, ?_⟩, fun v hv => ⟨hup' v hv, hdown' v hv⟩⟩
    rcases hdown v hv with hhigh | hw
    · have hdrawn : v ∈ newest entries 200 := by
        rw [hsplit]
        exact Or.inr hv
      have hv' := lt_of_newest hlow hdrawn
      linarith
    · exact hw
  · intro h
    refine ⟨⟨h.above, fun v hv => (h.last v hv).1, fun v hv => (h.oldest v hv).1⟩, ?_,
      fun v hv => Or.inr (h.last v hv).2, fun v hv => (h.oldest v hv).2⟩
    rcases h.above with ⟨w, hw, -⟩
    exact ⟨w, hw, hstart w hw⟩

/-- The scale is that of the samples drawn exactly if the entries at which the walks differ lie
inside. -/
theorem extremes_iff (normalRamTime : ℕ → FourBytes) (ram : ℕ → UInt8) (max min : ℚ) :
    (IsGreatest (drawnValues (log normalRamTime ram entries))
        (scale (log normalRamTime ram entries) max min).maxV ∧
      IsLeast (drawnValues (log normalRamTime ram entries))
        (scale (log normalRamTime ram entries) max min).minV) ↔ Inside entries := by
  have hsearch := search_scale_low hlow normalRamTime ram max min
  rw [drawnValues_log, isGreatest_iff_of_isGreatest hsearch.greatest,
    isLeast_iff_of_isLeast hsearch.least, inside_iff hlow]

end Fits

/-- For every number of entries below 50000, the scale is that of the samples drawn and all points are
on the graph, exactly when the two entries that only one of the walks comes to lie among the others. -/
theorem scale_fits_iff (normalRamTime : ℕ → FourBytes) (ram : ℕ → UInt8) (max min : ℚ)
    {entries : List TimedLog} (hlow : ∀ entry ∈ entries, ∃ v, val entry = some v ∧ v < 50000) :
    ScaleFits (exec RamClass.logData (init normalRamTime ram) entries) max min ↔
      entries = [] ∨ Inside entries := by
  have hempty := drawn_log_eq_nil_iff normalRamTime ram entries
  have hextremes := extremes_iff hlow normalRamTime ram max min
  rw [← log]
  by_cases hnil : entries = []
  · -- nothing is drawn
    have hnone := hempty.2 hnil
    refine iff_of_true ⟨fun hne => absurd hnone hne, ?_⟩ (Or.inl hnil)
    rw [points, hnone]
    simp
  · have hne := mt hempty.1 hnil
    rw [ScaleFits, or_iff_right hnil, ← hextremes]
    constructor
    · exact fun h => h.1 hne
    · intro h
      refine ⟨fun _ => h, points_fit ?_⟩
      -- what is drawn is a number, and lies between the extremes of what is drawn
      intro entry hentry
      have hmem := hentry
      rw [drawn_log] at hmem
      obtain ⟨v, hv, -⟩ := hlow entry (List.mem_reverse.1 (List.mem_of_mem_take hmem))
      have hin : v ∈ drawnValues (log normalRamTime ram entries) := ⟨entry, hentry, hv⟩
      exact ⟨v, hv, h.2.2 hin, h.1.2 hin⟩

/-- The bytes of 0.0 and of 100.0. -/
def zero : FourBytes := fun _ => 0

def hundred : FourBytes := ![0x00, 0x00, 0xC8, 0x42]

theorem val_zero : val ⟨zero, zero⟩ = some 0 := by decide +kernel

theorem val_hundred : val ⟨hundred, zero⟩ = some 100 := by decide +kernel

/-- A log of two values. -/
theorem scale_fits_iff_two :
    ScaleFits (exec RamClass.logData (init (fun _ => zero) fun _ => 0)
      [⟨zero, zero⟩, ⟨hundred, zero⟩]) 0 0 := by
  have hlow : ∀ entry ∈ ([⟨zero, zero⟩, ⟨hundred, zero⟩] : List TimedLog),
      ∃ v, val entry = some v ∧ v < 50000 := by
    intro entry hentry
    rcases List.mem_pair.1 hentry with rfl | rfl
    · exact ⟨0, val_zero, by norm_num⟩
    · exact ⟨100, val_hundred, by norm_num⟩
  refine (scale_fits_iff (fun _ => zero) (fun _ => 0) 0 0 hlow).2 (Or.inr ⟨?_, ?_, ?_⟩)
  · exact ⟨0, ⟨⟨zero, zero⟩, by simp, val_zero⟩, by norm_num⟩
  · rintro v ⟨entry, hentry, -⟩
    simp at hentry
  · rintro v ⟨entry, hentry, -⟩
    simp at hentry

/-- A log of 200 values with the greatest one first: it is drawn, but not counted. -/
theorem scale_of_two_hundred :
    let entries : List TimedLog := ⟨hundred, zero⟩ :: List.replicate 199 ⟨zero, zero⟩
    (∀ entry ∈ entries, ∃ v, val entry = some v ∧ v < 50000) ∧
    ¬ ScaleFits (exec RamClass.logData (init (fun _ => zero) fun _ => 0) entries) 0 0 := by
  intro entries
  have hlow : ∀ entry ∈ entries, ∃ v, val entry = some v ∧ v < 50000 := by
    intro entry hentry
    rcases List.mem_cons.1 hentry with rfl | hrest
    · exact ⟨100, val_hundred, by norm_num⟩
    · rw [List.eq_of_mem_replicate hrest]
      exact ⟨0, val_zero, by norm_num⟩
  refine ⟨hlow, fun hfits => ?_⟩
  have hreverse : entries.reverse = List.replicate 199 ⟨zero, zero⟩ ++ [⟨hundred, zero⟩] := by
    rw [List.reverse_cons, List.reverse_replicate]
  have hzeros : (List.replicate 199 (⟨zero, zero⟩ : TimedLog)).length = 199 :=
    List.length_replicate
  have hlength : entries.reverse.length = 200 := by
    rw [List.length_reverse, List.length_cons, hzeros]
  have hdrawn : drawn (exec RamClass.logData (init (fun _ => zero) fun _ => 0) entries) =
      List.replicate 199 ⟨zero, zero⟩ ++ [⟨hundred, zero⟩] := by
    have htake := drawn_log (fun _ => zero) (fun _ => 0) entries
    rw [List.take_of_length_le hlength.le, hreverse] at htake
    exact htake
  have hmem : ⟨hundred, zero⟩ ∈ drawn (exec RamClass.logData (init (fun _ => zero) fun _ => 0)
      entries) := by
    rw [hdrawn]
    exact List.mem_append_right _ (List.mem_singleton_self _)
  have hgreatest := (hfits.1 (List.ne_nil_of_mem hmem)).1
  have hhundred : (100 : ℚ) ≤ _ := hgreatest.2 ⟨⟨hundred, zero⟩, hmem, val_hundred⟩
  -- the first walk has only come to zeros
  have hsearch := search_scale_low hlow (fun _ => zero) (fun _ => 0) 0 0
  rcases hsearch.greatest.1 with hstart | ⟨entry, hentry, hval⟩ | ⟨entry, hentry, -⟩
  · rw [log] at hstart
    linarith
  · rw [hreverse, List.take_left' hzeros] at hentry
    rw [List.eq_of_mem_replicate hentry, val_zero, log] at hval
    have hvalue := Option.some.inj hval
    linarith
  · rw [List.getElem?_eq_none (by omega)] at hentry
    exact absurd hentry (by simp)

end TrendGraph
end PoorMansSmu
