import PoorMansSmu.DialValue
import PoorMansSmu.Lib.Segment

/-!
# DialScaling — the keys that move the comma

Times ten moves the comma to the right and divided by ten moves it to the left.  Times ten does
nothing without digits behind the comma.  Divided by ten takes one digit off the end when there
would be more than two behind the comma, however many there are.

- `Entry.times10`, `Entry.divide10` : what the keys do to the digits;
- `Shows.times10`, `Shows.divide10` : the keys of a dial do that;
- `scalingLaws_iff` : for which entries the keys multiply and divide the number on the display.
-/

namespace PoorMansSmu

open Segment

namespace FrontPanel
namespace Entry

/-! ## What the keys do to an entry -/

def times10 (e : Entry) : Entry :=
  match e.fraction with
  | none => e
  | some [] => ⟨e.whole, none⟩
  | some [c] => ⟨e.whole ++ [c], none⟩
  | some (c :: c' :: rest) => ⟨e.whole ++ [c], some (c' :: rest)⟩

/-- The last digit before the comma goes behind it, where the last one may be taken off. -/
def divide10 (e : Entry) : Entry :=
  let c := e.whole.getLastD 0
  match e.fraction with
  | none => ⟨e.whole.dropLast, some [c]⟩
  | some fraction =>
      if e.whole.length > 1 then
        ⟨e.whole.dropLast,
          some (if fraction.length > 1 then (c :: fraction).dropLast else c :: fraction)⟩
      else ⟨[0], some (if fraction.length > 0 then (c :: fraction).dropLast else [c])⟩

/-- All entries but the comma are digits. -/
structure Digits (e : Entry) : Prop where
  whole : ∀ c ∈ e.whole, c ≤ 9
  fraction : ∀ f, e.fraction = some f → ∀ c ∈ f, c ≤ 9

/-- Digits with at most one comma, at least one of them before it. -/
structure WellFormed (e : Entry) : Prop extends Digits e where
  nonempty : e.whole ≠ []

theorem WellFormed.whole_concat {e : Entry} (h : e.WellFormed) : ∃ w c, e.whole = w ++ [c] :=
  ⟨_, _, (List.dropLast_append_getLast h.nonempty).symm⟩

section Digits

variable {e : Entry}

theorem Digits.single (h : e.Digits) : e.Single where
  whole c hc := by
    have := h.whole c hc
    simp only [KEYBOARD_COMMA]
    omega
  fraction f hf c hc := by
    have := h.fraction f hf c hc
    simp only [KEYBOARD_COMMA]
    omega

theorem forall_mem_concat {w : List ℕ} {c : ℕ} (hw : ∀ x ∈ w, x ≤ 9) (hc : c ≤ 9) :
    ∀ x ∈ w ++ [c], x ≤ 9 := by
  intro x hx
  rcases List.mem_append.1 hx with hold | hnew
  · exact hw x hold
  · rw [List.mem_singleton.1 hnew]
    exact hc

theorem Digits.times10 (h : e.Digits) : e.times10.Digits := by
  rcases e with ⟨whole, _ | _ | ⟨c, _ | ⟨c', rest⟩⟩⟩
  · exact h
  · exact ⟨h.whole, fun f hf => by cases hf⟩
  · exact ⟨forall_mem_concat h.whole (h.fraction _ rfl c (List.mem_cons_self ..)),
      fun f hf => by cases hf⟩
  · refine ⟨forall_mem_concat h.whole (h.fraction _ rfl c (List.mem_cons_self ..)), ?_⟩
    rintro f hf x hx
    cases hf
    exact h.fraction _ rfl x (List.mem_cons_of_mem c hx)

theorem Digits.divide10 (h : e.Digits) : e.divide10.Digits := by
  rcases e with ⟨whole, fraction⟩
  have hlast : whole.getLastD 0 ≤ 9 := by
    rw [List.getLastD_eq_getLast?]
    cases hget : whole.getLast? with
    | none => exact Nat.zero_le 9
    | some c => exact h.whole c (List.mem_of_getLast? hget)
  have hwhole : ∀ c ∈ whole.dropLast, c ≤ 9 := fun c hc => h.whole c (List.mem_of_mem_dropLast hc)
  cases fraction with
  | none =>
      refine ⟨hwhole, ?_⟩
      rintro f hf c hc
      cases hf
      rw [List.mem_singleton.1 hc]
      exact hlast
  | some fraction =>
      have hall : ∀ c ∈ whole.getLastD 0 :: fraction, c ≤ 9 :=
        List.forall_mem_cons.2 ⟨hlast, h.fraction fraction rfl⟩
      have hcut : ∀ c ∈ (whole.getLastD 0 :: fraction).dropLast, c ≤ 9 := fun c hc =>
        hall c (List.mem_of_mem_dropLast hc)
      have hone : ∀ c ∈ [whole.getLastD 0], c ≤ 9 := fun c hc => by
        rw [List.mem_singleton.1 hc]
        exact hlast
      unfold Entry.divide10
      dsimp only
      split_ifs
      · exact ⟨hwhole, fun f hf => by cases hf; exact hcut⟩
      · exact ⟨hwhole, fun f hf => by cases hf; exact hall⟩
      · exact ⟨by simp, fun f hf => by cases hf; exact hcut⟩
      · exact ⟨by simp, fun f hf => by cases hf; exact hone⟩

end Digits

/-- After divided by ten there is a digit behind the comma. -/
theorem divide10_fraction (e : Entry) : ∃ c rest, e.divide10.fraction = some (c :: rest) := by
  rcases e with ⟨whole, _ | fraction⟩
  · exact ⟨_, [], rfl⟩
  · unfold divide10
    dsimp only
    split_ifs with hlong hmany hmany
    · exact ⟨_, _, congrArg some (List.dropLast_cons_of_ne_nil
        (List.ne_nil_of_length_pos (by omega)))⟩
    · exact ⟨_, _, rfl⟩
    · exact ⟨_, _, congrArg some (List.dropLast_cons_of_ne_nil (List.ne_nil_of_length_pos hmany))⟩
    · exact ⟨_, _, rfl⟩

/-! ## What that does to the number -/

theorem times10_number {e : Entry} {c : ℕ} {rest : List ℕ} (h : e.fraction = some (c :: rest)) :
    e.times10.number = 10 * e.number := by
  rcases e with ⟨whole, fraction⟩
  have hfraction : fraction = some (c :: rest) := h
  have hshift := Positional.value_shift (b := 10) whole rest c (by decide)
  subst hfraction
  unfold times10 number
  push_cast at hshift
  rw [mul_comm]
  cases rest with
  | nil => exact hshift
  | cons c' rest => exact hshift

/-- Without digits behind the comma the number stays what it was. -/
theorem times10_number_same {e : Entry} (h : ∀ c rest, e.fraction ≠ some (c :: rest)) :
    e.times10.number = e.number := by
  rcases e with ⟨whole, _ | _ | ⟨c, rest⟩⟩
  · rfl
  · rfl
  · exact absurd rfl (h c rest)

/-- The digits behind the comma that stay. -/
def kept (w fraction : List ℕ) : List ℕ :=
  if w.length > 0 ∧ fraction.length ≤ 1 then fraction else fraction.dropLast

theorem number_concat (w : List ℕ) (c : ℕ) (fraction : Option (List ℕ)) :
    number ⟨w ++ [c], fraction⟩ = 10 * Positional.value 10 w (c :: fraction.getD []) := by
  have hshift := Positional.value_shift (b := 10) w (fraction.getD []) c (by decide)
  push_cast at hshift
  rw [mul_comm]
  exact hshift

theorem divide10_number (w : List ℕ) (c : ℕ) (fraction : Option (List ℕ)) :
    (divide10 ⟨w ++ [c], fraction⟩).number =
      Positional.value 10 w (c :: kept w (fraction.getD [])) := by
  unfold divide10 kept
  dsimp only
  rw [List.getLastD_concat, List.dropLast_concat, List.length_append, List.length_singleton]
  cases fraction with
  | none =>
      dsimp only
      rw [Option.getD_none, List.dropLast_nil, ite_self]
      rfl
  | some fraction =>
      dsimp only
      rw [Option.getD_some]
      by_cases hw : w = []
      · -- the zero in front does not count
        subst hw
        rw [if_neg (by simp : ¬ [].length + 1 > 1)]
        show Positional.value 10 [0] _ = _
        rw [Positional.value_zero_cons]
        cases fraction with
        | nil => rfl
        | cons c' rest => rfl
      · have hpos := List.length_pos_iff.2 hw
        rw [if_pos (by omega)]
        show Positional.value 10 w _ = _
        congr 1
        rw [Option.getD_some]
        by_cases hlong : fraction.length > 1
        · rw [if_pos hlong, if_neg (by omega),
            List.dropLast_cons_of_ne_nil (List.ne_nil_of_length_pos (by omega))]
        · rw [if_neg hlong, if_pos ⟨hpos, by omega⟩]

/-- A number with what is behind its second decimal left out. -/
def twoDecimals (x : ℚ) : ℚ := ⌊x * 100⌋ / 100

theorem twoDecimals_value (w : List ℕ) {c : ℕ} {fraction : List ℕ}
    (hdigits : ∀ x ∈ fraction, x ≤ 9) :
    twoDecimals (Positional.value 10 w (c :: fraction)) =
      Positional.value 10 w (c :: fraction.take 1) := by
  have hhundred : ((10 : ℕ) : ℚ) ^ 2 = 100 := by norm_num
  unfold twoDecimals
  cases fraction with
  | nil =>
      -- with a zero as the second decimal
      have hpad : Positional.value 10 w [c] = Positional.value 10 w [c, 0] :=
        ((Positional.value_append_eq_iff w [c] (by decide) [0]).2 (by simp : ∀ x ∈ [0], x = 0)).symm
      have hfloor := Positional.floor_value (b := 10) w [c, 0] (by decide) []
        fun x hx => absurd hx List.not_mem_nil
      rw [List.append_nil, List.length_cons, List.length_singleton, hhundred] at hfloor
      rw [List.take_nil, hpad]
      exact hfloor
  | cons x rest =>
      have hfloor := Positional.floor_value (b := 10) w [c, x] (by decide) rest
        fun y hy => Nat.lt_succ_of_le (hdigits y (List.mem_cons_of_mem _ hy))
      rw [List.length_cons, List.length_singleton, hhundred] at hfloor
      exact hfloor

/-- No more than two digits are left behind the comma, and none of two is lost, or those that make
the difference are zeros. -/
theorem value_kept_iff (w : List ℕ) (c : ℕ) (fraction : List ℕ) :
    Positional.value 10 w (c :: kept w fraction) = Positional.value 10 w (c :: fraction.take 1) ↔
      (∀ x ∈ fraction.tail.dropLast, x = 0) ∧
        (w = [] → fraction.length = 1 → fraction = [0]) := by
  unfold kept
  match fraction with
  | [] => simp
  | [x] =>
      by_cases hw : w = []
      · -- the only digit behind the comma goes
        subst hw
        rw [if_neg (by simp)]
        have hzero := Positional.value_append_eq_iff (b := 10) [] [c] (by decide) [x]
        have hall : (∀ y ∈ [x], y = 0) ↔ [x] = [0] := by simp
        rw [hall] at hzero
        rw [eq_comm]
        refine hzero.trans ⟨fun h => ⟨by simp, fun _ _ => h⟩, fun h => h.2 rfl rfl⟩
      · rw [if_pos ⟨List.length_pos_iff.2 hw, Nat.le_refl 1⟩]
        refine iff_of_true rfl ⟨by simp, fun h => absurd h hw⟩
  | x :: y :: rest =>
      rw [if_neg (by simp), List.dropLast_cons_of_ne_nil (List.cons_ne_nil y rest)]
      have hzeros := Positional.value_append_eq_iff (b := 10) w [c, x] (by decide)
        (y :: rest).dropLast
      exact hzeros.trans ⟨fun h => ⟨h, fun _ hone => by simp at hone⟩, fun h => h.1⟩

end Entry
end FrontPanel

namespace Keypad

open FrontPanel hiding DialClass

/-! ## Dials that show an entry -/

/-- An entry as it is stored. -/
def stored (l : List ℕ) : List ℤ := l.map (Nat.cast : ℕ → ℤ)

/-- What is shown is the entry. -/
structure Shows (d : DialClass) (e : Entry) : Prop where
  digits : d.digits = e.entries.length
  cells : StoredAt d.dialEntries 0 (stored e.entries)

section Shows

variable {d : DialClass} {e : Entry}

theorem Shows.entries (h : Shows d e) : d.display.entries = e.entries := by
  have hdigits := h.digits
  apply List.ext_getElem
  · rw [DialDisplay.length_entries]
    show d.digits.toNat = _
    omega
  · intro i hi hi'
    have hcell := h.cells.getElem (i := i) (by simpa [stored] using hi')
    simp only [stored, List.getElem_map, zero_add] at hcell
    simp [DialDisplay.entries, DialClass.display, hcell]

theorem Shows.number (h : Shows d e) (hsingle : ∀ c ∈ e.whole, c ≠ KEYBOARD_COMMA) :
    d.display.number = e.number :=
  DialDisplay.number_eq h.entries hsingle

theorem stored_append (a b : List ℕ) : stored (a ++ b) = stored a ++ stored b :=
  List.map_append

@[simp] theorem length_stored (l : List ℕ) : (stored l).length = l.length :=
  List.length_map _

/-- The segments of an entry with a comma. -/
theorem shows_some_iff {whole fraction : List ℕ} :
    Shows d ⟨whole, some fraction⟩ ↔
      d.digits = whole.length + 1 + fraction.length ∧
        StoredAt d.dialEntries 0 (stored whole) ∧
          d.dialEntries whole.length = KEYBOARD_COMMA ∧
            StoredAt d.dialEntries (whole.length + 1) (stored fraction) := by
  have hlength : ((⟨whole, some fraction⟩ : Entry).entries.length : ℤ) =
      whole.length + 1 + fraction.length := by
    simp only [Entry.entries, List.length_append, List.length_cons]
    push_cast
    ring
  have hstored : stored (⟨whole, some fraction⟩ : Entry).entries =
      stored whole ++ (KEYBOARD_COMMA : ℤ) :: stored fraction := stored_append _ _
  constructor
  · intro h
    have hcells := h.cells
    rw [hstored, storedAt_append, length_stored, zero_add, storedAt_cons] at hcells
    exact ⟨h.digits.trans hlength, hcells⟩
  · rintro ⟨hdigits, hcells⟩
    refine ⟨hdigits.trans hlength.symm, ?_⟩
    rw [hstored, storedAt_append, length_stored, zero_add, storedAt_cons]
    exact hcells

/-- The comma is found where it is. -/
theorem Shows.comma (h : Shows d e) (hsingle : ∀ c ∈ e.whole, c ≠ KEYBOARD_COMMA) :
    d.comma = e.fraction.map fun _ => e.whole.length := by
  have hdigits := h.digits
  -- nothing before it is taken for the comma
  have hwhole : ∀ i (hi : i < e.whole.length), d.dialEntries i ≠ KEYBOARD_COMMA := by
    intro i hi hcomma
    have hentry : i < e.entries.length := by
      rcases e with ⟨whole, _ | fraction⟩ <;> simp [Entry.entries] at hi ⊢ <;> omega
    have hcell := h.cells.getElem (i := i) (by simpa [stored] using hentry)
    have hget : e.entries[i] = e.whole[i] := by
      rcases e with ⟨whole, _ | fraction⟩
      · rfl
      · exact List.getElem_append_left hi
    simp only [stored, List.getElem_map, zero_add, hget] at hcell
    rw [hcell] at hcomma
    exact hsingle _ (List.getElem_mem hi) (by exact_mod_cast hcomma)
  unfold DialClass.comma
  rcases e with ⟨whole, _ | fraction⟩
  · have hlength : d.digits = whole.length := hdigits
    rw [Option.map_none, List.find?_range_eq_none]
    intro i hi
    simpa using hwhole i (by dsimp only; omega)
  · rcases shows_some_iff.1 h with ⟨hlength, -, hcomma, -⟩
    rw [Option.map_some, List.find?_range_eq_some]
    refine ⟨decide_eq_true hcomma, List.mem_range.2 (by dsimp only; omega), fun i hi => ?_⟩
    simpa using hwhole i hi

/-! ## Times ten -/

theorem Shows.times10 (h : Shows d e) (hsingle : ∀ c ∈ e.whole, c ≠ KEYBOARD_COMMA) :
    Shows d.times10 e.times10 := by
  have hcomma := h.comma hsingle
  unfold DialClass.times10
  rcases e with ⟨whole, _ | fraction⟩
  · rw [Option.map_none] at hcomma
    rw [hcomma]
    exact ⟨h.digits, h.cells⟩
  · rw [Option.map_some] at hcomma
    rw [hcomma]
    dsimp only
    rcases shows_some_iff.1 h with ⟨hdigits, hwhole, -, hbehind⟩
    have hkept : ∀ v, StoredAt (Function.update d.dialEntries whole.length v) 0 (stored whole) :=
      fun v => hwhole.update (Or.inr (by simp))
    match fraction with
    | [] =>
        -- the comma goes
        simp only [List.length_nil] at hdigits
        rw [if_neg (by omega)]
        refine ⟨?_, hkept _⟩
        show d.digits - 1 = (whole.length : ℤ)
        omega
    | [c] =>
        -- the comma goes, and the digit behind it takes its place
        simp only [List.length_singleton] at hdigits
        rw [if_neg (by omega)]
        refine ⟨?_, ?_⟩
        · show d.digits - 1 = ((whole ++ [c]).length : ℕ)
          rw [List.length_append, List.length_singleton]
          push_cast
          omega
        · show StoredAt _ 0 (stored (whole ++ [c]))
          rw [stored_append, storedAt_append, length_stored, zero_add]
          refine ⟨hkept _, ?_, trivial⟩
          exact (Function.update_self ..).trans hbehind.1
    | c :: c' :: rest =>
        simp only [List.length_cons] at hdigits
        push_cast at hdigits
        rw [if_pos (by omega)]
        have hnext : ((whole ++ [c]).length : ℤ) = whole.length + 1 := by simp
        apply shows_some_iff.2
        rw [hnext]
        refine ⟨?_, ?_, Function.update_self .., ?_⟩
        · show d.digits = _
          rw [hdigits, List.length_cons]
          push_cast
          ring
        · apply StoredAt.update
          · rw [stored_append, storedAt_append, length_stored, zero_add]
            refine ⟨hkept _, ?_, trivial⟩
            exact (Function.update_self ..).trans hbehind.1
          · right
            simp
        · exact (hbehind.2.update (Or.inl (by omega))).update (Or.inl (by omega))

/-! ## Divided by ten -/

/-- The loop that makes room for a leading zero: after `n` rounds the last `n` cells are moved. -/
theorem shift_rounds (d : DialClass) (last : ℕ) {n : ℕ} (hn : n ≤ last + 1) (j : ℤ) :
    ((List.range n).foldl (fun (d : DialClass) (k : ℕ) => d.copy (last - k : ℤ) (last - k - 1))
      d).dialEntries j =
      if (last : ℤ) - n < j ∧ j ≤ last then d.dialEntries (j - 1) else d.dialEntries j := by
  induction n generalizing j with
  | zero =>
      rw [if_neg (by omega)]
      rfl
  | succ n ih =>
      have hrounds := ih (by omega)
      rw [List.range_succ, List.foldl_append, List.foldl_cons, List.foldl_nil]
      show Function.update _ ((last : ℤ) - n) _ j = _
      by_cases hj : j = last - n
      · -- the cell of this round takes what the one before it held from the start
        rw [hj, Function.update_self, hrounds, if_neg (by omega), if_pos (by omega)]
      · rw [Function.update_of_ne hj, hrounds]
        refine if_congr ?_ rfl rfl
        omega

theorem shift_dialEntries (d : DialClass) (last : ℕ) (j : ℤ) :
    (d.shift last).dialEntries j =
      if 0 ≤ j ∧ j ≤ last then d.dialEntries (j - 1) else d.dialEntries j := by
  unfold DialClass.shift
  rw [shift_rounds d last (Nat.le_refl _)]
  refine if_congr ?_ rfl rfl
  omega

/-- Taking the last digit behind the comma off. -/
theorem Shows.shorten {whole fraction : List ℕ} {c : ℕ}
    (h : Shows d ⟨whole, some (c :: fraction)⟩) (i : ℕ) :
    Shows (d.shorten i)
      ⟨whole, some (if whole.length + 1 + (fraction.length + 1) > i + 2 then
        (c :: fraction).dropLast else c :: fraction)⟩ := by
  rcases shows_some_iff.1 h with ⟨hdigits, hwhole, hpoint, hbehind⟩
  rw [List.length_cons] at hdigits
  unfold DialClass.shorten
  by_cases hmany : whole.length + 1 + (fraction.length + 1) > i + 2
  · rw [if_pos hmany, if_pos (by omega)]
    apply shows_some_iff.2
    refine ⟨?_, hwhole, hpoint, ?_⟩
    · show d.digits - 1 = _
      rw [List.length_dropLast, List.length_cons]
      omega
    · have hsplit := List.dropLast_append_getLast (List.cons_ne_nil c fraction)
      rw [← hsplit, stored_append, storedAt_append] at hbehind
      exact hbehind.1
  · rw [if_neg hmany, if_neg (by omega)]
    exact h

/-- The comma changes places with the digit before it. -/
theorem Shows.moveLeft {w fraction : List ℕ} {c : ℕ}
    (h : Shows d ⟨w ++ [c], some fraction⟩) {d' : DialClass} (hdigits' : d'.digits = d.digits)
    (hentries : d'.dialEntries = Function.update
      (Function.update d.dialEntries (w.length + 1) (d.dialEntries w.length)) w.length
        KEYBOARD_COMMA) :
    Shows d' ⟨w, some (c :: fraction)⟩ := by
  rcases shows_some_iff.1 h with ⟨hdigits, hwhole, -, hbehind⟩
  have hnext : ((w ++ [c]).length : ℤ) = w.length + 1 := by simp
  rw [stored_append, storedAt_append, length_stored, zero_add] at hwhole
  rw [hnext] at hdigits hbehind
  apply shows_some_iff.2
  rw [hdigits', hdigits, hentries, List.length_cons]
  refine ⟨by push_cast; ring, ?_, Function.update_self .., ?_, ?_⟩
  · exact (hwhole.1.update (Or.inr (by simp))).update (Or.inr (by simp))
  · rw [Function.update_of_ne (by omega), Function.update_self]
    exact hwhole.2.1
  · exact (hbehind.update (Or.inl (by omega))).update (Or.inl (by omega))

theorem put_dialEntries (d : DialClass) (i v : ℤ) :
    (d.put i v).dialEntries = Function.update d.dialEntries i v := rfl

theorem shift_digits (d : DialClass) (last : ℕ) : (d.shift last).digits = d.digits :=
  List.foldlRecOn (List.range (last + 1)) _
    (motive := fun (d' : DialClass) => d'.digits = d.digits) rfl fun _ hd' _ _ => hd'

/-- A zero in front, once everything is moved up by one. -/
theorem Shows.leadingZero {fraction : List ℕ} (h : Shows d ⟨[], some fraction⟩) (last : ℕ)
    (hlast : d.digits ≤ last) :
    Shows (({ d with digits := d.digits + 1 }.shift last).put 0 0) ⟨[0], some fraction⟩ := by
  rcases shows_some_iff.1 h with ⟨hdigits, -, hpoint, hbehind⟩
  have hmoved : ∀ j : ℕ, j < last →
      (({ d with digits := d.digits + 1 }.shift last).put 0 0).dialEntries (j + 1) =
        d.dialEntries j := by
    intro j hj
    rw [put_dialEntries, Function.update_of_ne (by omega), shift_dialEntries, if_pos (by omega),
      add_sub_cancel_right]
  simp only [List.length_nil, Nat.cast_zero, zero_add] at hdigits hpoint hbehind
  apply shows_some_iff.2
  refine ⟨?_, ⟨by rw [put_dialEntries, Function.update_self]; rfl, trivial⟩, ?_, ?_⟩
  · show ({ d with digits := d.digits + 1 }.shift last).digits = _
    rw [shift_digits]
    show d.digits + 1 = _
    rw [hdigits, List.length_singleton]
    push_cast
    ring
  · exact (hmoved 0 (by omega)).trans hpoint
  · refine hbehind.congr fun i hi => ?_
    have hcell := hmoved (i + 1) (by simp at hi; omega)
    push_cast at hcell
    rw [List.length_singleton, Nat.cast_one, add_right_comm, add_comm (1 : ℤ)]
    exact hcell

/-- Without a comma, one is put before the last digit. -/
theorem Shows.divide10_none {w : List ℕ} {c : ℕ} (h : Shows d ⟨w ++ [c], none⟩)
    (hcomma : d.comma = none) : Shows d.divide10 ⟨w, some [c]⟩ := by
  have hdigits : d.digits = w.length + 1 := by
    rw [h.digits]
    simp [Entry.entries]
  have hback : d.digits - 1 = w.length := by omega
  have hcells : StoredAt d.dialEntries 0 (stored (w ++ [c])) := h.cells
  rw [stored_append, storedAt_append, length_stored, zero_add] at hcells
  unfold DialClass.divide10
  rw [hcomma]
  dsimp only
  rw [hback]
  apply shows_some_iff.2
  refine ⟨?_, ?_, Function.update_self .., ?_, trivial⟩
  · show d.digits + 1 = _
    rw [hdigits, List.length_singleton]
    rfl
  · exact (hcells.1.update (Or.inr (by simp; omega))).update (Or.inr (by simp))
  · -- the last digit was copied to the cell behind it
    show Function.update (Function.update d.dialEntries d.digits _) (w.length : ℤ) _ _ = _
    rw [Function.update_of_ne (by omega), ← hdigits, Function.update_self]
    exact hcells.2.1

/-- With a comma, which moves to the left, a zero is put in front if nothing is left there. -/
theorem Shows.divide10_some {w fraction : List ℕ} {c : ℕ}
    (h : Shows d ⟨w ++ [c], some fraction⟩) (hcomma : d.comma = some (w.length + 1)) :
    Shows d.divide10 (Entry.divide10 ⟨w ++ [c], some fraction⟩) := by
  have hlength : (w ++ [c]).length = w.length + 1 := by simp
  have hdigits := (shows_some_iff.1 h).1
  have hback : ((w.length + 1 : ℕ) : ℤ) - 1 = w.length := by omega
  have hmoved : Shows ((d.search.copy (w.length + 1 : ℕ) w.length).put w.length KEYBOARD_COMMA)
      ⟨w, some (c :: fraction)⟩ := h.moveLeft rfl (by push_cast; rfl)
  unfold DialClass.divide10 Entry.divide10
  rw [hcomma]
  dsimp only
  rw [List.getLastD_concat, List.dropLast_concat, hback]
  rw [hlength] at hdigits ⊢
  by_cases hlong : w.length + 1 > 1
  · -- the digit stays behind others
    rw [if_pos hlong, if_pos hlong]
    have hshort := hmoved.shorten (w.length + 1)
    have hmany : w.length + 1 + (fraction.length + 1) > w.length + 1 + 2 ↔
        fraction.length > 1 := by omega
    rw [if_congr hmany rfl rfl] at hshort
    exact hshort
  · -- the zero comes in front, while the limit is taken from where the comma was
    have hw : w = [] := List.eq_nil_of_length_eq_zero (by omega)
    subst hw
    rw [if_neg hlong, if_neg hlong]
    have hzero := hmoved.leadingZero (d.digits + 1).toNat (by
      show d.digits ≤ _
      omega)
    have hshort := hzero.shorten 1
    rw [List.length_singleton] at hshort
    have hmany : 1 + 1 + (fraction.length + 1) > 1 + 2 ↔ fraction.length > 0 := by omega
    rw [if_congr hmany rfl rfl] at hshort
    cases fraction with
    | nil => exact hshort
    | cons c' rest => exact hshort

theorem Shows.divide10 (h : Shows d e) (hwell : e.WellFormed) : Shows d.divide10 e.divide10 := by
  have hcomma := h.comma hwell.single.whole
  rcases e with ⟨whole, fraction⟩
  obtain ⟨w, c, rfl⟩ : ∃ w c, whole = w ++ [c] := hwell.whole_concat
  cases fraction with
  | none =>
      have hentry : Entry.divide10 ⟨w ++ [c], none⟩ = ⟨w, some [c]⟩ := by
        unfold Entry.divide10
        dsimp only
        rw [List.getLastD_concat, List.dropLast_concat]
      rw [hentry]
      exact h.divide10_none hcomma
  | some fraction =>
      rw [Option.map_some, List.length_append, List.length_singleton] at hcomma
      exact h.divide10_some hcomma

end Shows

/-! ## The laws -/

/-- What the two keys should do to the number on the display: the first one multiplies if the result
fits in the digits there are, the second one divides and leaves two decimals, and where nothing but
zeros was lost the first one takes the second one back. -/
structure ScalingLaws (d : DialClass) : Prop where
  times10 : 10 * d.display.number < 10 ^ maxDigits.toNat →
    (d.edit KEYBOARD_TIMES10).display.number = 10 * d.display.number
  divide10 : (d.edit KEYBOARD_DIVIDE10).display.number =
    Entry.twoDecimals (d.display.number / 10)
  restore : (d.edit KEYBOARD_DIVIDE10).display.number = d.display.number / 10 →
    ((d.edit KEYBOARD_DIVIDE10).edit KEYBOARD_TIMES10).display.number = d.display.number

/-- The entries for which they do. -/
structure Scales (e : Entry) : Prop where
  times10 : e.number = 0 ∨ 10 ^ maxDigits.toNat ≤ 10 * e.number ∨
    ∃ c rest, e.fraction = some (c :: rest)
  divide10 : ∀ fraction, e.fraction = some fraction →
    (∀ c ∈ fraction.tail.dropLast, c = 0) ∧
      (e.whole.length = 1 → fraction.length = 1 → fraction = [0])

section Laws

variable {d : DialClass} {e : Entry}

theorem Shows.number_times10 (h : Shows d e) (hdigits : e.Digits) :
    (d.edit KEYBOARD_TIMES10).display.number = e.times10.number :=
  (h.times10 hdigits.single.whole).number hdigits.times10.single.whole

theorem Shows.number_divide10 (h : Shows d e) (hwell : e.WellFormed) :
    (d.edit KEYBOARD_DIVIDE10).display.number = e.divide10.number :=
  (h.divide10 hwell).number hwell.toDigits.divide10.single.whole

theorem times10_law_iff (h : Shows d e) (hdigits : e.Digits) :
    (10 * d.display.number < 10 ^ maxDigits.toNat →
      (d.edit KEYBOARD_TIMES10).display.number = 10 * d.display.number) ↔
        e.number = 0 ∨ 10 ^ maxDigits.toNat ≤ 10 * e.number ∨
          ∃ c rest, e.fraction = some (c :: rest) := by
  rw [h.number hdigits.single.whole, h.number_times10 hdigits]
  by_cases hbehind : ∃ c rest, e.fraction = some (c :: rest)
  · rcases hbehind with ⟨c, rest, hfraction⟩
    exact iff_of_true (fun _ => Entry.times10_number hfraction)
      (Or.inr (Or.inr ⟨c, rest, hfraction⟩))
  · -- the key does not change the number
    rw [Entry.times10_number_same fun c rest hfraction => hbehind ⟨c, rest, hfraction⟩]
    constructor
    · intro hlaw
      by_cases hfits : 10 * e.number < 10 ^ maxDigits.toNat
      · have hsame := hlaw hfits
        exact Or.inl (by linarith)
      · exact Or.inr (Or.inl (not_lt.1 hfits))
    · rintro (hzero | hlarge | hsome) hfits
      · rw [hzero, mul_zero]
      · exact absurd hfits (not_lt.2 hlarge)
      · exact absurd hsome hbehind

theorem divide10_law_iff (h : Shows d e) (hwell : e.WellFormed) :
    (d.edit KEYBOARD_DIVIDE10).display.number = Entry.twoDecimals (d.display.number / 10) ↔
      ∀ fraction, e.fraction = some fraction →
        (∀ c ∈ fraction.tail.dropLast, c = 0) ∧
          (e.whole.length = 1 → fraction.length = 1 → fraction = [0]) := by
  rw [h.number hwell.single.whole, h.number_divide10 hwell]
  rcases e with ⟨whole, fraction⟩
  obtain ⟨w, c, rfl⟩ : ∃ w c, whole = w ++ [c] := hwell.whole_concat
  have hfraction : ∀ x ∈ fraction.getD [], x ≤ 9 := by
    cases fraction with
    | none => exact fun x hx => absurd hx List.not_mem_nil
    | some fraction => exact hwell.fraction fraction rfl
  rw [Entry.divide10_number, Entry.number_concat, mul_div_cancel_left₀ _ (by norm_num),
    Entry.twoDecimals_value w hfraction, Entry.value_kept_iff]
  have hone : (w ++ [c]).length = 1 ↔ w = [] := by simp
  cases fraction with
  | none => simp
  | some fraction =>
      simp only [Option.getD_some, Option.some.injEq, forall_eq', hone]

/-- The one key takes the other one back unless a digit was lost. -/
theorem restore_law (h : Shows d e) (hwell : e.WellFormed)
    (hexact : (d.edit KEYBOARD_DIVIDE10).display.number = d.display.number / 10) :
    ((d.edit KEYBOARD_DIVIDE10).edit KEYBOARD_TIMES10).display.number = d.display.number := by
  have hshows : Shows (d.edit KEYBOARD_DIVIDE10) e.divide10 := h.divide10 hwell
  have hdigits := hwell.toDigits.divide10
  rcases e.divide10_fraction with ⟨c, rest, hfraction⟩
  calc ((d.edit KEYBOARD_DIVIDE10).edit KEYBOARD_TIMES10).display.number
      = e.divide10.times10.number := hshows.number_times10 hdigits
    _ = 10 * e.divide10.number := Entry.times10_number hfraction
    _ = 10 * (d.display.number / 10) := by rw [← h.number_divide10 hwell, hexact]
    _ = d.display.number := mul_div_cancel₀ _ (by norm_num)

end Laws

/-- For every well-formed entry: the keys do what they should exactly if there is a digit behind the
comma to move it over, unless the result is zero or does not fit, and divided by ten neither leaves
a third digit behind the comma nor takes off the second one. -/
theorem scalingLaws_iff {d : DialClass} {e : Entry} (h : Shows d e) (hwell : e.WellFormed) :
    ScalingLaws d ↔ Scales e := by
  constructor
  · intro hlaws
    exact ⟨(times10_law_iff h hwell.toDigits).1 hlaws.times10,
      (divide10_law_iff h hwell).1 hlaws.divide10⟩
  · intro hscales
    exact ⟨(times10_law_iff h hwell.toDigits).2 hscales.times10,
      (divide10_law_iff h hwell).2 hscales.divide10, restore_law h hwell⟩

/-- A dial that shows 12,5. -/
def twelveFive : DialClass where
  dialEntries i := if i = 0 then 1 else if i = 1 then 2 else if i = 2 then KEYBOARD_COMMA else 5
  digits := 4

theorem twelveFive_shows : Shows twelveFive ⟨[1, 2], some [5]⟩ :=
  ⟨rfl, rfl, rfl, rfl, rfl, trivial⟩

theorem twelveFive_wellFormed : Entry.WellFormed ⟨[1, 2], some [5]⟩ where
  whole := by decide
  fraction f hf := by
    cases hf
    decide
  nonempty := List.cons_ne_nil 1 [2]

theorem scalingLaws_twelveFive : ScalingLaws twelveFive :=
  (scalingLaws_iff twelveFive_shows twelveFive_wellFormed).2
    { times10 := Or.inr (Or.inr ⟨5, [], rfl⟩)
      divide10 := fun f hf => by
        cases hf
        decide }

/-- Times ten leaves a five as it is. -/
theorem not_always_scales :
    ¬ ∀ (d : DialClass) (e : Entry), Shows d e → e.WellFormed → ScalingLaws d := by
  intro hall
  have hlaws := hall { dialEntries := fun _ => 5 } ⟨[5], none⟩ ⟨rfl, rfl, trivial⟩
    { whole := by decide
      fraction := fun f hf => by cases hf
      nonempty := List.cons_ne_nil 5 [] }
  have htimes := hlaws.times10
  revert htimes
  decide +kernel

end Keypad
end PoorMansSmu
