import Mathlib.Data.List.GetD
import Mathlib.Data.List.TakeWhile
import PoorMansSmu.Keypad
import PoorMansSmu.Lib.Positional

/-!
# DialValue — the number on the display of a dial and its value

`toMv` reads the entries that are shown.  After the comma it goes on to the next entry at once, and
when the comma is the last one shown, that is an entry which is not shown any more.

- `Entry`            : the entries as digits before the comma and behind it;
- `toMv_eq`          : what `toMv` makes of them;
- `toMv_eq_shown_iff` : when this is the number on the display, in all dials that can be entered;
- `not_always_shown` : a digit that was taken back still counts.
-/

namespace PoorMansSmu

/-! ## Entries -/

namespace FrontPanel

/-- An entry, with what is behind the comma if there is one. -/
structure Entry where
  whole : List ℕ
  fraction : Option (List ℕ)
  deriving DecidableEq

namespace Entry

def entries (e : Entry) : List ℕ :=
  match e.fraction with
  | none => e.whole
  | some fraction => e.whole ++ KEYBOARD_COMMA :: fraction

/-- The number that is written; nothing behind the comma is zero. -/
def number (e : Entry) : ℚ := Positional.value 10 e.whole (e.fraction.getD [])

/-- Entries as they are read on the display. -/
def read (entries : List ℕ) : Entry where
  whole := entries.takeWhile (· ≠ KEYBOARD_COMMA)
  fraction := (entries.dropWhile (· ≠ KEYBOARD_COMMA)).tail?

/-- There is no comma but the one. -/
structure Single (e : Entry) : Prop where
  whole : ∀ c ∈ e.whole, c ≠ KEYBOARD_COMMA
  fraction : ∀ f, e.fraction = some f → ∀ c ∈ f, c ≠ KEYBOARD_COMMA

theorem entries_read (l : List ℕ) : (read l).entries = l := by
  have hsplit := List.takeWhile_append_dropWhile (p := (· ≠ KEYBOARD_COMMA)) (l := l)
  unfold read entries
  cases hrest : l.dropWhile (· ≠ KEYBOARD_COMMA) with
  | nil =>
      rw [hrest, List.append_nil] at hsplit
      exact hsplit
  | cons c rest =>
      have hcomma : c = KEYBOARD_COMMA := by
        have hhead := List.head_dropWhile_not (· ≠ KEYBOARD_COMMA) (l := l)
          (by rw [hrest]; exact List.cons_ne_nil c rest)
        simp only [hrest, List.head_cons] at hhead
        simpa using hhead
      rw [hrest, hcomma] at hsplit
      exact hsplit

/-- The comma comes right behind the digits before it. -/
theorem getElem?_comma {e : Entry} {f : List ℕ} (hf : e.fraction = some f) :
    e.entries[e.whole.length]? = some KEYBOARD_COMMA := by
  unfold entries
  rw [hf]
  dsimp only
  rw [List.getElem?_append_right (Nat.le_refl _), Nat.sub_self, List.getElem?_cons_zero]

theorem getElem?_behind {e : Entry} {f : List ℕ} (hf : e.fraction = some f) (k : ℕ) :
    e.entries[e.whole.length + (k + 1)]? = f[k]? := by
  unfold entries
  rw [hf]
  dsimp only
  rw [List.getElem?_append_right (Nat.le_add_right _ _), Nat.add_sub_cancel_left,
    List.getElem?_cons_succ]

theorem whole_read (l : List ℕ) : ∀ c ∈ (read l).whole, c ≠ KEYBOARD_COMMA := by
  intro c hc
  have := List.mem_takeWhile_imp hc
  simpa using this

theorem read_entries {e : Entry} (h : ∀ c ∈ e.whole, c ≠ KEYBOARD_COMMA) :
    read e.entries = e := by
  have hall : ∀ c ∈ e.whole, decide (c ≠ KEYBOARD_COMMA) = true := fun c hc => by simpa using h c hc
  rcases e with ⟨whole, fraction⟩
  unfold read entries
  cases fraction with
  | none =>
      dsimp only
      rw [List.takeWhile_eq_self_iff.2 hall, List.dropWhile_eq_nil_iff.2 hall]
      rfl
  | some fraction =>
      dsimp only
      rw [List.takeWhile_append_of_pos hall, List.dropWhile_append_of_pos hall]
      simp

end Entry

/-- The factor of a unit, to thousandths. -/
def Decade.thousandths (voltDecade : Decade) (x : ℚ) : ℚ :=
  match voltDecade with
  | .V => x * 1000
  | .mV => x
  | .uV => x / 1000

namespace DialDisplay

/-- What is shown. -/
def entries (x : DialDisplay) : List ℕ := (List.range x.digits).map x.dialEntries

/-- The number on the display. -/
def number (x : DialDisplay) : ℚ := (Entry.read x.entries).number

/-- What is shown with its unit, in thousandths. -/
def shown (x : DialDisplay) : ℚ := x.voltDecade.thousandths x.number

/-! ## The loop of `toMv` -/

section Loop

variable {x : DialDisplay} {i : ℕ} {rest : List ℕ}

theorem length_entries (x : DialDisplay) : x.entries.length = x.digits := by
  simp [entries]

theorem drop_entries_nil (h : x.entries.drop i = []) : x.digits ≤ i := by
  rw [← x.length_entries]
  exact List.drop_eq_nil_iff.1 h

theorem drop_entries_cons {c : ℕ} (h : x.entries.drop i = c :: rest) :
    i < x.digits ∧ x.dialEntries i = c ∧ x.entries.drop (i + 1) = rest := by
  have hlt : i < x.entries.length := by
    by_contra hge
    rw [List.drop_eq_nil_of_le (not_lt.1 hge)] at h
    cases h
  have hhead := List.drop_eq_getElem_cons hlt
  rw [h, List.cons.injEq] at hhead
  refine ⟨x.length_entries ▸ hlt, ?_, hhead.2.symm⟩
  rw [hhead.1]
  simp [entries]

/-- Where nothing more is shown, the sum is the result. -/
theorem toMvFrom_end (h : x.digits ≤ i) (fuel dec : ℕ) (sum : ℚ) :
    x.toMvFrom fuel i dec sum = sum := by
  cases fuel with
  | zero => rfl
  | succ fuel =>
      unfold toMvFrom
      rw [if_neg (not_lt.2 h)]

/-- Behind the comma. -/
theorem toMvFrom_fraction (whole fraction : List ℕ) {fuel : ℕ} (hrest : x.entries.drop i = rest)
    (hfuel : rest.length ≤ fuel) (hnone : ∀ c ∈ rest, c ≠ KEYBOARD_COMMA) :
    x.toMvFrom fuel i (fraction.length + 1) (Positional.value 10 whole fraction) =
      Positional.value 10 whole (fraction ++ rest) := by
  -- by induction on what is still to be read; `fraction` was read already
  induction rest generalizing fuel i fraction with
  | nil =>
      rw [List.append_nil]
      exact toMvFrom_end (drop_entries_nil hrest) _ _ _
  | cons c rest ih =>
      rcases drop_entries_cons hrest with ⟨hlt, hentry, hnext⟩
      have hdigit : c ≠ KEYBOARD_COMMA := hnone c (List.mem_cons_self ..)
      cases fuel with
      | zero => cases hfuel
      | succ fuel =>
          unfold toMvFrom
          rw [if_pos hlt, hentry, if_neg hdigit]
          dsimp only
          rw [if_neg (Nat.succ_ne_zero _), hentry]
          have hsum := Positional.value_concat (b := 10) whole fraction c (by decide)
          push_cast at hsum
          rw [← hsum]
          have := ih (fraction ++ [c]) hnext (Nat.le_of_succ_le_succ hfuel)
            fun c' hc' => hnone c' (List.mem_cons_of_mem _ hc')
          rw [List.length_append, List.length_singleton, List.append_assoc] at this
          exact this

/-- Before the comma: the first digit is no special case. -/
theorem toMvFrom_digit (whole : List ℕ) {fuel c : ℕ} (hrest : x.entries.drop i = c :: rest)
    (hdigit : c ≠ KEYBOARD_COMMA) :
    x.toMvFrom (fuel + 1) i 0 (Positional.value 10 whole []) =
      x.toMvFrom fuel (i + 1) 0 (Positional.value 10 (whole ++ [c]) []) := by
  rcases drop_entries_cons hrest with ⟨hlt, hentry, -⟩
  have hsum := Positional.value_concat_whole (b := 10) whole c
  push_cast at hsum
  rw [toMvFrom, if_pos hlt, hentry, if_neg hdigit]
  dsimp only
  rw [if_pos rfl, hentry, hsum]
  congr 1
  split_ifs with hzero
  · rw [hzero, zero_mul, zero_add]
  · rfl

theorem toMvFrom_whole (whole : List ℕ) {fuel : ℕ} (hrest : x.entries.drop i = rest)
    (hfuel : rest.length ≤ fuel) (hnone : ∀ c ∈ rest, c ≠ KEYBOARD_COMMA) :
    x.toMvFrom fuel i 0 (Positional.value 10 whole []) =
      Positional.value 10 (whole ++ rest) [] := by
  induction rest generalizing fuel i whole with
  | nil =>
      rw [List.append_nil]
      exact toMvFrom_end (drop_entries_nil hrest) _ _ _
  | cons c rest ih =>
      cases fuel with
      | zero => cases hfuel
      | succ fuel =>
          rw [toMvFrom_digit whole hrest (hnone c (List.mem_cons_self ..)),
            ih (whole ++ [c]) (drop_entries_cons hrest).2.2 (Nat.le_of_succ_le_succ hfuel)
              fun c' hc' => hnone c' (List.mem_cons_of_mem _ hc'),
            List.append_assoc, List.singleton_append]

/-- With the comma, which is followed by the entry that is not shown if it is the last one. -/
theorem toMvFrom_comma (whole : List ℕ) {fuel : ℕ} {before behind : List ℕ}
    (hrest : x.entries.drop i = before ++ KEYBOARD_COMMA :: behind)
    (hfuel : before.length + behind.length < fuel)
    (hbefore : ∀ c ∈ before, c ≠ KEYBOARD_COMMA) (hbehind : ∀ c ∈ behind, c ≠ KEYBOARD_COMMA) :
    x.toMvFrom fuel i 0 (Positional.value 10 whole []) =
      Positional.value 10 (whole ++ before)
        (if behind = [] then [x.dialEntries x.digits] else behind) := by
  induction before generalizing fuel i whole with
  | nil =>
      rcases drop_entries_cons hrest with ⟨hlt, hentry, hnext⟩
      cases fuel with
      | zero => cases hfuel
      | succ fuel =>
          have hone (c : ℕ) : Positional.value 10 whole [] + (c : ℚ) / 10 ^ 1 =
              Positional.value 10 whole [c] := by
            have hsum := Positional.value_concat (b := 10) whole [] c (by decide)
            push_cast at hsum
            exact hsum.symm
          rw [toMvFrom, if_pos hlt, hentry, if_pos rfl, List.append_nil]
          dsimp only
          rw [if_neg Nat.one_ne_zero, hone]
          cases behind with
          | nil =>
              -- the comma is the last entry shown
              have hend : x.digits = i + 1 := Nat.le_antisymm (drop_entries_nil hnext) hlt
              rw [if_pos rfl, ← hend]
              have hnothing : x.entries.drop (x.digits + 1) = [] :=
                List.drop_eq_nil_of_le (by rw [length_entries]; omega)
              exact toMvFrom_fraction whole [x.dialEntries x.digits] hnothing (Nat.zero_le _)
                fun c hc => absurd hc List.not_mem_nil
          | cons c behind =>
              rcases drop_entries_cons hnext with ⟨-, hdigit, hafter⟩
              rw [if_neg (List.cons_ne_nil c behind), hdigit]
              simp only [List.length_nil, List.length_cons] at hfuel
              exact toMvFrom_fraction whole [c] hafter (by omega)
                fun c' hc' => hbehind c' (List.mem_cons_of_mem _ hc')
  | cons c before ih =>
      cases fuel with
      | zero => cases hfuel
      | succ fuel =>
          rw [List.cons_append] at hrest
          simp only [List.length_cons] at hfuel
          rw [toMvFrom_digit whole hrest (hbefore c (List.mem_cons_self ..)),
            ih (whole ++ [c]) (drop_entries_cons hrest).2.2 (by omega)
              fun c' hc' => hbefore c' (List.mem_cons_of_mem _ hc'),
            List.append_assoc, List.singleton_append]

end Loop

theorem toMv_thousandths (x : DialDisplay) :
    x.toMv = x.voltDecade.thousandths (x.toMvFrom x.digits 0 0 0) := rfl

/-- With at most one comma, `toMv` is the number on the display; but behind a comma at the end it
reads one entry more. -/
theorem toMv_eq {x : DialDisplay} {e : Entry} (hentries : x.entries = e.entries) (h : e.Single) :
    x.toMv = x.voltDecade.thousandths
      (e.number + if e.fraction = some [] then (x.dialEntries x.digits : ℚ) / 10 else 0) := by
  have hlength := x.length_entries
  have hstart : x.entries.drop 0 = e.entries := hentries
  rw [hentries] at hlength
  rw [toMv_thousandths]
  congr 1
  -- the loop starts with nothing read
  have hzero : x.toMvFrom x.digits 0 0 0 =
      x.toMvFrom x.digits 0 0 (Positional.value 10 [] []) := by
    rw [Positional.value_nil]
  rw [hzero]
  rcases e with ⟨whole, fraction⟩
  cases fraction with
  | none =>
      rw [toMvFrom_whole [] hstart hlength.le h.whole, List.nil_append, if_neg (by simp), add_zero]
      rfl
  | some fraction =>
      have hfuel : whole.length + fraction.length < x.digits := by
        simp only [Entry.entries, List.length_append, List.length_cons] at hlength
        omega
      rw [toMvFrom_comma [] hstart hfuel h.whole (h.fraction fraction rfl), List.nil_append]
      by_cases hend : fraction = []
      · have hone := Positional.value_concat (b := 10) whole [] (x.dialEntries x.digits) (by decide)
        rw [if_pos hend, hend, if_pos rfl]
        rw [List.nil_append, List.length_nil, zero_add, pow_one] at hone
        exact_mod_cast hone
      · rw [if_neg hend, if_neg (by simpa using hend), add_zero]
        rfl

theorem thousandths_injective (voltDecade : Decade) :
    Function.Injective voltDecade.thousandths := by
  intro x y h
  cases voltDecade with
  | V => exact mul_right_cancel₀ (by norm_num) h
  | mV => exact h
  | uV => exact (div_left_inj' (by norm_num)).1 h

theorem number_eq {x : DialDisplay} {e : Entry} (hentries : x.entries = e.entries)
    (h : ∀ c ∈ e.whole, c ≠ KEYBOARD_COMMA) : x.number = e.number := by
  rw [number, hentries, Entry.read_entries h]

/-- The value is the number on the display unless another entry than zero is read in addition. -/
theorem toMv_eq_shown {x : DialDisplay} (h : (Entry.read x.entries).Single) :
    x.toMv = x.shown ↔
      ((Entry.read x.entries).fraction = some [] → x.dialEntries x.digits = 0) := by
  rw [toMv_eq (Entry.entries_read x.entries).symm h, shown, (thousandths_injective _).eq_iff,
    number, add_eq_left]
  split_ifs with hend
  · simp [hend]
  · simp [hend]

end DialDisplay
end FrontPanel

/-! ## Dials -/

namespace Keypad

open FrontPanel hiding DialClass

/-- What `toMv` and the display read of a dial. -/
def DialClass.display (d : DialClass) : DialDisplay where
  dialEntries i := (d.dialEntries i).toNat
  digits := d.digits.toNat
  voltDecade := d.voltDecade
  negative := d.negative

/-- The comma is the last entry shown. -/
def TrailingComma (d : DialClass) : Prop :=
  0 < d.digits ∧ d.dialEntries (d.digits - 1) = KEYBOARD_COMMA

theorem getElem?_entries {d : DialClass} {i c : ℕ} (h : d.display.entries[i]? = some c) :
    (i : ℤ) < d.digits ∧ (d.dialEntries i).toNat = c := by
  rcases List.getElem?_eq_some_iff.1 h with ⟨hlt, hc⟩
  rw [DialDisplay.length_entries] at hlt
  have hdigits : d.display.digits = d.digits.toNat := rfl
  refine ⟨by omega, ?_⟩
  rw [← hc]
  simp [DialDisplay.entries, DialClass.display]

theorem comma_of_toNat {v : ℤ} (h : v.toNat = KEYBOARD_COMMA) : v = KEYBOARD_COMMA := by
  simp only [KEYBOARD_COMMA] at h ⊢
  omega

/-- A well-formed entry has at most one comma. -/
theorem Visible.single_read {d : DialClass} (h : Visible d.dialEntries d.digits) :
    (Entry.read d.display.entries).Single where
  whole := Entry.whole_read _
  fraction := by
    intro f hf c hc hcomma
    rcases List.mem_iff_getElem?.1 hc with ⟨k, hk⟩
    -- the comma that is read, and another one behind it
    have hfirst := Entry.getElem?_comma hf
    have hsecond := Entry.getElem?_behind hf k
    rw [hk, hcomma] at hsecond
    rw [Entry.entries_read] at hfirst hsecond
    rcases getElem?_entries hfirst with ⟨hlt, hi⟩
    rcases getElem?_entries hsecond with ⟨hlt', hj⟩
    have := h.single _ _ (by omega) hlt (by omega) hlt' (comma_of_toNat hi) (comma_of_toNat hj)
    omega

theorem trailingComma_iff {d : DialClass} (h : Visible d.dialEntries d.digits) :
    (Entry.read d.display.entries).fraction = some [] ↔ TrailingComma d := by
  have hentries := Entry.entries_read d.display.entries
  have hlength := d.display.length_entries
  have hdigits : d.display.digits = d.digits.toNat := rfl
  constructor
  · intro hf
    have hlast := Entry.getElem?_comma hf
    rw [hentries] at hlast
    rcases getElem?_entries hlast with ⟨hlt, hcomma⟩
    rw [← hentries, Entry.entries, hf, List.length_append, List.length_singleton] at hlength
    have hback : d.digits - 1 = (Entry.read d.display.entries).whole.length := by omega
    refine ⟨by omega, ?_⟩
    rw [hback]
    exact comma_of_toNat hcomma
  · rintro ⟨hpos, hcomma⟩
    have hlast : d.display.entries[d.digits.toNat - 1]? = some KEYBOARD_COMMA := by
      have hback : ((d.digits.toNat - 1 : ℕ) : ℤ) = d.digits - 1 := by omega
      rw [List.getElem?_eq_getElem (by omega)]
      simp only [DialDisplay.entries, DialClass.display, List.getElem_map, List.getElem_range,
        hback, hcomma]
      rfl
    have hwhole := Entry.whole_read d.display.entries
    have hsingle := h.single_read.fraction
    generalize Entry.read d.display.entries = e at hentries hwhole hsingle
    rcases e with ⟨whole, _ | fraction⟩
    · -- a comma that was not found
      dsimp only [Entry.entries] at hentries
      rw [← hentries] at hlast
      exact absurd rfl (hwhole _ (List.mem_of_getElem? hlast))
    · cases fraction with
      | nil => rfl
      | cons c rest =>
          -- a second comma
          have hback : d.digits.toNat - 1 = whole.length + (rest.length + 1) := by
            rw [← hentries, Entry.entries, List.length_append, List.length_cons,
              List.length_cons] at hlength
            dsimp only at hlength
            omega
          have hbehind := Entry.getElem?_behind (e := ⟨whole, some (c :: rest)⟩) rfl rest.length
          rw [hentries, ← hback, hlast] at hbehind
          exact absurd rfl (hsingle _ rfl _ (List.mem_of_getElem? hbehind.symm))

/-! ## What is not shown -/

/-- A digit, or the comma. -/
def IsEntry (v : ℤ) : Prop := 0 ≤ v ∧ v ≤ 9 ∨ v = KEYBOARD_COMMA

theorem IsEntry.nonneg {v : ℤ} (h : IsEntry v) : 0 ≤ v := by
  rcases h with h | rfl
  · exact h.1
  · decide

theorem isEntry_comma : IsEntry KEYBOARD_COMMA := Or.inr rfl

/-- The entries are digits and commas, those included that are not shown, and nothing was ever put
behind the first nine. -/
def Tidy (e : ℤ → ℤ) : Prop := ∀ i, 0 ≤ i → i < 15 → IsEntry (e i) ∧ (9 ≤ i → e i = 0)

theorem Tidy.entry {e : ℤ → ℤ} (h : Tidy e) {i : ℤ} (hlow : 0 ≤ i) (hup : i ≤ 9) : IsEntry (e i) :=
  (h i hlow (by omega)).1

theorem Tidy.update {e : ℤ → ℤ} (h : Tidy e) {i v : ℤ} (hi : i ≤ 8) (hv : IsEntry v) :
    Tidy (Function.update e i v) := by
  intro j hlow hup
  by_cases hj : j = i
  · rw [hj, Function.update_self]
    exact ⟨hv, fun hbehind => by omega⟩
  · rw [Function.update_of_ne hj]
    exact h j hlow hup

/-- A dial in order, with nothing but digits and commas in its array. -/
structure Entered (d : DialClass) : Prop extends Good d where
  tidy : Tidy d.dialEntries

/-- The event is not the key for divided by ten, so that it edits the end of the entry only, moves
the comma to the right or sets another value. -/
def Edits : Event → Prop
  | .checkKeypress tag => tag ≠ KEYBOARD_DIVIDE10
  | .init | .open_ _ _ _ | .clear | .setMv _ => True

theorem Edits.stays {d : DialClass} {e : Event} (h : Edits e) : Stays d e := by
  cases e with
  | checkKeypress tag => exact fun htag => absurd htag h
  | init | open_ | clear | setMv => trivial

section Entered

variable {d : DialClass}

theorem Entered.times10 (h : Entered d) : Tidy d.times10.dialEntries := by
  have hhigh := h.high
  unfold DialClass.times10
  cases hcomma : d.comma with
  | none => exact h.tidy
  | some i =>
      have hlt := (comma_some hcomma).1
      have hmoved := h.tidy.update (i := i) (by omega) (h.tidy.entry (i := i + 1) (by omega) (by omega))
      dsimp only
      split_ifs
      · exact hmoved.update (by omega) isEntry_comma
      · exact hmoved

theorem Entered.divide10 (h : Entered d) (hstays : DivideStays d) :
    Tidy d.divide10.dialEntries := by
  have hhigh := h.high
  have hlow := h.low
  unfold DivideStays at hstays
  unfold DialClass.divide10
  cases hcomma : d.comma with
  | some i =>
      rw [hcomma] at hstays
      dsimp only at hstays ⊢
      have hlt := (comma_some hcomma).1
      have hmoved := h.tidy.update (i := i) (by omega) (h.tidy.entry (i := i - 1) (by omega) (by omega))
      rw [if_pos (by omega : i > 1)]
      unfold DialClass.shorten
      split_ifs <;> exact hmoved.update (by omega) isEntry_comma
  | none =>
      rw [hcomma] at hstays
      dsimp only at hstays ⊢
      have hroom := h.room (comma_none hcomma)
      have hmoved := h.tidy.update hroom (h.tidy.entry (i := d.digits - 1) (by omega) (by omega))
      exact hmoved.update (by omega) isEntry_comma

theorem Entered.commaKey (h : Entered d) : Tidy d.commaKey.dialEntries := by
  unfold DialClass.commaKey
  have hfirst : Entered (if d.digits = 0 then d.append 0 else d) := by
    split
    · next hempty =>
        refine ⟨h.append_digit (by omega) (by omega), h.tidy.update (by omega) (Or.inl ?_)⟩
        omega
    · exact h
  generalize (if d.digits = 0 then d.append 0 else d) = d' at hfirst ⊢
  dsimp only
  split
  · next hnone => exact hfirst.tidy.update (hfirst.room (comma_none hnone)) isEntry_comma
  · exact hfirst.tidy

theorem Tidy.digitKey (h : Tidy d.dialEntries) {v : ℤ} (hv : 0 ≤ v ∧ v ≤ 9) :
    Tidy (if d.digits < maxDigits then d.append v else d).dialEntries := by
  split
  · next hroom =>
      simp only [maxDigits] at hroom
      exact h.update (by omega) (Or.inl hv)
  · exact h

theorem Entered.edit (h : Entered d) {tag : ℕ} (hstays : tag = KEYBOARD_DIVIDE10 → DivideStays d) :
    Tidy (d.edit tag).dialEntries := by
  unfold DialClass.edit
  by_cases htimes : tag = KEYBOARD_TIMES10
  · rw [if_pos htimes]
    exact h.times10
  rw [if_neg htimes]
  by_cases hdivide : tag = KEYBOARD_DIVIDE10
  · rw [if_pos hdivide]
    exact h.divide10 (hstays hdivide)
  rw [if_neg hdivide]
  by_cases hback : tag = KEYBOARD_BACK
  · rw [if_pos hback]
    split
    · exact h.tidy
    · exact h.tidy
  rw [if_neg hback]
  by_cases hcomma : tag = KEYBOARD_COMMA
  · rw [if_pos hcomma]
    exact h.commaKey
  rw [if_neg hcomma]
  by_cases hdigit : 1 ≤ tag ∧ tag ≤ 9
  · rw [if_pos hdigit]
    exact h.tidy.digitKey (by omega)
  rw [if_neg hdigit]
  by_cases hzero : tag = KEYBOARD_0
  · rw [if_pos hzero]
    exact h.tidy.digitKey (by omega)
  rw [if_neg hzero]
  -- the other keys leave the entries alone
  split_ifs <;> exact h.tidy

/-- A number is printed with digits and a point. -/
theorem dtostrf_chars (mv : ℚ) : ∀ c ∈ DialClass.dtostrf mv, c = 46 ∨ IsDigit c := by
  intro c hc
  rcases List.mem_append.1 hc with hwhole | hrest
  · exact Or.inr (wholeDigits_isDigit _ c hwhole)
  · rcases List.mem_cons.1 hrest with hpoint | hdecimal
    · exact Or.inl hpoint
    · exact Or.inr (decimals_isDigit _ c hdecimal)

/-- Every round of the loop of `setMv` reads one of the characters that were written. -/
theorem le_length_chars (mv : ℚ) :
    DialClass.nrOfDigitsBeforeComma mv + 2 + 1 ≤ (DialClass.dtostrf mv).length := by
  have hlength := le_length_dtostrf mv
  have hlong : (DialClass.dtostrf mv).length =
      (DialClass.wholeDigits (DialClass.tenThousandths mv / 10000)).length + 5 := by
    simp [DialClass.dtostrf, DialClass.decimals]
  omega

theorem Tidy.setChar (h : Tidy d.dialEntries) (hroom : d.digits ≤ 8) {c : ℕ}
    (hc : c = 46 ∨ IsDigit c) :
    Tidy (d.setChar c).dialEntries ∧ (d.setChar c).digits = d.digits + 1 := by
  rcases hc with rfl | hc
  · exact ⟨h.update hroom isEntry_comma, rfl⟩
  · rw [setChar_digit d hc]
    refine ⟨h.update hroom (Or.inl ?_), rfl⟩
    have hlow := hc.1
    have hup := hc.2
    omega

/-- The loop of `setMv`; each round makes one entry. -/
theorem Tidy.setChars (h : Tidy d.dialEntries) (hstart : d.digits = 0) {chars : List ℕ}
    (hchars : ∀ c ∈ chars, c = 46 ∨ IsDigit c) {n : ℕ} (hn : n ≤ 8) (hlength : n ≤ chars.length) :
    let d' := (List.range n).foldl (fun (d : DialClass) i => d.setChar (chars.getD i 0)) d
    Tidy d'.dialEntries ∧ d'.digits = n := by
  induction n with
  | zero => exact ⟨h, hstart⟩
  | succ n ih =>
      obtain ⟨htidy, hdigits⟩ := ih (by omega) (by omega)
      have hchar : chars.getD n 0 = 46 ∨ IsDigit (chars.getD n 0) := by
        rw [List.getD_eq_getElem _ _ hlength]
        exact hchars _ (List.getElem_mem _)
      rw [List.range_succ, List.foldl_append, List.foldl_cons, List.foldl_nil]
      obtain ⟨hnext, hone⟩ := htidy.setChar (by omega) hchar
      refine ⟨hnext, ?_⟩
      rw [hone, hdigits]
      push_cast
      rfl

theorem Tidy.setMv (h : Tidy d.dialEntries) (mv : ℚ) : Tidy (d.setMv mv).dialEntries := by
  have hempty : Tidy { d with negative := decide (mv < 0), digits := 0 }.dialEntries := h
  have hle := nrOfDigitsBeforeComma_le |mv|
  exact (hempty.setChars rfl (dtostrf_chars |mv|) (by omega) (le_length_chars |mv|)).1

theorem Entered.step (h : Entered d) {e : Event} (hstays : Stays d e) :
    Entered (Keypad.step d e) := by
  refine ⟨h.toGood.step hstays, ?_⟩
  cases e with
  | init => exact h.tidy
  | open_ type set_or_limit micro =>
      exact Tidy.setMv (d := { d with vol_cur_type := type, set_or_limit := set_or_limit }) h.tidy _
  | clear => exact h.tidy
  | setMv mv => exact h.tidy.setMv mv
  | checkKeypress tag =>
      show Tidy (d.checkKeypress tag).dialEntries
      unfold DialClass.checkKeypress
      split_ifs with hnone haccepted
      · exact h.tidy
      · have hkey : Entered { d with keydepressed := false } := ⟨{ h.toGood with }, h.tidy⟩
        exact hkey.edit fun htag => hstays htag haccepted
      · exact h.tidy

end Entered

theorem entered_start (memory : ℤ → ℤ) : Entered (start memory) where
  toGood := good_start memory
  tidy := by
    intro i hlow hup
    have hzero : (start memory).dialEntries i = 0 := by simp [start, hlow, hup]
    rw [hzero]
    exact ⟨Or.inl ⟨Int.le_refl 0, by decide⟩, fun _ => rfl⟩

/-! ## Values -/

/-- In every dial that can be entered, the value is the number on the display unless the comma is
the last entry shown and the one behind it is not zero. -/
theorem toMv_eq_shown_iff (memory : ℤ → ℤ) (es : List Event) (hes : ∀ e ∈ es, Edits e) :
    (Run.exec step (start memory) es).display.toMv =
        (Run.exec step (start memory) es).display.shown ↔
      (TrailingComma (Run.exec step (start memory) es) →
        (Run.exec step (start memory) es).dialEntries
          (Run.exec step (start memory) es).digits = 0) := by
  have hentered : Entered (Run.exec step (start memory) es) :=
    (Run.always_of_guarded (fun _ _ hd hedits => hd.step (Edits.stays hedits)) (entered_start memory)
      (Run.guarded_of_forall (start memory) hes)).exec
  generalize Run.exec step (start memory) es = d at hentered
  have hvisible := hentered.visible
  have hlow := hentered.low
  have hhigh := hentered.high
  rw [DialDisplay.toMv_eq_shown hvisible.single_read, trailingComma_iff hvisible]
  have hbehind := (hentered.tidy.entry hlow hhigh).nonneg
  have hentry : d.display.dialEntries d.display.digits = (d.dialEntries d.digits).toNat := by
    simp only [DialClass.display, Int.toNat_of_nonneg hlow]
  rw [hentry]
  refine imp_congr_right fun _ => ?_
  omega

/-- Keys that are touched and let go of, one after the other. -/
def keys (tags : List ℕ) : List Event :=
  tags.flatMap fun tag => [.checkKeypress tag, .checkKeypress 0]

theorem edits_keys {tags : List ℕ} (h : KEYBOARD_DIVIDE10 ∉ tags) : ∀ e ∈ keys tags, Edits e := by
  intro e he
  simp only [keys, List.mem_flatMap, List.mem_cons, List.not_mem_nil, or_false] at he
  rcases he with ⟨tag, htag, rfl | rfl⟩
  · rintro rfl
    exact h htag
  · exact (by decide : 0 ≠ KEYBOARD_DIVIDE10)

/-- Cleared, then one, comma, five. -/
theorem toMv_eq_shown_iff_onePointFive :
    (Run.exec step (start fun _ => 0) (keys [16, 1, 11, 5])).display.toMv =
        (Run.exec step (start fun _ => 0) (keys [16, 1, 11, 5])).display.shown ↔
      (TrailingComma (Run.exec step (start fun _ => 0) (keys [16, 1, 11, 5])) →
        (Run.exec step (start fun _ => 0) (keys [16, 1, 11, 5])).dialEntries
          (Run.exec step (start fun _ => 0) (keys [16, 1, 11, 5])).digits = 0) :=
  toMv_eq_shown_iff (fun _ => 0) (keys [16, 1, 11, 5]) (edits_keys (by decide))

/-- The five is taken back, but one, comma still has the value one and a half. -/
theorem takenBack :
    (Run.exec step (start fun _ => 0) (keys [16, 1, 11, 5, 15])).display.toMv = 3 / 2 ∧
      (Run.exec step (start fun _ => 0) (keys [16, 1, 11, 5, 15])).display.shown = 1 := by
  decide +kernel

theorem not_always_shown :
    ¬ ∀ (memory : ℤ → ℤ) (es : List Event), (∀ e ∈ es, Edits e) →
      (Run.exec step (start memory) es).display.toMv =
        (Run.exec step (start memory) es).display.shown := by
  intro hall
  have hsame := hall (fun _ => 0) (keys [16, 1, 11, 5, 15]) (edits_keys (by decide))
  rw [takenBack.1, takenBack.2] at hsame
  norm_num at hsame

end Keypad
end PoorMansSmu
