import Mathlib.Data.Nat.Digits.Lemmas
import Mathlib.Tactic.Linarith
import PoorMansSmu.FrontPanel
import PoorMansSmu.Lib.Run

/-!
# Keypad — editing the entry of a dial

A dial keeps what is entered in an array of 15 numbers, each a digit or the tag of the comma key, and
the count `digits` of those on the display.  The keys for times and divided by ten move the comma.

Divided by ten looks at the entry before the first one when the display is empty, and when the comma
is one of its first two entries.  As long as that key is not accepted then, every access stays inside
the array and the display shows digits with at most one comma (`always_safe_iff`).
-/

namespace PoorMansSmu
namespace Keypad

open FrontPanel

/-! ## State -/

def KEYBOARD_0 : ℕ := 10
def KEYBOARD_UV : ℕ := 12
def KEYBOARD_MV : ℕ := 13
def KEYBOARD_V : ℕ := 14
def KEYBOARD_BACK : ℕ := 15
def KEYBOARD_CLR : ℕ := 16
def KEYBOARD_PLUSMINUS : ℕ := 17
def KEYBOARD_DIVIDE10 : ℕ := 18
def KEYBOARD_TIMES10 : ℕ := 19

def maxDigits : ℤ := 7

/-- The entries of a dial.  `dialEntries` also covers the memory around the array; `accesses` is not in
the program: it records the indices used. -/
structure DialClass where
  dialEntries : ℤ → ℤ
  digits : ℤ := 1
  set_or_limit : SetOrLimit := .SET
  vol_cur_type : OperationType := .SOURCE_VOLTAGE
  voltDecade : Decade := .mV
  negative : Bool := false
  keydepressed : Bool := true
  accesses : List ℤ := []

namespace DialClass

/-- `dialEntries[i] = v` -/
def put (d : DialClass) (i v : ℤ) : DialClass :=
  { d with dialEntries := Function.update d.dialEntries i v, accesses := i :: d.accesses }

/-- `dialEntries[i] = dialEntries[j]` -/
def copy (d : DialClass) (i j : ℤ) : DialClass :=
  { d.put i (d.dialEntries j) with accesses := j :: i :: d.accesses }

/-- `dialEntries[digits++] = v` -/
def append (d : DialClass) (v : ℤ) : DialClass :=
  { d.put d.digits v with digits := d.digits + 1 }

/-- Where a loop over the entries finds the comma. -/
def comma (d : DialClass) : Option ℕ :=
  (List.range d.digits.toNat).find? fun i => d.dialEntries i = KEYBOARD_COMMA

/-- A loop that looks for the comma reads the entries up to it, or all. -/
def search (d : DialClass) : DialClass :=
  { d with
    accesses := (List.range (match d.comma with
      | some i => i + 1
      | none => d.digits.toNat)).map (fun i : ℕ => (i : ℤ)) ++ d.accesses }

/-! ## The value to start from -/

/-- A number in steps of its fourth decimal. -/
def tenThousandths (mv : ℚ) : ℕ := ⌊mv * 10000 + 1 / 2⌋.toNat

/-- The digits of a whole number, as characters. -/
def wholeDigits (n : ℕ) : List ℕ :=
  if n = 0 then [48] else (Nat.digits 10 n).reverse.map (48 + ·)

/-- The last four digits of a number, as characters. -/
def decimals (n : ℕ) : List ℕ :=
  [48 + n / 1000 % 10, 48 + n / 100 % 10, 48 + n / 10 % 10, 48 + n % 10]

/-- The characters that `dtostrf` writes for a number that is not negative, with four decimals. -/
def dtostrf (mv : ℚ) : List ℕ :=
  wholeDigits (tenThousandths mv / 10000) ++ 46 :: decimals (tenThousandths mv)

def nrOfDigitsBeforeComma (mv : ℚ) : ℕ :=
  if mv > 9999 then 5
  else if mv > 999 then 4
  else if mv > 99 then 3
  else if mv > 9 then 2
  else 1

/-- One round of the loop of `setMv`, for the character `c`. -/
def setChar (d : DialClass) (c : ℕ) : DialClass :=
  if c ≠ 0x20 ∧ c ≠ 45 then d.append (if c = 46 then KEYBOARD_COMMA else c - 48) else d

def setMv (d : DialClass) (mv : ℚ) : DialClass :=
  let outstr := dtostrf |mv|
  let nfOfDigitsAfterComma := 2
  -- `digits` counts what is stored
  let d := { d with negative := mv < 0, digits := 0 }
  let d := (List.range (nrOfDigitsBeforeComma |mv| + nfOfDigitsAfterComma + 1)).foldl
    (fun d i => d.setChar (outstr.getD i 0)) d
  { d with voltDecade := .mV }

def clear (d : DialClass) : DialClass :=
  { d with digits := 0, voltDecade := if d.vol_cur_type = .SOURCE_VOLTAGE then .V else .mV }

def init (d : DialClass) : DialClass :=
  { d with negative := false }.clear

def open_ (d : DialClass) (type : OperationType) (set_or_limit : SetOrLimit) (micro : ℤ) :
    DialClass :=
  { d with vol_cur_type := type, set_or_limit := set_or_limit }.setMv (micro / 1000)

/-! ## The keys -/

def times10 (d : DialClass) : DialClass :=
  match d.comma with
  | none => d.search
  | some i =>
      if (i : ℤ) < d.digits - 2 then (d.search.copy i (i + 1)).put (i + 1) KEYBOARD_COMMA
      else { d.search.copy i (i + 1) with digits := d.digits - 1 }

/-- The loop that moves entries 0 to `n` up by one, from the last one on. -/
def shift (d : DialClass) (n : ℕ) : DialClass :=
  (List.range (n + 1)).foldl (fun d (k : ℕ) => d.copy (n - k : ℤ) (n - k - 1)) d

/-- Not too many digits after the comma, which stands at `i` or was there. -/
def shorten (d : DialClass) (i : ℕ) : DialClass :=
  if d.digits > i + 2 then { d with digits := d.digits - 1 } else d

def divide10 (d : DialClass) : DialClass :=
  match d.comma with
  | some i =>
      let d := (d.search.copy i (i - 1)).put (i - 1) KEYBOARD_COMMA
      if i > 1 then d.shorten i
      else
        let d := { d with digits := d.digits + 1 }
        ((d.shift d.digits.toNat).put 0 0).shorten i
  | none =>
      let d := (d.search.copy d.digits (d.digits - 1)).put (d.digits - 1) KEYBOARD_COMMA
      { d with digits := d.digits + 1 }

def commaKey (d : DialClass) : DialClass :=
  let d := if d.digits = 0 then d.append 0 else d
  if d.comma = none then d.search.append KEYBOARD_COMMA else d.search

/-- What an accepted key does; no two of the tags are the same. -/
def edit (d : DialClass) (tag : ℕ) : DialClass :=
  if tag = KEYBOARD_TIMES10 then d.times10
  else if tag = KEYBOARD_DIVIDE10 then d.divide10
  else if tag = KEYBOARD_BACK then
    if d.digits > 0 then { d with digits := d.digits - 1 } else d
  else if tag = KEYBOARD_COMMA then d.commaKey
  else if 1 ≤ tag ∧ tag ≤ 9 then if d.digits < maxDigits then d.append tag else d
  else if tag = KEYBOARD_0 then if d.digits < maxDigits then d.append 0 else d
  else if tag = KEYBOARD_UV then { d with voltDecade := .uV }
  else if tag = KEYBOARD_MV then { d with voltDecade := .mV }
  else if tag = KEYBOARD_V then { d with voltDecade := .V }
  else if tag = KEYBOARD_CLR then { d with digits := 0 }
  else if tag = KEYBOARD_PLUSMINUS ∧ d.set_or_limit = .SET then { d with negative := !d.negative }
  else d

/-- `checkKeypress`, as far as it edits: a key acts once, until none is touched. -/
def checkKeypress (d : DialClass) (tag : ℕ) : DialClass :=
  if tag = 0 then { d with keydepressed := true }
  else if d.keydepressed then { d with keydepressed := false }.edit tag
  else d

end DialClass

inductive Event
  | init
  | open_ (type : OperationType) (set_or_limit : SetOrLimit) (micro : ℤ)
  | clear
  | setMv (mv : ℚ)
  | checkKeypress (tag : ℕ)

def step (d : DialClass) : Event → DialClass
  | .init => d.init
  | .open_ type set_or_limit micro => d.open_ type set_or_limit micro
  | .clear => d.clear
  | .setMv mv => d.setMv mv
  | .checkKeypress tag => d.checkKeypress tag

/-- A dial after power-up; what is in memory around the array does not matter. -/
def start (memory : ℤ → ℤ) : DialClass :=
  { dialEntries := fun i => if 0 ≤ i ∧ i < 15 then 0 else memory i }

/-! ## What is on the display -/

/-- The first `n` entries are digits, with at most one comma among them. -/
structure Visible (e : ℤ → ℤ) (n : ℤ) : Prop where
  entry : ∀ i, 0 ≤ i → i < n → (0 ≤ e i ∧ e i ≤ 9) ∨ e i = KEYBOARD_COMMA
  single : ∀ i j, 0 ≤ i → i < n → 0 ≤ j → j < n → e i = KEYBOARD_COMMA → e j = KEYBOARD_COMMA →
    i = j

/-- None of the first `n` entries is the comma. -/
def NoComma (e : ℤ → ℤ) (n : ℤ) : Prop :=
  ∀ i, 0 ≤ i → i < n → e i ≠ KEYBOARD_COMMA

section Visible

variable {e : ℤ → ℤ} {n i j v : ℤ}

theorem visible_zero (e : ℤ → ℤ) : Visible e 0 where
  entry i hlow hup := by omega
  single i j hlow hup := by omega

theorem Visible.mono (h : Visible e n) {m : ℤ} (hm : m ≤ n) : Visible e m where
  entry i hlow hup := h.entry i hlow (by omega)
  single i j hi hi' hj hj' := h.single i j hi (by omega) hj (by omega)

/-- A digit can be added to any entry. -/
theorem Visible.append_digit (h : Visible e n) (hv : 0 ≤ v ∧ v ≤ 9) :
    Visible (Function.update e n v) (n + 1) := by
  have hcomma : v ≠ KEYBOARD_COMMA := by
    simp only [KEYBOARD_COMMA]
    omega
  refine ⟨fun i hlow hup => ?_, fun i j hi hi' hj hj' hci hcj => ?_⟩
  · by_cases hin : i = n
    · rw [hin, Function.update_self]
      exact Or.inl hv
    · rw [Function.update_of_ne hin]
      exact h.entry i hlow (by omega)
  · -- neither of the two commas is the digit just added
    have hin : i ≠ n := by
      rintro rfl
      exact hcomma (by rwa [Function.update_self] at hci)
    have hjn : j ≠ n := by
      rintro rfl
      exact hcomma (by rwa [Function.update_self] at hcj)
    rw [Function.update_of_ne hin] at hci
    rw [Function.update_of_ne hjn] at hcj
    exact h.single i j hi (by omega) hj (by omega) hci hcj

theorem Visible.append_comma (h : Visible e n) (hnone : NoComma e n) :
    Visible (Function.update e n KEYBOARD_COMMA) (n + 1) := by
  have honly : ∀ i, 0 ≤ i → i < n + 1 →
      Function.update e n KEYBOARD_COMMA i = KEYBOARD_COMMA → i = n := by
    intro i hlow hup hi
    by_contra hin
    rw [Function.update_of_ne hin] at hi
    exact hnone i hlow (by omega) hi
  refine ⟨fun i hlow hup => ?_, fun i k hi hi' hk hk' hci hck => ?_⟩
  · by_cases hin : i = n
    · rw [hin, Function.update_self]
      exact Or.inr rfl
    · rw [Function.update_of_ne hin]
      exact h.entry i hlow (by omega)
  · rw [honly i hi hi' hci, honly k hk hk' hck]

/-- The comma moves from `i` to `j` and the entry there takes its place; `i` may also be the first
entry that is not shown. -/
theorem Visible.move (h : Visible e n) {m : ℤ} (hij : i ≠ j) (hj : 0 ≤ j ∧ j < n)
    (hm : ∀ k, k < m → k ≠ i → k < n)
    (hcomma : ∀ k, 0 ≤ k → k < n → e k = KEYBOARD_COMMA → k = i) :
    Visible (Function.update (Function.update e i (e j)) j KEYBOARD_COMMA) m := by
  -- the entry that took the comma's place was none, so the comma is at `j` only
  have honly : ∀ k, 0 ≤ k → k < m →
      Function.update (Function.update e i (e j)) j KEYBOARD_COMMA k = KEYBOARD_COMMA → k = j := by
    intro k hlow hup hk
    by_contra hkj
    rw [Function.update_of_ne hkj] at hk
    by_cases hki : k = i
    · rw [hki, Function.update_self] at hk
      exact hij (hcomma j hj.1 hj.2 hk).symm
    · rw [Function.update_of_ne hki] at hk
      exact hki (hcomma k hlow (hm k hup hki) hk)
  refine ⟨fun k hlow hup => ?_, fun k l hk hk' hl hl' hck hcl => ?_⟩
  · by_cases hkj : k = j
    · rw [hkj, Function.update_self]
      exact Or.inr rfl
    · rw [Function.update_of_ne hkj]
      by_cases hki : k = i
      · rw [hki, Function.update_self]
        exact h.entry j hj.1 hj.2
      · rw [Function.update_of_ne hki]
        exact h.entry k hlow (hm k hup hki)
  · rw [honly k hk hk' hck, honly l hl hl' hcl]

/-- The comma at the end, or before the last digit, is taken away. -/
theorem Visible.remove (h : Visible e n) (hi : 0 ≤ i ∧ i < n) (hcomma : e i = KEYBOARD_COMMA)
    (hend : n - 2 ≤ i) : Visible (Function.update e i (e (i + 1))) (n - 1) := by
  have hother : ∀ k, 0 ≤ k → k < n → k ≠ i → e k ≠ KEYBOARD_COMMA := fun k hlow hup hki hk =>
    hki (h.single k i hlow hup hi.1 hi.2 hk hcomma)
  -- every entry that is left was there before, and was not the comma
  have hmoved : ∀ k, 0 ≤ k → k < n - 1 →
      ∃ l, 0 ≤ l ∧ l < n ∧ l ≠ i ∧ Function.update e i (e (i + 1)) k = e l := by
    intro k hlow hup
    by_cases hki : k = i
    · exact ⟨i + 1, by omega, by omega, by omega, by rw [hki, Function.update_self]⟩
    · exact ⟨k, hlow, by omega, hki, Function.update_of_ne hki _ _⟩
  refine ⟨fun k hlow hup => ?_, fun k l hk hk' hl hl' hck hcl => ?_⟩
  · obtain ⟨l, hl, hln, -, heq⟩ := hmoved k hlow hup
    rw [heq]
    exact h.entry l hl hln
  · obtain ⟨l', hl0, hln, hli, heq⟩ := hmoved k hk hk'
    rw [heq] at hck
    exact absurd hck (hother l' hl0 hln hli)

end Visible

/-! ## The invariant -/

/-- The entry of a dial is in order, there is room for one more and all accesses were inside. -/
structure Good (d : DialClass) : Prop where
  inside : ∀ i ∈ d.accesses, 0 ≤ i ∧ i < 15
  low : 0 ≤ d.digits
  high : d.digits ≤ 9
  /-- Without a comma there is room for one. -/
  room : NoComma d.dialEntries d.digits → d.digits ≤ 8
  visible : Visible d.dialEntries d.digits

theorem good_start (memory : ℤ → ℤ) : Good (start memory) := by
  have hdigits : (start memory).digits = 1 := rfl
  have hzero : (start memory).dialEntries 0 = 0 := by simp [start]
  refine ⟨fun i hi => absurd hi List.not_mem_nil, ?_, ?_, fun _ => ?_, ?_, ?_⟩
  · omega
  · omega
  · omega
  · intro i hlow hup
    obtain rfl : i = 0 := by omega
    rw [hzero]
    exact Or.inl (by omega)
  · intro i j hi hi' hj hj' _ _
    omega

section Good

variable {d : DialClass}

theorem comma_some {i : ℕ} (h : d.comma = some i) :
    (i : ℤ) < d.digits ∧ d.dialEntries i = KEYBOARD_COMMA := by
  have hmem := List.mem_range.1 (List.mem_of_find?_eq_some h)
  have hfound := List.find?_some h
  exact ⟨by omega, of_decide_eq_true hfound⟩

theorem comma_none (h : d.comma = none) : NoComma d.dialEntries d.digits := by
  intro i hlow hup hi
  have hall := List.find?_eq_none.1 h i.toNat (List.mem_range.2 (by omega))
  rw [Int.toNat_of_nonneg hlow] at hall
  exact hall (decide_eq_true hi)

/-- Looking for the comma reads entries on the display only. -/
theorem Good.search (h : Good d) : Good d.search := by
  have hlow := h.low
  have hhigh := h.high
  refine { h with inside := fun i hi => ?_ }
  rcases List.mem_append.1 hi with hnew | hold
  · obtain ⟨k, hk, rfl⟩ := List.mem_map.1 hnew
    have hlt := List.mem_range.1 hk
    -- the search ends at the comma, or behind the last entry
    cases hcomma : d.comma with
    | some i =>
        have hfound := (comma_some hcomma).1
        rw [hcomma] at hlt
        dsimp only at hlt
        omega
    | none =>
        rw [hcomma] at hlt
        dsimp only at hlt
        omega
  · exact h.inside i hold

/-! ## The keys -/

theorem Good.append_digit (h : Good d) {v : ℤ} (hv : 0 ≤ v ∧ v ≤ 9) (hroom : d.digits ≤ 7) :
    Good (d.append v) := by
  have hlow := h.low
  refine ⟨?_, ?_, ?_, fun _ => ?_, h.visible.append_digit hv⟩
  · exact List.forall_mem_cons.2 ⟨by omega, h.inside⟩
  all_goals
    show _ ≤ _
    simp only [DialClass.append]
    omega

theorem Good.digitKey (h : Good d) {v : ℤ} (hv : 0 ≤ v ∧ v ≤ 9) :
    Good (if d.digits < maxDigits then d.append v else d) := by
  split
  · next hroom =>
      simp only [maxDigits] at hroom
      exact h.append_digit hv (by omega)
  · exact h

theorem Good.append_comma (h : Good d) (hnone : NoComma d.dialEntries d.digits) :
    Good (d.append KEYBOARD_COMMA) := by
  have hlow := h.low
  have hroom := h.room hnone
  have hdigits : (d.append KEYBOARD_COMMA).digits = d.digits + 1 := rfl
  refine ⟨?_, by omega, by omega, fun hno => ?_, h.visible.append_comma hnone⟩
  · exact List.forall_mem_cons.2 ⟨by omega, h.inside⟩
  · refine absurd ?_ (hno d.digits hlow (by omega))
    exact Function.update_self ..

/-- Dropping the last entry. -/
theorem Good.drop (h : Good d) (hpos : 0 < d.digits) : Good { d with digits := d.digits - 1 } := by
  have hhigh := h.high
  have hdigits : d.digits - 1 ≤ d.digits := by omega
  exact
    { inside := h.inside
      low := by dsimp only; omega
      high := by dsimp only; omega
      room := fun _ => by dsimp only; omega
      visible := h.visible.mono hdigits }

/-- Nothing is on the display. -/
theorem Good.emptied (h : Good d) : Good { d with digits := 0 } where
  inside := h.inside
  low := Int.le_refl 0
  high := by
    show (0 : ℤ) ≤ 9
    omega
  room _ := by
    show (0 : ℤ) ≤ 8
    omega
  visible := visible_zero _

/-- The comma changes places with another entry on the display. -/
theorem Good.moveComma (h : Good d) {i : ℕ} (hcomma : d.comma = some i) {j : ℤ} (hij : (i : ℤ) ≠ j)
    (hj : 0 ≤ j ∧ j < d.digits) : Good ((d.search.copy i j).put j KEYBOARD_COMMA) := by
  have hsearch := h.search
  have hhigh := h.high
  obtain ⟨hi, hentry⟩ := comma_some hcomma
  have honly : ∀ k, 0 ≤ k → k < d.digits → d.dialEntries k = KEYBOARD_COMMA → k = i :=
    fun k hk hk' hck => h.visible.single k i hk hk' (by omega) hi hck hentry
  refine ⟨?_, h.low, hhigh, fun hno => ?_, ?_⟩
  · refine List.forall_mem_cons.2 ⟨by omega, List.forall_mem_cons.2 ⟨by omega, ?_⟩⟩
    exact List.forall_mem_cons.2 ⟨by omega, hsearch.inside⟩
  · -- there still is a comma
    refine absurd ?_ (hno j hj.1 hj.2)
    exact Function.update_self ..
  · exact h.visible.move hij hj (fun k hk _ => hk) honly

theorem Good.times10 (h : Good d) : Good d.times10 := by
  have hsearch := h.search
  have hlow := h.low
  have hhigh := h.high
  unfold DialClass.times10
  cases hcomma : d.comma with
  | none => exact hsearch
  | some i =>
      obtain ⟨hi, hentry⟩ := comma_some hcomma
      dsimp only
      by_cases hmove : (i : ℤ) < d.digits - 2
      · -- the comma moves behind the next digit
        rw [if_pos hmove]
        exact h.moveComma hcomma (by omega) (by omega)
      · -- the comma goes
        rw [if_neg hmove]
        refine ⟨?_, ?_, ?_, fun _ => ?_, ?_⟩
        · refine List.forall_mem_cons.2 ⟨by omega, List.forall_mem_cons.2 ⟨by omega, ?_⟩⟩
          exact hsearch.inside
        · show 0 ≤ d.digits - 1
          omega
        · show d.digits - 1 ≤ 9
          omega
        · show d.digits - 1 ≤ 8
          omega
        · exact h.visible.remove ⟨by omega, hi⟩ hentry (by omega)

/-- Divided by ten meets an entry that it handles: the comma is not among the first two entries, and
without a comma there is an entry. -/
def DivideStays (d : DialClass) : Prop :=
  match d.comma with
  | some i => 2 ≤ i
  | none => 0 < d.digits

theorem Good.shorten (h : Good d) (i : ℕ) : Good (d.shorten i) := by
  unfold DialClass.shorten
  split
  · exact h.drop (by omega)
  · exact h

theorem Good.divide10 (h : Good d) (hstays : DivideStays d) : Good d.divide10 := by
  have hsearch := h.search
  have hlow := h.low
  have hhigh := h.high
  unfold DivideStays at hstays
  unfold DialClass.divide10
  cases hcomma : d.comma with
  | some i =>
      rw [hcomma] at hstays
      dsimp only at hstays ⊢
      obtain ⟨hi, -⟩ := comma_some hcomma
      rw [if_pos (by omega : i > 1)]
      refine Good.shorten ?_ i
      -- the comma moves before the digit that precedes it
      exact h.moveComma hcomma (by omega) (by omega)
  | none =>
      rw [hcomma] at hstays
      dsimp only at hstays ⊢
      have hnone := comma_none hcomma
      have hroom := h.room hnone
      -- a comma is put before the last digit
      refine ⟨?_, ?_, ?_, fun hno => ?_, ?_⟩
      · refine List.forall_mem_cons.2 ⟨by omega, List.forall_mem_cons.2 ⟨by omega, ?_⟩⟩
        exact List.forall_mem_cons.2 ⟨by omega, hsearch.inside⟩
      · show 0 ≤ d.digits + 1
        omega
      · show d.digits + 1 ≤ 9
        omega
      · refine absurd ?_ (hno (d.digits - 1) (by omega)
          (show d.digits - 1 < d.digits + 1 by omega))
        exact Function.update_self ..
      · have hlast : ∀ k, k < d.digits + 1 → k ≠ d.digits → k < d.digits := fun k hk hkn => by omega
        exact h.visible.move (by omega) (by omega) hlast
          fun k hk hk' hck => absurd hck (hnone k hk hk')

theorem Good.commaKey (h : Good d) : Good d.commaKey := by
  unfold DialClass.commaKey
  have hfirst : Good (if d.digits = 0 then d.append 0 else d) := by
    split
    · exact h.append_digit (by omega) (by omega)
    · exact h
  generalize (if d.digits = 0 then d.append 0 else d) = d' at hfirst ⊢
  dsimp only
  split
  · next hnone => exact hfirst.search.append_comma (comma_none hnone)
  · exact hfirst.search

/-- The loop that makes room for a leading zero ends at the entry before the first one. -/
theorem neg_one_mem_shift (d : DialClass) (n : ℕ) : -1 ∈ (d.shift n).accesses := by
  unfold DialClass.shift
  rw [List.range_succ, List.foldl_append, List.foldl_cons, List.foldl_nil, sub_self, zero_sub]
  exact List.mem_cons_self ..

/-- Otherwise the entry before the first one is used. -/
theorem neg_one_mem_divide10 (hlow : 0 ≤ d.digits) (hnot : ¬ DivideStays d) :
    -1 ∈ d.divide10.accesses := by
  unfold DivideStays at hnot
  unfold DialClass.divide10
  cases hcomma : d.comma with
  | some i =>
      rw [hcomma] at hnot
      dsimp only at hnot ⊢
      rw [if_neg (by omega)]
      unfold DialClass.shorten
      split
      · exact List.mem_cons_of_mem _ (neg_one_mem_shift _ _)
      · exact List.mem_cons_of_mem _ (neg_one_mem_shift _ _)
  | none =>
      rw [hcomma] at hnot
      dsimp only at hnot ⊢
      have hzero : d.digits - 1 = -1 := by omega
      rw [hzero]
      exact List.mem_cons_self ..

end Good

/-! ## The value to start from -/

/-- The character is one of the digits. -/
def IsDigit (c : ℕ) : Prop := 48 ≤ c ∧ c ≤ 57

theorem wholeDigits_isDigit (n : ℕ) : ∀ c ∈ DialClass.wholeDigits n, IsDigit c := by
  intro c hc
  unfold DialClass.wholeDigits at hc
  split at hc
  · rw [List.mem_singleton.1 hc]
    exact ⟨Nat.le_refl _, by decide⟩
  · obtain ⟨k, hk, rfl⟩ := List.mem_map.1 hc
    have hlt : k < 10 := Nat.digits_lt_base (by decide) (List.mem_reverse.1 hk)
    exact ⟨by omega, by omega⟩

theorem decimals_isDigit (n : ℕ) : ∀ c ∈ DialClass.decimals n, IsDigit c := by
  intro c hc
  simp only [DialClass.decimals, List.mem_cons, List.not_mem_nil, or_false] at hc
  unfold IsDigit
  omega

theorem lt_length_wholeDigits {n k : ℕ} (hk : 10 ^ k ≤ n) :
    k < (DialClass.wholeDigits n).length := by
  have hne : n ≠ 0 := by
    have := Nat.pow_pos (n := k) (by decide : 0 < 10)
    omega
  unfold DialClass.wholeDigits
  rw [if_neg hne, List.length_map, List.length_reverse, Nat.lt_digits_length_iff (by decide)]
  exact hk

theorem length_wholeDigits_pos (n : ℕ) : 0 < (DialClass.wholeDigits n).length := by
  by_cases hn : n = 0
  · rw [hn]
    exact Nat.zero_lt_one
  · exact lt_length_wholeDigits (k := 0) (by omega)

/-- A number comes with as many characters as the loop of `setMv` counts on. -/
theorem le_length_dtostrf (mv : ℚ) :
    DialClass.nrOfDigitsBeforeComma mv + 3 ≤
      (DialClass.wholeDigits (DialClass.tenThousandths mv / 10000)).length + 5 := by
  have hpos := length_wholeDigits_pos (DialClass.tenThousandths mv / 10000)
  have hmany : ∀ k : ℕ, (10 ^ k : ℚ) ≤ mv →
      k < (DialClass.wholeDigits (DialClass.tenThousandths mv / 10000)).length := by
    intro k hle
    have hfloor : ((10 ^ k * 10000 : ℕ) : ℤ) ≤ ⌊mv * 10000 + 1 / 2⌋ := by
      rw [Int.le_floor]
      push_cast
      linarith
    refine lt_length_wholeDigits ?_
    rw [Nat.le_div_iff_mul_le (by decide)]
    unfold DialClass.tenThousandths
    omega
  unfold DialClass.nrOfDigitsBeforeComma
  split_ifs with h5 h4
  · have := hmany 2 (by linarith)
    omega
  · have := hmany 1 (by linarith)
    omega
  all_goals omega

theorem setChar_digit (d : DialClass) {c : ℕ} (hc : IsDigit c) :
    d.setChar c = d.append (c - 48) := by
  obtain ⟨hlow, hup⟩ := hc
  unfold DialClass.setChar
  rw [if_pos ⟨by omega, by omega⟩, if_neg (by omega)]

theorem setChar_point (d : DialClass) : d.setChar 46 = d.append KEYBOARD_COMMA := rfl

theorem NoComma.append {d : DialClass} (h : NoComma d.dialEntries d.digits) {v : ℤ}
    (hv : v ≤ 9) : NoComma (d.append v).dialEntries (d.digits + 1) := by
  intro i hlow hup
  show Function.update d.dialEntries d.digits v i ≠ KEYBOARD_COMMA
  by_cases hi : i = d.digits
  · rw [hi, Function.update_self]
    simp only [KEYBOARD_COMMA]
    omega
  · rw [Function.update_of_ne hi]
    exact h i hlow (by omega)

/-- Of the characters of a number only the point is no digit. -/
theorem getD_point_or_digit {whole rest : List ℕ} (hwhole : ∀ c ∈ whole, IsDigit c)
    (hrest : ∀ c ∈ rest, IsDigit c) {n : ℕ} (hn : n < whole.length + 1 + rest.length) :
    n = whole.length ∧ (whole ++ 46 :: rest).getD n 0 = 46 ∨
      n ≠ whole.length ∧ IsDigit ((whole ++ 46 :: rest).getD n 0) := by
  rw [List.getD_eq_getElem?_getD]
  rcases Nat.lt_trichotomy n whole.length with hbefore | rfl | hafter
  · refine Or.inr ⟨hbefore.ne, ?_⟩
    rw [List.getElem?_append_left hbefore, List.getElem?_eq_getElem hbefore]
    exact hwhole _ (List.getElem_mem hbefore)
  · refine Or.inl ⟨rfl, ?_⟩
    rw [List.getElem?_append_right le_rfl, Nat.sub_self]
    rfl
  · obtain ⟨k, hk⟩ : ∃ k, n - whole.length = k + 1 := ⟨n - whole.length - 1, by omega⟩
    have hkrest : k < rest.length := by omega
    refine Or.inr ⟨hafter.ne', ?_⟩
    rw [List.getElem?_append_right hafter.le, hk, List.getElem?_cons_succ,
      List.getElem?_eq_getElem hkrest]
    exact hrest _ (List.getElem_mem hkrest)

/-- The loop of `setMv` over a number with a decimal point. -/
theorem Good.setChars {d : DialClass} (h : Good d) (hstart : d.digits = 0) {whole rest : List ℕ}
    (hwhole : ∀ c ∈ whole, IsDigit c) (hrest : ∀ c ∈ rest, IsDigit c) {n : ℕ} (hn : n ≤ 8)
    (hlength : n ≤ whole.length + 1 + rest.length) :
    let d' := (List.range n).foldl (fun d i => d.setChar ((whole ++ 46 :: rest).getD i 0)) d
    Good d' ∧ d'.digits = n ∧ (n ≤ whole.length → NoComma d'.dialEntries n) := by
  induction n with
  | zero =>
      refine ⟨h, hstart, fun _ i hlow hup => ?_⟩
      omega
  | succ n ih =>
      obtain ⟨hgood, hdigits, hnone⟩ := ih (by omega) (by omega)
      have hchar := getD_point_or_digit hwhole hrest (n := n) (by omega)
      rw [List.range_succ, List.foldl_append, List.foldl_cons, List.foldl_nil]
      generalize (List.range n).foldl
        (fun d i => DialClass.setChar d ((whole ++ 46 :: rest).getD i 0)) d = d' at *
      generalize (whole ++ 46 :: rest).getD n 0 = c at *
      have hsucc : ∀ v, (d'.append v).digits = (n + 1 : ℕ) := by
        intro v
        show d'.digits + 1 = _
        rw [hdigits]
        push_cast
        rfl
      have hno : n ≤ whole.length → NoComma d'.dialEntries d'.digits := by
        intro hle
        rw [hdigits]
        exact hnone hle
      rcases hchar with ⟨rfl, rfl⟩ | ⟨hne, hc⟩
      · -- the point
        rw [setChar_point]
        exact ⟨hgood.append_comma (hno le_rfl), hsucc _, fun hle => by omega⟩
      · -- a digit; in front of the point there is no comma yet
        have hdigit : 0 ≤ (c - 48 : ℤ) ∧ (c - 48 : ℤ) ≤ 9 := by
          unfold IsDigit at hc
          omega
        rw [setChar_digit d' hc]
        refine ⟨hgood.append_digit hdigit (by omega), hsucc _, fun hle => ?_⟩
        have hmore := (hno (by omega)).append hdigit.2
        rw [hdigits] at hmore
        exact_mod_cast hmore

theorem nrOfDigitsBeforeComma_le (mv : ℚ) : DialClass.nrOfDigitsBeforeComma mv ≤ 5 := by
  unfold DialClass.nrOfDigitsBeforeComma
  split_ifs <;> omega

theorem Good.setMv {d : DialClass} (h : Good d) (mv : ℚ) : Good (d.setMv mv) := by
  have hempty : Good { d with negative := decide (mv < 0), digits := 0 } := { h.emptied with }
  have hle := nrOfDigitsBeforeComma_le |mv|
  have hlength : DialClass.nrOfDigitsBeforeComma |mv| + 2 + 1 ≤
      (DialClass.wholeDigits (DialClass.tenThousandths |mv| / 10000)).length + 1 +
        (DialClass.decimals (DialClass.tenThousandths |mv|)).length :=
    le_length_dtostrf |mv|
  obtain ⟨hgood, -, -⟩ := hempty.setChars rfl (wholeDigits_isDigit _) (decimals_isDigit _)
    (by omega) hlength
  exact { hgood with }

/-! ## The indices used -/

section Accesses

variable (d : DialClass)

theorem subset_shorten (i : ℕ) : d.accesses ⊆ (d.shorten i).accesses := by
  unfold DialClass.shorten
  split
  · exact List.Subset.refl _
  · exact List.Subset.refl _

theorem subset_shift (n : ℕ) : d.accesses ⊆ (d.shift n).accesses := by
  refine List.foldlRecOn (List.range (n + 1)) _
    (motive := fun (d' : DialClass) => d.accesses ⊆ d'.accesses) (List.Subset.refl _) ?_
  intro d' hd' k _
  exact fun i hi => List.mem_cons_of_mem _ (List.mem_cons_of_mem _ (hd' hi))

theorem subset_search : d.accesses ⊆ d.search.accesses := List.subset_append_right _ _

theorem subset_times10 : d.accesses ⊆ d.times10.accesses := by
  have hsearch := subset_search d
  unfold DialClass.times10
  split
  · exact hsearch
  · split
    · exact fun i hi => by simp [DialClass.put, DialClass.copy, hsearch hi]
    · exact fun i hi => by simp [DialClass.put, DialClass.copy, hsearch hi]

theorem subset_divide10 : d.accesses ⊆ d.divide10.accesses := by
  have hsearch := subset_search d
  unfold DialClass.divide10
  split
  · next i hcomma =>
      have hmoved : d.accesses ⊆ ((d.search.copy i (i - 1)).put (i - 1) KEYBOARD_COMMA).accesses :=
        fun k hk => by simp [DialClass.put, DialClass.copy, hsearch hk]
      generalize (d.search.copy i (i - 1)).put (i - 1) KEYBOARD_COMMA = d' at hmoved ⊢
      dsimp only
      split
      · exact List.Subset.trans hmoved (subset_shorten _ _)
      · refine List.Subset.trans (List.Subset.trans hmoved ?_) (subset_shorten _ _)
        have hshift := subset_shift { d' with digits := d'.digits + 1 } (d'.digits + 1).toNat
        exact fun k hk => List.mem_cons_of_mem _ (hshift hk)
  · exact fun i hi => by simp [DialClass.put, DialClass.copy, hsearch hi]

theorem subset_commaKey : d.accesses ⊆ d.commaKey.accesses := by
  unfold DialClass.commaKey
  have hfirst : d.accesses ⊆ (if d.digits = 0 then d.append 0 else d).accesses := by
    split
    · exact List.subset_cons_self _ _
    · exact List.Subset.refl _
  generalize (if d.digits = 0 then d.append 0 else d) = d' at hfirst ⊢
  have hsearch := List.Subset.trans hfirst (subset_search d')
  dsimp only
  split
  · exact fun i hi => List.mem_cons_of_mem _ (hsearch hi)
  · exact hsearch

theorem subset_edit (tag : ℕ) : d.accesses ⊆ (d.edit tag).accesses := by
  unfold DialClass.edit
  by_cases htimes : tag = KEYBOARD_TIMES10
  · rw [if_pos htimes]
    exact subset_times10 d
  rw [if_neg htimes]
  by_cases hdivide : tag = KEYBOARD_DIVIDE10
  · rw [if_pos hdivide]
    exact subset_divide10 d
  rw [if_neg hdivide]
  by_cases hcomma : tag = KEYBOARD_COMMA
  · subst hcomma
    exact subset_commaKey d
  -- the other keys use one entry at most
  split_ifs <;> first | exact List.Subset.refl _ | exact List.subset_cons_self _ _

theorem subset_setMv (mv : ℚ) : d.accesses ⊆ (d.setMv mv).accesses := by
  refine List.foldlRecOn (List.range (DialClass.nrOfDigitsBeforeComma |mv| + 2 + 1)) _
    (motive := fun (d' : DialClass) => d.accesses ⊆ d'.accesses) (List.Subset.refl _) ?_
  intro d' hd' i _
  refine List.Subset.trans hd' ?_
  unfold DialClass.setChar
  split
  · exact List.subset_cons_self _ _
  · exact List.Subset.refl _

/-- No index that was used is forgotten. -/
theorem subset_step (e : Event) : d.accesses ⊆ (step d e).accesses := by
  cases e with
  | init | clear => exact List.Subset.refl _
  | open_ type set_or_limit micro => exact subset_setMv { d with vol_cur_type := type, set_or_limit := set_or_limit } _
  | setMv mv => exact subset_setMv d mv
  | checkKeypress tag =>
      show d.accesses ⊆ (d.checkKeypress tag).accesses
      unfold DialClass.checkKeypress
      split_ifs
      · exact List.Subset.refl _
      · exact subset_edit { d with keydepressed := false } tag
      · exact List.Subset.refl _

end Accesses

/-! ## Runs -/

/-- A key keeps the entry in order, divided by ten if it meets an entry that it handles. -/
theorem Good.edit {d : DialClass} (h : Good d) {tag : ℕ}
    (hstays : tag = KEYBOARD_DIVIDE10 → DivideStays d) : Good (d.edit tag) := by
  unfold DialClass.edit
  by_cases htimes : tag = KEYBOARD_TIMES10
  · rw [if_pos htimes]
    exact h.times10
  rw [if_neg htimes]
  by_cases hdivide : tag = KEYBOARD_DIVIDE10
  · rw [if_pos hdivide]
    exact h.divide10 (hstays hdivide)
  rw [if_neg hdivide]
  by_cases hback : tag = KEYBOARD_BACK
  · rw [if_pos hback]
    by_cases hpos : d.digits > 0
    · rw [if_pos hpos]
      exact h.drop hpos
    · rw [if_neg hpos]
      exact h
  rw [if_neg hback]
  by_cases hcomma : tag = KEYBOARD_COMMA
  · rw [if_pos hcomma]
    exact h.commaKey
  rw [if_neg hcomma]
  by_cases hdigit : 1 ≤ tag ∧ tag ≤ 9
  · rw [if_pos hdigit]
    exact h.digitKey (by omega)
  rw [if_neg hdigit]
  by_cases hzero : tag = KEYBOARD_0
  · rw [if_pos hzero]
    exact h.digitKey (by omega)
  rw [if_neg hzero]
  -- the keys that are left do not add to the entry
  split
  · exact { h with }
  split
  · exact { h with }
  split
  · exact { h with }
  split
  · exact h.emptied
  split
  · exact { h with }
  · exact h

/-- An accepted key for divided by ten meets an entry that it handles. -/
def Stays (d : DialClass) : Event → Prop
  | .checkKeypress tag => tag = KEYBOARD_DIVIDE10 → d.keydepressed = true → DivideStays d
  | _ => True

/-- Every access was inside the array, the count is in range, and the display shows digits with at most
one comma. -/
def Safe (d : DialClass) : Prop :=
  (∀ i ∈ d.accesses, 0 ≤ i ∧ i ≤ 14) ∧ (0 ≤ d.digits ∧ d.digits ≤ 15) ∧
    Visible d.dialEntries d.digits

theorem Good.safe {d : DialClass} (h : Good d) : Safe d := by
  have hlow := h.low
  have hhigh := h.high
  refine ⟨fun i hi => ?_, by omega, h.visible⟩
  have := h.inside i hi
  omega

theorem Good.clear {d : DialClass} (h : Good d) : Good d.clear :=
  { h.emptied with }

theorem Good.step {d : DialClass} (h : Good d) {e : Event} (hok : Stays d e) :
    Good (step d e) := by
  cases e with
  | init => exact Good.clear (d := { d with negative := false }) { h with }
  | open_ type set_or_limit micro =>
      exact Good.setMv (d := { d with vol_cur_type := type, set_or_limit := set_or_limit })
        { h with } _
  | clear => exact h.clear
  | setMv mv => exact h.setMv mv
  | checkKeypress tag =>
      show Good (d.checkKeypress tag)
      unfold DialClass.checkKeypress
      split_ifs with hnone haccepted
      · exact { h with }
      · have hkey : Good { d with keydepressed := false } := { h with }
        exact hkey.edit fun htag => hok htag haccepted
      · exact h

/-- An accepted key for divided by ten that meets another entry leaves the array. -/
theorem Good.neg_one_mem {d : DialClass} (h : Good d) {e : Event} (hbad : ¬ Stays d e) :
    -1 ∈ (Keypad.step d e).accesses := by
  cases e with
  | checkKeypress tag =>
      simp only [Stays, Classical.not_imp] at hbad
      obtain ⟨rfl, haccepted, hnot⟩ := hbad
      have hstep : Keypad.step d (.checkKeypress KEYBOARD_DIVIDE10) =
          { d with keydepressed := false }.divide10 := by
        show d.checkKeypress KEYBOARD_DIVIDE10 = _
        unfold DialClass.checkKeypress
        rw [if_neg (by decide), if_pos haccepted]
        rfl
      rw [hstep]
      exact neg_one_mem_divide10 (d := { d with keydepressed := false }) h.low hnot
  | init => exact absurd trivial hbad
  | open_ type set_or_limit micro => exact absurd trivial hbad
  | clear => exact absurd trivial hbad
  | setMv mv => exact absurd trivial hbad

theorem Good.not_safe {d : DialClass} (h : Good d) {e : Event} (hbad : ¬ Stays d e) :
    ¬ Safe (Keypad.step d e) := by
  intro hsafe
  have := hsafe.1 _ (h.neg_one_mem hbad)
  omega

/-- The runs in which the dial stays inside its array and shows a well-formed entry are those in
which every accepted key for divided by ten meets an entry that it handles. -/
theorem always_safe_iff (memory : ℤ → ℤ) (es : List Event) :
    Run.Always step Safe (start memory) es ↔ Run.Guarded step Stays (start memory) es :=
  Run.always_iff_guarded (fun _ h => h.safe) (fun _ _ h hok => h.step hok)
    (fun _ _ h hbad => h.not_safe hbad) (good_start memory) es

/-- One, comma, divided by ten. -/
def oneCommaDivided : List Event :=
  [.init, .checkKeypress 1, .checkKeypress 0, .checkKeypress 11, .checkKeypress 0,
    .checkKeypress 18]

theorem oneCommaDivided_accesses :
    -1 ∈ (Run.exec step (start fun _ => 480) oneCommaDivided).accesses := by
  decide +kernel

theorem not_always_safe :
    ¬ ∀ (memory : ℤ → ℤ) (es : List Event), Run.Always step Safe (start memory) es := by
  intro hall
  have := (hall (fun _ => 480) oneCommaDivided).exec.1 _ oneCommaDivided_accesses
  omega

end Keypad
end PoorMansSmu
