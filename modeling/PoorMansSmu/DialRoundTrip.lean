import PoorMansSmu.DialScaling

/-!
# DialRoundTrip — a value shown by a dial and read back

`setMv` prints a value with four decimals and takes as many characters as its size asks for.
Rounding may carry into a new digit, and the thresholds are not powers of ten, so that one to three
decimals are taken.  Only 100000.0 is left with one of them.

- `shows_setMv` : the entry that is shown;
- `round_trip`  : what is read back differs by less than 0.0101.
-/

namespace PoorMansSmu
namespace Keypad

open Segment
open FrontPanel hiding DialClass

/-! ## The characters -/

/-- The entry for a character. -/
def entryOf (c : ℕ) : ℕ := if c = 46 then KEYBOARD_COMMA else c - 48

theorem setChar_eq (d : DialClass) {c : ℕ} (hc : c = 46 ∨ IsDigit c) :
    d.setChar c = d.append (entryOf c) := by
  rcases hc with rfl | hc
  · rfl
  · have hlow := hc.1
    have hpoint : c ≠ 46 := by omega
    rw [setChar_digit d hc, entryOf, if_neg hpoint]
    congr 1
    omega

/-- After `n` rounds the entries are those of the first `n` characters. -/
theorem setChars_stored {d : DialClass} (hstart : d.digits = 0) {chars : List ℕ}
    (hchars : ∀ c ∈ chars, c = 46 ∨ IsDigit c) {n : ℕ} (hn : n ≤ chars.length) :
    let d' := (List.range n).foldl (fun d i => d.setChar (chars.getD i 0)) d
    d'.digits = n ∧ StoredAt d'.dialEntries 0 (stored ((chars.take n).map entryOf)) := by
  induction n with
  | zero => exact ⟨hstart, trivial⟩
  | succ n ih =>
      rcases ih (by omega) with ⟨hdigits, hcells⟩
      have hlt : n < chars.length := hn
      have hlength : (stored ((chars.take n).map entryOf)).length = n := by
        rw [length_stored, List.length_map, List.length_take]
        omega
      dsimp only
      rw [List.range_succ, List.foldl_append, List.foldl_cons, List.foldl_nil]
      generalize (List.range n).foldl (fun (d : DialClass) i => d.setChar (chars.getD i 0)) d = d'
        at *
      rw [List.getD_eq_getElem _ _ hlt, setChar_eq d' (hchars _ (List.getElem_mem hlt)),
        List.take_succ_eq_append_getElem hlt, List.map_append, stored_append, storedAt_append,
        hlength]
      refine ⟨?_, ?_, ?_, trivial⟩
      · show d'.digits + 1 = _
        rw [hdigits]
        rfl
      · exact hcells.update (Or.inr (by rw [hlength, hdigits, zero_add]))
      · rw [zero_add, ← hdigits]
        exact Function.update_self ..

/-- The digits of a whole number. -/
def wholeOf (n : ℕ) : List ℕ := if n = 0 then [0] else (Nat.digits 10 n).reverse

/-- Its last four digits. -/
def decimalsOf (n : ℕ) : List ℕ := [n / 1000 % 10, n / 100 % 10, n / 10 % 10, n % 10]

theorem map_entryOf (l : List ℕ) : (l.map (48 + ·)).map entryOf = l := by
  rw [List.map_map]
  conv_rhs => rw [← List.map_id l]
  refine List.map_congr_left fun c _ => ?_
  have hpoint : 48 + c ≠ 46 := by omega
  show entryOf (48 + c) = c
  rw [entryOf, if_neg hpoint, Nat.add_sub_cancel_left]

theorem wholeOf_le (n : ℕ) : ∀ c ∈ wholeOf n, c ≤ 9 := by
  intro c hc
  unfold wholeOf at hc
  split at hc
  · rw [List.mem_singleton.1 hc]
    exact Nat.zero_le 9
  · exact Nat.le_of_lt_succ (Nat.digits_lt_base (by decide) (List.mem_reverse.1 hc))

theorem decimalsOf_le (n : ℕ) : ∀ c ∈ decimalsOf n, c ≤ 9 := by
  intro c hc
  simp only [decimalsOf, List.mem_cons, List.not_mem_nil, or_false] at hc
  omega

theorem wholeDigits_eq (n : ℕ) : DialClass.wholeDigits n = (wholeOf n).map (48 + ·) := by
  unfold DialClass.wholeDigits wholeOf
  split
  · rfl
  · rfl

/-! ## The number that is printed -/

theorem value_wholeOf (n : ℕ) : Positional.value 10 (wholeOf n) [] = n := by
  unfold wholeOf Positional.value
  split
  · next hzero =>
      rw [hzero]
      norm_num
  · rw [List.append_nil, List.reverse_reverse, Nat.ofDigits_digits]
    norm_num

/-- With all four decimals it is the number that was rounded to. -/
theorem value_printed (n : ℕ) :
    Positional.value 10 (wholeOf (n / 10000)) (decimalsOf n) = n / 10000 := by
  have hsplit := Positional.value_append (b := 10) (wholeOf (n / 10000)) [] (by decide)
    (decimalsOf n)
  have hdecimals : (Nat.ofDigits 10 ([] ++ decimalsOf n).reverse : ℕ) = n % 10000 := by
    simp only [decimalsOf, List.nil_append, List.reverse_cons, List.reverse_nil, List.cons_append,
      Nat.ofDigits_cons, Nat.ofDigits_nil]
    omega
  have hdiv : ((n / 10000 * 10000 + n % 10000 : ℕ) : ℚ) = n := by
    rw [Nat.div_add_mod']
  rw [List.nil_append, value_wholeOf, List.length_nil, pow_zero, div_one] at hsplit
  rw [hsplit, Positional.value, hdecimals]
  push_cast at hdiv ⊢
  rw [← hdiv]
  simp only [decimalsOf, List.length_cons, List.length_nil]
  ring

/-! ## How much is printed -/

theorem length_wholeOf_le {n k : ℕ} (hk : 0 < k) (h : n < 10 ^ k) : (wholeOf n).length ≤ k := by
  unfold wholeOf
  split
  · exact hk
  · rw [List.length_reverse, Nat.digits_length_le_iff (by decide)]
    exact h

theorem length_wholeOf (n : ℕ) : (wholeOf n).length = (DialClass.wholeDigits n).length := by
  rw [wholeDigits_eq, List.length_map]

theorem tenThousandths_le {mv : ℚ} {n : ℕ} (h : mv ≤ n) :
    DialClass.tenThousandths mv ≤ n * 10000 := by
  have hfloor : ⌊mv * 10000 + 1 / 2⌋ < ((n * 10000 + 1 : ℕ) : ℤ) := by
    rw [Int.floor_lt]
    push_cast
    linarith
  unfold DialClass.tenThousandths
  omega

/-- There is room for the digits before the comma, except where rounding leads to 100000. -/
theorem wholeOf_fits {mv : ℚ} (hmv : mv < 100000) :
    (wholeOf (DialClass.tenThousandths mv / 10000)).length ≤ DialClass.nrOfDigitsBeforeComma mv ∨
      (wholeOf (DialClass.tenThousandths mv / 10000)).length ≤
        DialClass.nrOfDigitsBeforeComma mv + 1 ∧ DialClass.tenThousandths mv = 1000000000 := by
  have hmost := tenThousandths_le (n := 100000) (show mv ≤ _ by push_cast; linarith)
  -- up to 10 ^ k - 1, rounding does not reach 10 ^ k
  have hup : ∀ k : ℕ, 0 < k → mv ≤ ((10 ^ k - 1 : ℕ) : ℚ) →
      (wholeOf (DialClass.tenThousandths mv / 10000)).length ≤ k := by
    intro k hk hle
    have hsmall := tenThousandths_le hle
    have hpos := Nat.pow_pos (n := k) (by decide : 0 < 10)
    apply length_wholeOf_le hk
    omega
  unfold DialClass.nrOfDigitsBeforeComma
  split_ifs with h5 h4 h3 h2
  · by_cases hlast : DialClass.tenThousandths mv = 1000000000
    · -- 100000.0000
      refine Or.inr ⟨?_, hlast⟩
      rw [hlast]
      exact length_wholeOf_le (by decide) (by decide)
    · exact Or.inl (length_wholeOf_le (by decide) (by omega))
  · exact Or.inl (hup 4 (by decide) (by norm_num; linarith))
  · exact Or.inl (hup 3 (by decide) (by norm_num; linarith))
  · exact Or.inl (hup 2 (by decide) (by norm_num; linarith))
  · exact Or.inl (hup 1 (by decide) (by norm_num; linarith))

/-- How many decimals are taken. -/
def decimalsTaken (mv : ℚ) : ℕ :=
  DialClass.nrOfDigitsBeforeComma mv + 2 -
    (wholeOf (DialClass.tenThousandths mv / 10000)).length

/-- The entry that shows a value. -/
def printed (mv : ℚ) : Entry where
  whole := wholeOf (DialClass.tenThousandths mv / 10000)
  fraction := some ((decimalsOf (DialClass.tenThousandths mv)).take (decimalsTaken mv))

theorem decimalsTaken_spec {mv : ℚ} (hmv : mv < 100000) :
    0 < decimalsTaken mv ∧ decimalsTaken mv ≤ 4 ∧
      (wholeOf (DialClass.tenThousandths mv / 10000)).length + decimalsTaken mv =
        DialClass.nrOfDigitsBeforeComma mv + 2 := by
  have henough := le_length_dtostrf mv
  rw [← length_wholeOf] at henough
  unfold decimalsTaken
  rcases wholeOf_fits hmv with hfits | ⟨hfits, -⟩
  · omega
  · omega

theorem length_taken {mv : ℚ} (hmv : mv < 100000) :
    ((decimalsOf (DialClass.tenThousandths mv)).take (decimalsTaken mv)).length =
      decimalsTaken mv := by
  rw [List.length_take]
  exact Nat.min_eq_left (decimalsTaken_spec hmv).2.1

theorem printed_digits (mv : ℚ) : (printed mv).Digits where
  whole := wholeOf_le _
  fraction f hf c hc := by
    cases hf
    exact decimalsOf_le _ c (List.mem_of_mem_take hc)

/-- The loop of `setMv` stores the entry. -/
theorem shows_setMv (d : DialClass) {mv : ℚ} (hmv : |mv| < 100000) :
    Shows (d.setMv mv) (printed |mv|) := by
  rcases decimalsTaken_spec hmv with ⟨-, hfew, hlength⟩
  have hstored := setChars_stored (d := { d with negative := decide (mv < 0), digits := 0 }) rfl
    (dtostrf_chars |mv|) (le_length_chars |mv|)
  dsimp only at hstored
  rcases hstored with ⟨hdigits, hcells⟩
  -- what is taken are the characters of the entry
  have hentries : ((DialClass.dtostrf |mv|).take
      (DialClass.nrOfDigitsBeforeComma |mv| + 2 + 1)).map entryOf = (printed |mv|).entries := by
    have hback : DialClass.nrOfDigitsBeforeComma |mv| + 2 + 1 =
        (wholeOf (DialClass.tenThousandths |mv| / 10000)).length + (decimalsTaken |mv| + 1) := by
      omega
    have hdecimals : DialClass.decimals (DialClass.tenThousandths |mv|) =
        (decimalsOf (DialClass.tenThousandths |mv|)).map (48 + ·) := rfl
    rw [DialClass.dtostrf, wholeDigits_eq, hdecimals, hback]
    rw [← List.length_map (48 + ·), List.take_length_add_append, List.take_succ_cons,
      List.map_append, List.map_cons, map_entryOf, ← List.map_take, map_entryOf]
    rfl
  rw [hentries] at hcells
  have hcount : (printed |mv|).entries.length = DialClass.nrOfDigitsBeforeComma |mv| + 2 + 1 := by
    rw [← hentries, List.length_map, List.length_take]
    exact Nat.min_eq_left (le_length_chars |mv|)
  refine ⟨?_, hcells⟩
  rw [hcount]
  exact hdigits

/-! ## How far off it is -/

/-- Rounding to four decimals. -/
theorem abs_sub_tenThousandths {mv : ℚ} (hmv : 0 ≤ mv) :
    |mv - DialClass.tenThousandths mv / 10000| ≤ 1 / 20000 := by
  have hlow := Int.floor_le (mv * 10000 + 1 / 2)
  have hup := Int.lt_floor_add_one (mv * 10000 + 1 / 2)
  have hnonneg : 0 ≤ ⌊mv * 10000 + 1 / 2⌋ := Int.floor_nonneg.2 (by linarith)
  have hcast : ((DialClass.tenThousandths mv : ℕ) : ℚ) = (⌊mv * 10000 + 1 / 2⌋ : ℤ) := by
    unfold DialClass.tenThousandths
    exact_mod_cast congrArg (Int.cast : ℤ → ℚ) (Int.toNat_of_nonneg hnonneg)
  rw [hcast, abs_le]
  constructor <;> linarith

/-- The decimals that are not taken. -/
theorem printed_number {mv : ℚ} (hmv : mv < 100000) :
    0 ≤ DialClass.tenThousandths mv / 10000 - (printed mv).number ∧
      DialClass.tenThousandths mv / 10000 - (printed mv).number < 1 / 100 := by
  have hlength := (decimalsTaken_spec hmv).2.2
  have hrest : ∀ c ∈ (decimalsOf (DialClass.tenThousandths mv)).drop (decimalsTaken mv), c < 10 :=
    fun c hc => Nat.lt_succ_of_le (decimalsOf_le _ c (List.mem_of_mem_drop hc))
  have hsplit := Positional.value_append (b := 10)
    (wholeOf (DialClass.tenThousandths mv / 10000))
    ((decimalsOf (DialClass.tenThousandths mv)).take (decimalsTaken mv)) (by decide)
    ((decimalsOf (DialClass.tenThousandths mv)).drop (decimalsTaken mv))
  rw [List.take_append_drop, value_printed, length_taken hmv] at hsplit
  have hnumber : (printed mv).number = Positional.value 10
      (wholeOf (DialClass.tenThousandths mv / 10000))
      ((decimalsOf (DialClass.tenThousandths mv)).take (decimalsTaken mv)) := rfl
  rw [hsplit, hnumber, add_sub_cancel_left]
  have hlow := Positional.value_nonneg (b := 10) []
    ((decimalsOf (DialClass.tenThousandths mv)).drop (decimalsTaken mv))
  refine ⟨by positivity, ?_⟩
  rcases wholeOf_fits hmv with hfits | ⟨-, hlast⟩
  · -- two decimals at least
    have hone := Positional.value_lt_one (b := 10) _ (by decide) hrest
    have hpow : (100 : ℚ) ≤ (10 : ℕ) ^ decimalsTaken mv := by
      calc (100 : ℚ) = (10 : ℕ) ^ 2 := by norm_num
        _ ≤ (10 : ℕ) ^ decimalsTaken mv := pow_le_pow_right₀ (by norm_num) (by omega)
    rw [div_lt_div_iff₀ (by positivity) (by norm_num)]
    linarith
  · -- only zeros are left out
    have hzero : ∀ c ∈ (decimalsOf (DialClass.tenThousandths mv)).drop (decimalsTaken mv),
        c = 0 := by
      intro c hc
      have hmem := List.mem_of_mem_drop hc
      rw [hlast] at hmem
      simpa [decimalsOf] using hmem
    rw [(Positional.value_eq_zero_iff _ (by decide)).2 hzero]
    norm_num

/-- What is read of a printed value. -/
theorem toMv_setMv (d : DialClass) {mv : ℚ} (hmv : |mv| < 100000) :
    (d.setMv mv).display.toMv = (printed |mv|).number := by
  have htaken := (decimalsTaken_spec hmv).1
  have hbehind : (printed |mv|).fraction ≠ some [] := by
    intro hnone
    have hlength := congrArg List.length (Option.some.inj hnone)
    rw [List.length_take, List.length_nil] at hlength
    have hfour : (decimalsOf (DialClass.tenThousandths |mv|)).length = 4 := rfl
    omega
  rw [DialDisplay.toMv_eq (shows_setMv d hmv).entries (printed_digits |mv|).single, if_neg hbehind,
    add_zero]
  rfl

theorem length_printed {mv : ℚ} (hmv : mv < 100000) :
    (printed mv).entries.length = DialClass.nrOfDigitsBeforeComma mv + 3 := by
  have hlength := (decimalsTaken_spec hmv).2.2
  unfold printed Entry.entries
  dsimp only
  rw [List.length_append, List.length_cons, length_taken hmv]
  omega

theorem printed_wellFormed (mv : ℚ) : (printed mv).WellFormed where
  toDigits := printed_digits mv
  nonempty := by
    apply List.ne_nil_of_length_pos
    show 0 < (wholeOf _).length
    rw [length_wholeOf]
    exact length_wholeDigits_pos _

theorem printed_fraction {mv : ℚ} (hmv : mv < 100000) :
    ∃ c rest, (printed mv).fraction = some (c :: rest) := by
  have htaken := (decimalsTaken_spec hmv).1
  unfold printed
  cases hcount : decimalsTaken mv with
  | zero => omega
  | succ k => exact ⟨_, _, rfl⟩

theorem setChar_negative (d : DialClass) (c : ℕ) : (d.setChar c).negative = d.negative := by
  unfold DialClass.setChar
  split_ifs <;> rfl

/-- The sign is kept apart. -/
theorem setMv_negative (d : DialClass) (mv : ℚ) : (d.setMv mv).negative = decide (mv < 0) :=
  List.foldlRecOn (List.range (DialClass.nrOfDigitsBeforeComma |mv| + 2 + 1)) _
    (motive := fun (d' : DialClass) => d'.negative = decide (mv < 0)) rfl
    fun d' hd' _ _ => (setChar_negative d' _).trans hd'

/-- An open dialog hands on what is read of the display. -/
theorem handleKeypadDialog_getMv (dial : FrontPanel.DialClass) (hopen : dial.dialog = true)
    (set_or_limit : SetOrLimit) (x : DialDisplay) :
    (dial.handleKeypadDialog set_or_limit x).getMv =
      if dial.negative then -x.toMv else x.toMv := by
  unfold FrontPanel.DialClass.handleKeypadDialog
  rw [if_neg (by simp [hopen])]
  dsimp only
  cases FrontPanel.DialClass.validate { dial with mv := x.toMv } set_or_limit x x.toMv <;> rfl

/-- A value is shown and read back.  `dial` is what the dialog knows of the dial besides its
entries. -/
structure RoundTrips (d : DialClass) (mv : ℚ) (dial : FrontPanel.DialClass) : Prop where
  entry : ∃ e, Shows (d.setMv mv) e ∧ e.WellFormed ∧ ∃ c rest, e.fraction = some (c :: rest)
  digits : (d.setMv mv).digits ≤ 8
  toMv : |(|mv| - (d.setMv mv).display.toMv)| < 0.0101
  getMv : (({ dial with negative := (d.setMv mv).negative } :
      FrontPanel.DialClass).handleKeypadDialog (d.setMv mv).set_or_limit
        (d.setMv mv).display).getMv =
    if mv < 0 then -(d.setMv mv).display.toMv else (d.setMv mv).display.toMv

/-- For every value below 100000 the entry is well formed, has a comma and a digit behind it, and is
not longer than 8; what is read differs by less than 0.0101, and the dialog hands it on with its
sign. -/
theorem round_trip (d : DialClass) (mv : ℚ) (hmv : |mv| < 100000) (dial : FrontPanel.DialClass)
    (hopen : dial.dialog = true) : RoundTrips d mv dial where
  entry := ⟨printed |mv|, shows_setMv d hmv, printed_wellFormed |mv|, printed_fraction hmv⟩
  digits := by
    have hcount := (shows_setMv d hmv).digits
    have hfew := nrOfDigitsBeforeComma_le |mv|
    rw [length_printed hmv] at hcount
    omega
  toMv := by
    have hround := abs_sub_tenThousandths (abs_nonneg mv)
    rcases printed_number hmv with ⟨hlow, hup⟩
    rw [toMv_setMv d hmv]
    -- the errors of rounding and of cutting off add up
    rw [abs_le] at hround
    rw [abs_lt]
    constructor <;> linarith
  getMv := by
    have hread := handleKeypadDialog_getMv { dial with negative := (d.setMv mv).negative } hopen
      (d.setMv mv).set_or_limit (d.setMv mv).display
    rw [hread, setMv_negative]
    simp only [decide_eq_true_eq]

/-- Across a threshold: 99.99996 is shown as 100.00. -/
theorem round_trip_threshold : RoundTrips (start fun _ => 0) 99.99996 { dialog := true } :=
  round_trip (start fun _ => 0) 99.99996 (by norm_num [abs_lt]) { dialog := true } rfl

end Keypad
end PoorMansSmu
