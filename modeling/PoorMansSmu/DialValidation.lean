import PoorMansSmu.DialRoundTrip

/-!
# DialValidation — the printed value that `validate` looks at

`validate` prints the value with three decimals into an array of 13 characters and reads it back as
two whole numbers, one in front of the point and one behind it.

Nothing is checked before it is printed.  The entry has nine characters at most, so that in milli and
micro every value fits; in volts a number from 100000 on does not (`text_fits_iff`).  In microvolts the number behind the point is what the thousands leave, and it is
this number that is compared with 100 (`microvolts_iff`).
-/

namespace PoorMansSmu
namespace DialValidation

open FrontPanel

/-! ## Printing and reading back -/

/-- The size of `buf`. -/
def bufSize : ℕ := 3 + 10

/-- A number in steps of its third decimal. -/
def thousandths (mv : ℚ) : ℕ := ⌊mv * 1000 + 1 / 2⌋.toNat

/-- The characters that `sprintf` writes for a number that is not negative, without the one at the
end. -/
def sprintf (mv : ℚ) : List ℕ :=
  Keypad.DialClass.wholeDigits (thousandths mv / 1000) ++
    46 :: [48 + thousandths mv / 100 % 10, 48 + thousandths mv / 10 % 10, 48 + thousandths mv % 10]

/-- The number that `%d` reads from digits. -/
def scanInt (chars : List ℕ) : ℕ := Nat.ofDigits 10 (chars.map (· - 48)).reverse

/-- `sscanf` with two numbers and a point between them. -/
def sscanf (buf : List ℕ) : ℕ × ℕ :=
  (scanInt (buf.takeWhile (· ≠ 46)), scanInt (buf.dropWhile (· ≠ 46)).tail)

/-- There is room for the text with its end, and the number in front of the point is an `int`. -/
def TextFits (x : DialDisplay) : Prop :=
  (sprintf x.toMv).length + 1 ≤ bufSize ∧ (sscanf (sprintf x.toMv)).1 < 2 ^ 31

/-- The value is printed with eight digits in front of the point at most. -/
def ShortValue (x : DialDisplay) : Prop := x.toMv < 99999999.9995

theorem scanInt_wholeDigits (n : ℕ) : scanInt (Keypad.DialClass.wholeDigits n) = n := by
  unfold scanInt Keypad.DialClass.wholeDigits
  split
  · next hzero => rw [hzero]; rfl
  · have hback : ((Nat.digits 10 n).reverse.map (48 + ·)).map (· - 48) =
        (Nat.digits 10 n).reverse := by
      rw [List.map_map]
      conv_rhs => rw [← List.map_id (Nat.digits 10 n).reverse]
      refine List.map_congr_left fun c _ => ?_
      show 48 + c - 48 = c
      exact Nat.add_sub_cancel_left 48 c
    rw [hback, List.reverse_reverse, Nat.ofDigits_digits]

/-- The text splits at the point again. -/
theorem sscanf_sprintf (mv : ℚ) :
    sscanf (sprintf mv) = (thousandths mv / 1000, thousandths mv % 1000) := by
  have hwhole : ∀ c ∈ Keypad.DialClass.wholeDigits (thousandths mv / 1000),
      decide (c ≠ 46) = true := by
    intro c hc
    have hdigit := Keypad.wholeDigits_isDigit _ c hc
    have hne : c ≠ 46 := fun heq => absurd hdigit.1 (by omega)
    simpa using hne
  have hdecimals : scanInt [48 + thousandths mv / 100 % 10, 48 + thousandths mv / 10 % 10,
      48 + thousandths mv % 10] = thousandths mv % 1000 := by
    simp only [scanInt, List.map_cons, List.map_nil, List.reverse_cons, List.reverse_nil,
      List.nil_append, List.cons_append, Nat.ofDigits_cons, Nat.ofDigits_nil,
      Nat.add_sub_cancel_left]
    omega
  unfold sscanf sprintf
  rw [List.takeWhile_append_of_pos hwhole, List.dropWhile_append_of_pos hwhole,
    List.takeWhile_cons_of_neg (by decide), List.append_nil, scanInt_wholeDigits,
    List.dropWhile_cons_of_neg (by decide), List.tail_cons, hdecimals]

/-- What is read are the two numbers of the validation. -/
theorem sscanf_values {mv : ℚ} (hmv : 0 ≤ mv) :
    ((sscanf (sprintf mv)).1 : ℤ) = numberValue mv ∧
      ((sscanf (sprintf mv)).2 : ℤ) = decimalValue mv := by
  have hnonneg : 0 ≤ ⌊mv * 1000 + 1 / 2⌋ := by
    rw [Int.floor_nonneg]
    linarith
  have hcast : (thousandths mv : ℤ) = ⌊mv * 1000 + 1 / 2⌋ := Int.toNat_of_nonneg hnonneg
  rw [sscanf_sprintf, numberValue, decimalValue, ← hcast]
  exact ⟨rfl, rfl⟩

/-! ## Room for the text -/

theorem length_sprintf (mv : ℚ) :
    (sprintf mv).length = (Keypad.DialClass.wholeDigits (thousandths mv / 1000)).length + 4 := by
  simp [sprintf]

theorem length_wholeDigits_le_iff {n k : ℕ} (hk : 0 < k) :
    (Keypad.DialClass.wholeDigits n).length ≤ k ↔ n < 10 ^ k := by
  constructor
  · intro hle
    by_contra hge
    exact absurd (Keypad.lt_length_wholeDigits (not_lt.1 hge)) (not_lt.2 hle)
  · intro hlt
    rw [← Keypad.length_wholeOf]
    exact Keypad.length_wholeOf_le hk hlt

theorem thousandths_lt_iff (mv : ℚ) : thousandths mv < 10 ^ 11 ↔ mv < 99999999.9995 := by
  have hfloor : ⌊mv * 1000 + 1 / 2⌋ < 10 ^ 11 ↔ mv < 99999999.9995 := by
    rw [Int.floor_lt]
    push_cast
    constructor
    · intro h
      linarith
    · intro h
      linarith
  rw [← hfloor]
  unfold thousandths
  omega

/-- Eight digits fit in front of the point, and they are far from the bound of an `int`. -/
theorem textFits_iff (x : DialDisplay) : TextFits x ↔ ShortValue x := by
  rw [ShortValue, ← thousandths_lt_iff, TextFits, length_sprintf, sscanf_sprintf]
  have hroom := length_wholeDigits_le_iff (n := thousandths x.toMv / 1000) (k := 8) (by decide)
  simp only [bufSize]
  constructor
  · rintro ⟨hlength, -⟩
    -- point, three decimals and the end mark leave room for eight digits
    have hlt := hroom.1 (by omega)
    omega
  · intro hlt
    have hlength := hroom.2 (by omega)
    exact ⟨by omega, by omega⟩

/-! ## Entries that are too long -/

/-- The entry on the display of a dial. -/
def shownEntry (d : Keypad.DialClass) : Entry := Entry.read d.display.entries

/-- The number in front of the comma. -/
def whole (d : Keypad.DialClass) : ℕ := Nat.ofDigits 10 (shownEntry d).whole.reverse

/-- What comes to it: the digits behind the comma, or the entry behind a comma at the end, which is
not shown. -/
def behind (d : Keypad.DialClass) : ℚ :=
  Positional.value 10 [] ((shownEntry d).fraction.getD []) +
    if (shownEntry d).fraction = some [] then (d.display.dialEntries d.display.digits : ℚ) / 10 else 0

/-- In volts there are not more than five digits in front of the comma, leading zeros aside; and 99999
and a comma are not followed by a comma that was taken back. -/
def FitsEntry (d : Keypad.DialClass) : Prop :=
  d.voltDecade = .V →
    whole d < 100000 ∧
      (whole d = 99999 → Keypad.TrailingComma d → d.dialEntries d.digits ≠ KEYBOARD_COMMA)

/-- Every access so far was inside the array. -/
def Inside (d : Keypad.DialClass) : Prop := ∀ i ∈ d.accesses, 0 ≤ i ∧ i < 15

/-- The entry fits; or, when something from outside the array may have come into it, its value. -/
def FitsKeypad (d : Keypad.DialClass) : Prop :=
  (Inside d → FitsEntry d) ∧ (¬ Inside d → ShortValue d.display)

section Entered

variable {d : Keypad.DialClass}

theorem shownEntry_digits (h : Keypad.Visible d.dialEntries d.digits) : (shownEntry d).Digits := by
  have hdigit : ∀ c ∈ d.display.entries, c ≠ KEYBOARD_COMMA → c ≤ 9 := by
    intro c hc hcomma
    obtain ⟨i, hi⟩ := List.mem_iff_getElem?.1 hc
    obtain ⟨hlt, rfl⟩ := Keypad.getElem?_entries hi
    rcases h.entry i (by omega) hlt with hle | heq
    · omega
    · exact absurd (by rw [heq]; rfl) hcomma
  have hentries : (shownEntry d).entries = d.display.entries := Entry.entries_read _
  have hsingle : (shownEntry d).Single := h.single_read
  refine ⟨fun c hc => hdigit c ?_ (hsingle.whole c hc), fun f hf c hc =>
    hdigit c ?_ (hsingle.fraction f hf c hc)⟩
  · rw [← hentries, Entry.entries]
    cases (shownEntry d).fraction with
    | none => exact hc
    | some f => exact List.mem_append_left _ hc
  · rw [← hentries, Entry.entries, hf]
    exact List.mem_append_right _ (List.mem_cons_of_mem _ hc)

/-- Room for the entry is shared by the digits on both sides of the comma. -/
theorem length_shownEntry (hlow : 0 ≤ d.digits) :
    ((shownEntry d).whole.length : ℤ) +
      ((shownEntry d).fraction.elim 0 fun f => f.length + 1 : ℕ) = d.digits := by
  have hlength := d.display.length_entries
  have hdigits : d.display.digits = d.digits.toNat := rfl
  rw [← Entry.entries_read d.display.entries, hdigits] at hlength
  change (shownEntry d).entries.length = _ at hlength
  unfold Entry.entries at hlength
  cases hfraction : (shownEntry d).fraction with
  | none =>
      rw [hfraction] at hlength
      dsimp only [Option.elim] at hlength ⊢
      omega
  | some f =>
      rw [hfraction, List.length_append, List.length_cons] at hlength
      dsimp only [Option.elim] at hlength ⊢
      omega

theorem whole_lt (h : Keypad.Visible d.dialEntries d.digits) :
    whole d < 10 ^ (shownEntry d).whole.length := by
  have hdigits := (shownEntry_digits h).whole
  have hlt := Nat.ofDigits_lt_base_pow_length (b := 10) (l := (shownEntry d).whole.reverse)
    (by decide) fun c hc => Nat.lt_succ_of_le (hdigits c (List.mem_reverse.1 hc))
  rwa [List.length_reverse] at hlt

/-- The value is what stands in front of the comma and what comes to it, in the unit. -/
theorem toMv_eq_whole (h : Keypad.Visible d.dialEntries d.digits) :
    d.display.toMv = d.voltDecade.thousandths (whole d + behind d) := by
  have hentries : d.display.entries = (shownEntry d).entries := (Entry.entries_read _).symm
  have hnumber : (shownEntry d).number =
      whole d + Positional.value 10 [] ((shownEntry d).fraction.getD []) := by
    have happend := Positional.value_append (b := 10) (shownEntry d).whole [] (by decide)
      ((shownEntry d).fraction.getD [])
    rw [List.nil_append, List.length_nil, pow_zero, div_one] at happend
    rw [Entry.number, happend]
    congr 1
    simp [Positional.value, whole]
  rw [DialDisplay.toMv_eq hentries h.single_read, hnumber, behind, add_assoc]
  rfl

/-- A number needs as many entries as it has digits. -/
theorem lt_length_whole (h : Keypad.Visible d.dialEntries d.digits) {k : ℕ} (hk : 10 ^ k ≤ whole d) :
    k < (shownEntry d).whole.length :=
  (Nat.pow_lt_pow_iff_right (by decide : 1 < 10)).1 (hk.trans_lt (whole_lt h))

/-- The entry behind those shown. -/
theorem next_eq (h : Keypad.Entered d) :
    (d.display.dialEntries d.display.digits : ℚ) = d.dialEntries d.digits := by
  have hlow := h.low
  have hnonneg := (h.tidy.entry hlow h.high).nonneg
  have htoNat : d.display.dialEntries d.display.digits = (d.dialEntries d.digits).toNat := by
    simp only [Keypad.DialClass.display, Int.toNat_of_nonneg hlow]
  rw [htoNat]
  exact_mod_cast congrArg (Int.cast (R := ℚ)) (Int.toNat_of_nonneg hnonneg)

/-- Without a comma there are eight digits at most. -/
theorem behind_of_none (h : Keypad.Entered d) (hnone : (shownEntry d).fraction = none) :
    behind d = 0 ∧ whole d < 10 ^ 8 := by
  have hlow := h.low
  have hentries : (shownEntry d).whole = d.display.entries := by
    have hall := Entry.entries_read d.display.entries
    change (shownEntry d).entries = _ at hall
    rwa [Entry.entries, hnone] at hall
  have hcomma : Keypad.NoComma d.dialEntries d.digits := by
    intro i hi hlt heq
    have hmem : KEYBOARD_COMMA ∈ (shownEntry d).whole := by
      rw [hentries]
      refine List.mem_map.2 ⟨i.toNat, List.mem_range.2 ?_, ?_⟩
      · show i.toNat < d.digits.toNat
        omega
      · simp only [Keypad.DialClass.display, Int.toNat_of_nonneg hi, heq]
        rfl
    exact h.visible.single_read.whole _ hmem rfl
  have hroom := h.room hcomma
  have hlength := length_shownEntry hlow
  rw [hnone] at hlength
  dsimp only [Option.elim] at hlength
  refine ⟨?_, ?_⟩
  · unfold behind
    rw [hnone]
    simp [Positional.value_nil]
  · by_contra hlong
    have := lt_length_whole h.visible (not_lt.1 hlong)
    omega

/-- Behind a comma at the end the next entry counts; behind eight digits it is one that was never
used. -/
theorem behind_of_trailing (h : Keypad.Entered d) (hend : (shownEntry d).fraction = some []) :
    behind d = (d.dialEntries d.digits : ℚ) / 10 ∧ whole d < 10 ^ 8 ∧
      (10 ^ 7 ≤ whole d → d.dialEntries d.digits = 0) := by
  have hlow := h.low
  have hhigh := h.high
  have hlength := length_shownEntry hlow
  rw [hend] at hlength
  dsimp only [Option.elim, List.length_nil] at hlength
  refine ⟨?_, ?_, ?_⟩
  · unfold behind
    rw [hend, if_pos rfl, Option.getD_some, Positional.value_nil, zero_add, next_eq h]
  · by_contra hlong
    have := lt_length_whole h.visible (not_lt.1 hlong)
    omega
  · intro hlong
    have := lt_length_whole h.visible hlong
    exact (h.tidy d.digits hlow (by omega)).2 (by omega)

/-- The more digits there are in front of the comma, the fewer are behind it. -/
theorem behind_of_digits (h : Keypad.Entered d) {f : List ℕ}
    (hf : (shownEntry d).fraction = some f) (hne : f ≠ []) :
    0 ≤ behind d ∧ behind d < 1 ∧ whole d < 10 ^ 7 ∧ (10 ^ 4 ≤ whole d → behind d ≤ 999 / 1000) := by
  have hhigh := h.high
  have hlength := length_shownEntry h.low
  rw [hf] at hlength
  dsimp only [Option.elim] at hlength
  have hpos := List.length_pos_iff.2 hne
  have hbehind : behind d = Positional.value 10 [] f := by
    unfold behind
    rw [hf, if_neg (by simpa using hne), Option.getD_some, add_zero]
  have hdigits : ∀ c ∈ f, c < 10 := fun c hc =>
    Nat.lt_succ_of_le ((shownEntry_digits h.visible).fraction f hf c hc)
  rw [hbehind]
  refine ⟨Positional.value_nonneg _ _, Positional.value_lt_one f (by decide) hdigits, ?_, ?_⟩
  · by_contra hlong
    have := lt_length_whole h.visible (not_lt.1 hlong)
    omega
  · -- with five digits in front there are three behind at most
    intro hlong
    have hmany := lt_length_whole h.visible hlong
    have hfew : f.length ≤ 3 := by omega
    have hle := Positional.value_le (b := 10) f (by decide) hdigits
    have hpow : (10 : ℚ) ^ f.length ≤ 10 ^ 3 := pow_le_pow_right₀ (by norm_num) hfew
    have hlast : 1 / (10 : ℚ) ^ 3 ≤ 1 / 10 ^ f.length :=
      one_div_le_one_div_of_le (by positivity) hpow
    push_cast at hle
    linarith

theorem shown_cases (d : Keypad.DialClass) :
    (shownEntry d).fraction = none ∨ (shownEntry d).fraction = some [] ∨
      ∃ f, (shownEntry d).fraction = some f ∧ f ≠ [] := by
  cases (shownEntry d).fraction with
  | none => exact Or.inl rfl
  | some f =>
      cases f with
      | nil => exact Or.inr (Or.inl rfl)
      | cons c f => exact Or.inr (Or.inr ⟨c :: f, rfl, List.cons_ne_nil c f⟩)

/-- What an entry comes to, whatever its form. -/
theorem behind_bounds (h : Keypad.Entered d) :
    0 ≤ behind d ∧ behind d ≤ 11 / 10 ∧ whole d < 10 ^ 8 ∧ (10 ^ 7 ≤ whole d → behind d = 0) := by
  rcases shown_cases d with hnone | hend | ⟨f, hf, hne⟩
  · obtain ⟨hzero, hlt⟩ := behind_of_none h hnone
    exact ⟨hzero.ge, by rw [hzero]; norm_num, hlt, fun _ => hzero⟩
  · obtain ⟨hnext, hlt, hunused⟩ := behind_of_trailing h hend
    have hentry : (0 : ℚ) ≤ d.dialEntries d.digits ∧ (d.dialEntries d.digits : ℚ) ≤ 11 := by
      have hkind := h.tidy.entry h.low h.high
      unfold Keypad.IsEntry at hkind
      simp only [KEYBOARD_COMMA] at hkind
      constructor
      · exact_mod_cast (show 0 ≤ d.dialEntries d.digits by omega)
      · exact_mod_cast (show d.dialEntries d.digits ≤ 11 by omega)
    rw [hnext]
    refine ⟨by linarith only [hentry.1], by linarith only [hentry.2], hlt, fun hlong => ?_⟩
    rw [hunused hlong]
    norm_num
  · obtain ⟨hnonneg, hone, hlt, -⟩ := behind_of_digits h hf hne
    exact ⟨hnonneg, by linarith, hlt.trans (by norm_num), fun hlong => by omega⟩

/-- Behind 99999 only a comma that was taken back makes one more. -/
theorem behind_99999 (h : Keypad.Entered d) (hwhole : whole d = 99999) :
    behind d < 0.9999995 ↔
      (Keypad.TrailingComma d → d.dialEntries d.digits ≠ KEYBOARD_COMMA) := by
  have htrailing : (shownEntry d).fraction = some [] ↔ Keypad.TrailingComma d :=
    Keypad.trailingComma_iff h.visible
  rw [← htrailing]
  rcases shown_cases d with hnone | hend | ⟨f, hf, hne⟩
  · rw [(behind_of_none h hnone).1]
    refine iff_of_true (by norm_num) fun hend => ?_
    rw [hnone] at hend
    cases hend
  · rw [(behind_of_trailing h hend).1]
    rcases h.tidy.entry h.low h.high with hdigit | hcomma
    · have hle : (d.dialEntries d.digits : ℚ) ≤ 9 := by exact_mod_cast hdigit.2
      refine iff_of_true (by linarith) fun _ heq => ?_
      rw [heq] at hdigit
      exact absurd hdigit.2 (by decide)
    · refine iff_of_false ?_ fun hno => hno hend hcomma
      rw [hcomma]
      norm_num [KEYBOARD_COMMA]
  · have hle := (behind_of_digits h hf hne).2.2.2 (by rw [hwhole]; norm_num)
    refine iff_of_true (by linarith) fun hend => ?_
    rw [hf] at hend
    exact absurd (Option.some.inj hend) hne

/-- In milli and micro every entry fits, in volts those of five digits in front of the comma. -/
theorem textFits_iff_fitsEntry (h : Keypad.Entered d) : TextFits d.display ↔ FitsEntry d := by
  obtain ⟨hnonneg, hle, hlt, hlong⟩ := behind_bounds h
  have hcast : ∀ n : ℕ, whole d ≤ n → (whole d : ℚ) ≤ n := fun n hn => by exact_mod_cast hn
  -- eight digits leave no room for more
  have hsum : (whole d : ℚ) + behind d ≤ 99999999 := by
    by_cases hmany : 10 ^ 7 ≤ whole d
    · rw [hlong hmany, add_zero]
      exact_mod_cast hcast 99999999 (by omega)
    · have := hcast 9999999 (by omega)
      push_cast at this
      linarith
  rw [textFits_iff, ShortValue, toMv_eq_whole h.visible, FitsEntry]
  cases d.voltDecade with
  | mV =>
      refine iff_of_true ?_ fun hunit => by cases hunit
      change (whole d : ℚ) + behind d < _
      linarith
  | uV =>
      refine iff_of_true ?_ fun hunit => by cases hunit
      change ((whole d : ℚ) + behind d) / 1000 < _
      linarith
  | V =>
      change ((whole d : ℚ) + behind d) * 1000 < _ ↔ _
      rw [forall_prop_of_true rfl]
      rcases Nat.lt_trichotomy (whole d) 99999 with hless | heq | hmore
      · have := hcast 99998 (by omega)
        push_cast at this
        exact iff_of_true (by linarith) ⟨by omega, fun heq => by omega⟩
      · rw [heq]
        have hbehind := behind_99999 h heq
        constructor
        · intro hfits
          exact ⟨by norm_num, fun _ => hbehind.1 (by push_cast at hfits; linarith)⟩
        · intro hfits
          have := hbehind.2 (hfits.2 rfl)
          push_cast
          linarith
      · refine iff_of_false ?_ fun hfits => by omega
        have hge : (100000 : ℚ) ≤ whole d := by exact_mod_cast hmore
        linarith

end Entered

/-! ## Runs -/

/-- As long as no access was outside the array, the dial is in order. -/
theorem entered_of_inside (memory : ℤ → ℤ) (es : List Keypad.Event) :
    Run.Always Keypad.step (fun d => Inside d → Keypad.Entered d) (Keypad.start memory) es := by
  refine Run.always_of_step ?_ (fun _ => Keypad.entered_start memory) es
  intro d e hd hinside
  have hbefore : Inside d := fun i hi => hinside i (Keypad.subset_step d e hi)
  have hentered := hd hbefore
  by_cases hstays : Keypad.Stays d e
  · exact hentered.step hstays
  · -- divided by ten leaves the array
    have := hinside _ (hentered.neg_one_mem hstays)
    omega

/-- In every run of a dial all texts fit exactly if every entry does: in volts it has five digits in
front of the comma at most.  After an access outside the array, when anything may stand in the entry,
the value decides. -/
theorem text_fits_iff (memory : ℤ → ℤ) (es : List Keypad.Event) :
    Run.Always Keypad.step (fun d => TextFits d.display) (Keypad.start memory) es ↔
      Run.Always Keypad.step FitsKeypad (Keypad.start memory) es := by
  refine Run.Always.congr ((entered_of_inside memory es).mono fun d hentered => ?_)
  unfold FitsKeypad
  by_cases hinside : Inside d
  · rw [textFits_iff_fitsEntry (hentered hinside)]
    exact ⟨fun h => ⟨fun _ => h, fun hnot => absurd hinside hnot⟩, fun h => h.1 hinside⟩
  · rw [textFits_iff]
    exact ⟨fun h => ⟨fun hin => absurd hin hinside, fun _ => h⟩, fun h => h.2 hinside⟩

-- Six nines and a comma, of which the comma and a nine are taken back; behind a new comma, which is
-- then the last entry shown, the old one counts as eleven tenths.
example : (Run.exec Keypad.step (Keypad.start fun _ => 0)
    (Keypad.keys [16, 9, 9, 9, 9, 9, 9, 11, 15, 15, 11, 14])).display.toMv = 100000100 := by
  decide +kernel

/-- Seven nines, in volts. -/
def sevenNines : List Keypad.Event := Keypad.keys [16, 9, 9, 9, 9, 9, 9, 9, 14]

theorem sevenNines_overflow :
    (Run.exec Keypad.step (Keypad.start fun _ => 0) sevenNines).display.toMv = 9999999000 ∧
    (sprintf 9999999000).length + 1 = 15 ∧ (sscanf (sprintf 9999999000)).1 = 9999999000 ∧
    ¬ Run.Always Keypad.step (fun d => TextFits d.display) (Keypad.start fun _ => 0)
      sevenNines := by
  have hvalue : (Run.exec Keypad.step (Keypad.start fun _ => 0) sevenNines).display.toMv =
      9999999000 := by decide +kernel
  refine ⟨hvalue, by decide +kernel, by decide +kernel, fun hall => ?_⟩
  have hsmall := (textFits_iff _).1 hall.exec
  rw [ShortValue, hvalue] at hsmall
  exact absurd hsmall (by norm_num)

/-! ## Microvolts -/

section Microvolts

variable {x : DialDisplay} {n : ℕ}

/-- The display shows the number `n` in microvolts, without a comma. -/
structure ShowsMicrovolts (x : DialDisplay) (n : ℕ) : Prop where
  unit : x.voltDecade = .uV
  shown : 1 ≤ x.digits
  digit : ∀ c ∈ x.entries, c ≤ 9
  number : x.number = n

theorem ShowsMicrovolts.no_comma (h : ShowsMicrovolts x n) :
    ∀ c ∈ x.entries, c ≠ KEYBOARD_COMMA := by
  intro c hc heq
  have hle := h.digit c hc
  rw [heq] at hle
  exact absurd hle (by decide)

theorem ShowsMicrovolts.toMv (h : ShowsMicrovolts x n) : x.toMv = n / 1000 := by
  have hsingle : Entry.Single ⟨x.entries, none⟩ := ⟨h.no_comma, fun f hf => absurd hf (by simp)⟩
  have hentries : x.entries = Entry.entries ⟨x.entries, none⟩ := rfl
  have hnumber := DialDisplay.number_eq hentries hsingle.whole
  rw [DialDisplay.toMv_eq hentries hsingle, if_neg (by simp), add_zero, ← hnumber, h.number, h.unit]
  rfl

theorem ShowsMicrovolts.decimalsAfterComma (h : ShowsMicrovolts x n) :
    x.decimalsAfterComma = -1 := by
  have hnone : (List.range x.digits).find? (fun i => x.dialEntries i = KEYBOARD_COMMA) = none := by
    rw [List.find?_eq_none]
    intro i hi hcomma
    have hmem : x.dialEntries i ∈ x.entries := List.mem_map.2 ⟨i, hi, rfl⟩
    exact h.no_comma _ hmem (by simpa using hcomma)
  rw [DialDisplay.decimalsAfterComma, hnone]

/-- The two numbers read back are the millivolts and what they leave. -/
theorem ShowsMicrovolts.values (h : ShowsMicrovolts x n) :
    numberValue x.toMv = (n / 1000 : ℕ) ∧ decimalValue x.toMv = (n % 1000 : ℕ) := by
  have hround : ⌊x.toMv * 1000 + 1 / 2⌋ = (n : ℤ) := by
    rw [h.toMv, Int.floor_eq_iff]
    constructor
    · push_cast
      linarith
    · push_cast
      linarith
  rw [numberValue, decimalValue, hround]
  exact ⟨by push_cast; rfl, by push_cast; rfl⟩

theorem ShowsMicrovolts.accepted_iff (h : ShowsMicrovolts x n) :
    validateAnyVoltage x x.toMv = .ok ↔ n ≤ 999999 ∧ 100 ≤ n % 1000 := by
  obtain ⟨hnumber, hdecimal⟩ := h.values
  have hshown : ¬ x.digits < 1 := not_lt.2 h.shown
  have hcomma : ¬ (-1 : ℤ) = 0 := by decide
  have hdecimals : ¬ (-1 : ℤ) > 0 := by decide
  simp only [validateAnyVoltage, validateDigits, if_neg hshown, h.decimalsAfterComma, h.unit,
    hnumber, hdecimal, if_neg hcomma, if_neg hdecimals]
  by_cases hhigh : ((n / 1000 : ℕ) : ℤ) > 999
  · -- a volt or more
    rw [if_pos hhigh]
    exact iff_of_false (by decide) fun hok => absurd hok.1 (by omega)
  · by_cases hlow : ((n % 1000 : ℕ) : ℤ) < 100
    · -- "Lower limit is 100uV" looks at what is behind the point, whatever is in front of it
      rw [if_neg hhigh, if_pos hlow]
      exact iff_of_false (by decide) fun hok => absurd hok.2 (by omega)
    · rw [if_neg hhigh, if_neg hlow]
      exact iff_of_true rfl ⟨by omega, by omega⟩

/-- A source voltage or a voltage limit of `n` microvolts is accepted as its messages say, exactly when
`n` is out of their bounds or leaves 100 or more when it is divided by 1000. -/
theorem microvolts_iff {d : DialClass} {set_or_limit : SetOrLimit}
    (hkind : d.vol_cur_type = .SOURCE_VOLTAGE ∧ set_or_limit = .SET ∨
      d.vol_cur_type = .SOURCE_CURRENT ∧ set_or_limit = .LIMIT) (h : ShowsMicrovolts x n) :
    (d.validate set_or_limit x x.toMv = .ok ↔ 100 ≤ n ∧ n ≤ 999999) ↔
      n < 100 ∨ 999999 < n ∨ 100 ≤ n % 1000 := by
  have hvalidate : d.validate set_or_limit x x.toMv = validateAnyVoltage x x.toMv := by
    unfold DialClass.validate
    rcases hkind with ⟨htype, hset⟩ | ⟨htype, hset⟩
    · rw [htype, hset]
      rfl
    · rw [htype, hset]
      rfl
  rw [hvalidate, h.accepted_iff]
  omega

end Microvolts

/-- The display after a whole number of microvolts has been entered. -/
def microvolts (digits : List ℕ) : DialDisplay where
  dialEntries i := digits.getD i 0
  digits := digits.length
  voltDecade := .uV

theorem microvolts_iff_limit :
    (DialClass.validate { vol_cur_type := .SOURCE_CURRENT } .LIMIT (microvolts [2, 5, 0])
      (microvolts [2, 5, 0]).toMv = .ok ↔ 100 ≤ 250 ∧ 250 ≤ 999999) ↔
      250 < 100 ∨ 999999 < 250 ∨ 100 ≤ 250 % 1000 :=
  microvolts_iff (x := microvolts [2, 5, 0]) (Or.inr ⟨rfl, rfl⟩)
    ⟨rfl, by decide, by decide, by decide +kernel⟩

/-- 1050 microvolts are refused: 50 is below 100. -/
theorem microvolts_1050_refused :
    (microvolts [1, 0, 5, 0]).number = 1050 ∧
    DialClass.validate {} .SET (microvolts [1, 0, 5, 0]) (microvolts [1, 0, 5, 0]).toMv = .error ∧
    ¬ (DialClass.validate {} .SET (microvolts [1, 0, 5, 0]) (microvolts [1, 0, 5, 0]).toMv = .ok ↔
      100 ≤ 1050 ∧ 1050 ≤ 999999) := by
  have hrefused : DialClass.validate {} .SET (microvolts [1, 0, 5, 0])
      (microvolts [1, 0, 5, 0]).toMv = .error := by decide +kernel
  refine ⟨by decide +kernel, hrefused, ?_⟩
  rw [hrefused]
  decide

end DialValidation
end PoorMansSmu
