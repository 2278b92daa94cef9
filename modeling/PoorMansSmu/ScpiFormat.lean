import PoorMansSmu.ScpiDispatch
import PoorMansSmu.ScpiHandlers

/-!
# ScpiFormat — messages as a client writes them

A request names a command, in any spelling of its path, and may give a number.  `Request.text` is the
message for it, and `execute_text` reads it back: the handler of the command is called with that
number.
-/

namespace PoorMansSmu
namespace Scpi

open SCPI_Parser

/-! ## Numbers -/

/-- A number in decimal digits. -/
def decimal (n : ℤ) : CString :=
  if n < 0 then '-' :: Nat.toDigits 10 n.natAbs else Nat.toDigits 10 n.natAbs

theorem digitsValue_eq (digits : CString) :
    digitsValue digits = (Nat.ofDigitChars 10 digits 0 : ℕ) := by
  have hfold (n : ℕ) : digits.foldl (fun (n : ℤ) c => 10 * n + (c.toNat - '0'.toNat : ℕ)) n =
      (Nat.ofDigitChars 10 digits n : ℕ) := by
    induction digits generalizing n with
    | nil => rfl
    | cons c digits ih =>
        rw [List.foldl_cons, Nat.ofDigitChars_cons, ← ih]
        push_cast
        rfl
  exact hfold 0

theorem isDigit_toDigits {n : ℕ} {c : Char} (h : c ∈ Nat.toDigits 10 n) : c.isDigit = true :=
  Nat.isDigit_of_mem_toDigits (by decide) le_rfl h

theorem digitsValue_toDigits (n : ℕ) :
    digitsValue ((Nat.toDigits 10 n).takeWhile Char.isDigit) = n := by
  have hall : (Nat.toDigits 10 n).takeWhile Char.isDigit = Nat.toDigits 10 n :=
    List.takeWhile_eq_self_iff.2 fun _ hc => isDigit_toDigits hc
  rw [hall, digitsValue_eq, Nat.ofDigitChars_toDigits (by decide) le_rfl]

/-- A character that is a digit or a minus sign: none that ends a parameter or a message. -/
def InNumber (c : Char) : Prop := c.isDigit = true ∨ c = '-'

theorem InNumber.ne {c : Char} (h : InNumber c) {d : Char} (hd : d.isDigit = false)
    (hminus : d ≠ '-') : c ≠ d := by
  rintro rfl
  rcases h with h | h
  · rw [hd] at h
    cases h
  · exact hminus h

theorem inNumber_decimal {n : ℤ} {c : Char} (h : c ∈ decimal n) : InNumber c := by
  unfold decimal at h
  split_ifs at h
  · rcases List.mem_cons.1 h with rfl | h
    · exact Or.inr rfl
    · exact Or.inl (isDigit_toDigits h)
  · exact Or.inl (isDigit_toDigits h)

theorem decimal_ne_nil (n : ℤ) : decimal n ≠ [] := by
  unfold decimal
  split_ifs
  · exact List.cons_ne_nil _ _
  · exact Nat.toDigits_ne_nil

theorem isspace_of_inNumber {c : Char} (h : InNumber c) : isspace c = false := by
  have hne (d : Char) (hd : d.isDigit = false) (hminus : d ≠ '-') : decide (c = d) = false :=
    decide_eq_false (h.ne hd hminus)
  unfold isspace
  rw [hne ' ' rfl (by decide), hne '\t' rfl (by decide), hne '\n' rfl (by decide),
    hne '\x0b' rfl (by decide), hne '\x0c' rfl (by decide), hne '\r' rfl (by decide)]
  rfl

theorem dropWhile_isspace {s : CString} (h : ∀ c ∈ s, isspace c = false) :
    s.dropWhile isspace = s := by
  cases s with
  | nil => rfl
  | cons c s => rw [List.dropWhile_cons_of_neg (by simp [h c List.mem_cons_self])]

/-- A number of 32 bits is read as it was written. -/
theorem toInt_decimal {n : ℤ} (hlow : -2147483648 ≤ n) (hhigh : n ≤ 2147483647) :
    toInt (decimal n) = n := by
  have hclamp : max (-2147483648) (min n 2147483647) = n := by omega
  rw [toInt, dropWhile_isspace fun c hc => isspace_of_inNumber (inNumber_decimal hc)]
  unfold decimal
  split_ifs with hneg
  · change max _ (min (-digitsValue ((Nat.toDigits 10 n.natAbs).takeWhile Char.isDigit)) _) = n
    rw [digitsValue_toDigits]
    omega
  · cases hdigits : Nat.toDigits 10 n.natAbs with
    | nil => exact absurd hdigits Nat.toDigits_ne_nil
    | cons c digits =>
        have hvalue := digitsValue_toDigits n.natAbs
        have hdigit : c.isDigit = true := isDigit_toDigits (hdigits ▸ List.mem_cons_self)
        rw [hdigits] at hvalue
        -- a digit is no sign
        split
        · rename_i hsign
          rw [(List.cons.inj hsign).1] at hdigit
          cases hdigit
        · rename_i hsign
          rw [(List.cons.inj hsign).1] at hdigit
          cases hdigit
        · rw [hvalue]
          omega

/-! ## Requests -/

/-- An empty keyword spells nothing. -/
theorem not_spells_empty (c : Caller) : ¬ List.Forall₂ Spells c.keywords [[]] := by
  intro h
  have hlength := h.length_eq
  cases c with
  | Identify =>
      rcases (List.forall₂_cons.1 h).1 with hlong | hshort
      · exact absurd hlong (by decide)
      · exact absurd hshort (by decide)
  | _ => cases hlength

/-- A message that spells a command calls its handler. -/
theorem executeMessage_of_matches {message : CString} {c : Caller}
    (h : MatchesCommand message c) : scpi_setup.executeMessage message = some c := by
  rcases reads_or_unknown (headers (commands message)) with ⟨js, hreads⟩ | hunknown
  · have hempty : headers (commands message) ≠ [[]] := by
      intro hheaders
      have hspells := h.2
      rw [← commands_eq_path h, hheaders] at hspells
      exact not_spells_empty c hspells
    rw [executeMessage_of_reads hreads, routed, findCaller_eq]
    rcases (matchesCommand_iff hreads hempty c).1 h with
      ⟨rfl, rfl, hquery⟩ | ⟨e, he, rfl, hquery, before, -, rfl⟩
    · rw [hquery]
      decide
    · -- the last two keywords decide
      rw [tokenCode_ending before (hreads.lt _ (by simp)) (hreads.lt _ (by simp))]
      exact routed_of_ending he (by rw [hquery])
  · exact absurd h (not_matches_of_unknown hunknown c)

instance (keyword header : CString) : Decidable (Spells keyword header) :=
  inferInstanceAs (Decidable (_ ∨ _))

instance (message : CString) (c : Caller) : Decidable (MatchesCommand message c) :=
  inferInstanceAs (Decidable (_ ∧ _))

structure Request where
  caller : Caller
  /-- The path of the command. -/
  header : CString
  parameter : Option ℤ := none
  spells : MatchesCommand header caller
  plain : ∀ c ∈ header, isspace c = false ∧ c ≠ ';'
  fits : ∀ n ∈ parameter, -2147483648 ≤ n ∧ n ≤ 2147483647

namespace Request

/-- The parameter behind a space. -/
def tail : Option ℤ → CString
  | none => []
  | some n => ' ' :: decimal n

def text (r : Request) : CString := r.header ++ tail r.parameter

theorem header_ne_nil (r : Request) : r.header ≠ [] := by
  intro h
  have hlength := r.spells.2.length_eq
  have hnone : (headers (path r.header)).length = 0 := by rw [h]; rfl
  rw [hnone] at hlength
  revert hlength
  cases r.caller <;> decide

theorem tail_cases (parameter : Option ℤ) :
    tail parameter = [] ∨ ∃ rest, tail parameter = ' ' :: rest := by
  cases parameter with
  | none => exact Or.inl rfl
  | some n => exact Or.inr ⟨decimal n, rfl⟩

theorem dropWhile_text (r : Request) : r.text.dropWhile isspace = r.text := by
  obtain ⟨c, rest, hheader⟩ := List.exists_cons_of_ne_nil r.header_ne_nil
  have hc := (r.plain c (hheader ▸ List.mem_cons_self)).1
  rw [text, hheader, List.cons_append, List.dropWhile_cons_of_neg (by simp [hc])]

/-- No character of the path ends it. -/
theorem header_all (r : Request) :
    ∀ c ∈ r.header, (decide (c ≠ ' ') && decide (c ≠ '\t')) = true := by
  intro c hc
  have hplain := (r.plain c hc).1
  rw [Bool.and_eq_true, decide_eq_true_iff, decide_eq_true_iff]
  constructor
  · rintro rfl
    cases hplain
  · rintro rfl
    cases hplain

theorem commandPart_text (r : Request) : commandPart r.text = r.header := by
  rw [commandPart, dropWhile_text, text, List.takeWhile_append_of_pos r.header_all]
  rcases tail_cases r.parameter with h | ⟨rest, h⟩
  · rw [h, List.takeWhile_nil, List.append_nil]
  · rw [h, List.takeWhile_cons_of_neg (by decide), List.append_nil]

theorem commandPart_header (r : Request) : commandPart r.header = r.header := by
  have hspaces : r.header.dropWhile isspace = r.header :=
    dropWhile_isspace fun c hc => (r.plain c hc).1
  rw [commandPart, hspaces]
  exact List.takeWhile_eq_self_iff.2 r.header_all

theorem notProcessed_text (r : Request) :
    notProcessed r.text = (r.parameter.map decimal).getD [] := by
  rw [notProcessed, dropWhile_text, text, List.dropWhile_append_of_pos r.header_all]
  cases r.parameter with
  | none => rfl
  | some n => rfl

theorem executeMessage_text (r : Request) :
    scpi_setup.executeMessage r.text = some r.caller := by
  have hcommands : commands r.text = commands r.header := by
    rw [commands, commandPart_text, commands, commandPart_header]
  rw [← executeMessage_of_matches r.spells, executeMessage, executeMessage, hcommands]

theorem strtok_decimal (n : ℤ) : strtok (decimal n) ',' = [decimal n] := by
  have hcomma : ',' ∉ decimal n := fun h => (inNumber_decimal h).ne rfl (by decide) rfl
  rw [strtok, List.splitOn_eq_singleton hcomma, List.filter_cons_of_pos, List.filter_nil]
  rw [Bool.not_eq_true', List.isEmpty_eq_false_iff]
  exact decimal_ne_nil n

theorem firstParameter_text (r : Request) : firstParameter r.text = r.parameter := by
  rw [firstParameter, parameters, notProcessed_text]
  cases hparameter : r.parameter with
  | none => rfl
  | some n =>
      obtain ⟨hlow, hhigh⟩ := r.fits n hparameter
      have hspaces : (decimal n).dropWhile isspace = decimal n :=
        dropWhile_isspace fun c hc => isspace_of_inNumber (inNumber_decimal hc)
      rw [Option.map_some, Option.getD_some, strtok_decimal, List.map_singleton, hspaces]
      exact congrArg some (toInt_decimal hlow hhigh)

/-- The handler of the command is called with the number. -/
theorem execute_text (r : Request) (x : Readings) (i : Instrument) :
    execute x i r.text =
      ((handle x i r.parameter r.caller).1, some (handle x i r.parameter r.caller).2) := by
  rw [execute, executeMessage_text, firstParameter_text]

theorem mem_text (r : Request) {c : Char} (h : c ∈ r.text) :
    c ∈ r.header ∨ c = ' ' ∨ InNumber c := by
  rcases List.mem_append.1 h with h | h
  · exact Or.inl h
  · cases hparameter : r.parameter with
    | none =>
        rw [hparameter] at h
        cases h
    | some n =>
        rw [hparameter] at h
        rcases List.mem_cons.1 h with h | h
        · exact Or.inr (Or.inl h)
        · exact Or.inr (Or.inr (inNumber_decimal h))

/-- A line with a request is one message. -/
theorem splitOn_text (r : Request) : r.text.splitOn ';' = [r.text] := by
  refine List.splitOn_eq_singleton fun h => ?_
  rcases r.mem_text h with h | h | h
  · exact (r.plain _ h).2 rfl
  · cases h
  · exact h.ne rfl (by decide) rfl

theorem newline_not_mem_text (r : Request) : '\n' ∉ r.text := by
  intro h
  rcases r.mem_text h with h | h | h
  · have hplain := (r.plain _ h).1
    cases hplain
  · cases h
  · exact h.ne rfl (by decide) rfl

end Request

end Scpi
end PoorMansSmu
