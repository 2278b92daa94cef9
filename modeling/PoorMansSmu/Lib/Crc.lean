import Mathlib.Data.List.GetD
import Mathlib.Tactic.ByContra

/-!
# Crc — which errors a cyclic check finds

A shift register of `w` bits takes a message bit by bit and keeps the remainder of the message by a
polynomial, whose lower coefficients are `p`.  The register is linear, so an error in a message is
found exactly when the bits that are wrong leave a remainder of their own.

- `remainder`          : the register after a message;
- `remainder_xor`      : the register is linear;
- `remainder_burst`    : wrong bits within `w` places of one another are found;
- `remainder_odd`      : an odd number of wrong bits is found when the polynomial is even;
- `remainder_two`      : two wrong bits are found unless they are a period apart;
- `remainder_few`      : one, two or three wrong bits are found in messages that are short enough.

Nothing here mentions a particular program.
-/

namespace PoorMansSmu
namespace Crc

variable {w : ℕ} (p : BitVec w)

/-- The register takes one more bit. -/
def feed (crc : BitVec w) (bit : Bool) : BitVec w :=
  if crc.msb != bit then crc <<< 1 ^^^ p else crc <<< 1

def remainder (crc : BitVec w) (bits : List Bool) : BitVec w := bits.foldl (feed p) crc

@[simp] theorem remainder_nil (crc : BitVec w) : remainder p crc [] = crc := rfl

@[simp] theorem remainder_cons (crc : BitVec w) (bit : Bool) (bits : List Bool) :
    remainder p crc (bit :: bits) = remainder p (feed p crc bit) bits := rfl

theorem remainder_append (crc : BitVec w) (bits bits' : List Bool) :
    remainder p crc (bits ++ bits') = remainder p (remainder p crc bits) bits' :=
  List.foldl_append

/-! ## The register is linear -/

theorem feed_xor (a b : BitVec w) (x y : Bool) :
    feed p (a ^^^ b) (x ^^ y) = feed p a x ^^^ feed p b y := by
  -- the polynomial is added on the left when it is added an odd number of times on the right
  have htaps : ((a.msb ^^ b.msb) != (x ^^ y)) = ((a.msb != x) != (b.msb != y)) := by
    cases a.msb <;> cases b.msb <;> cases x <;> cases y <;> rfl
  unfold feed
  rw [BitVec.msb_xor, BitVec.shiftLeft_xor_distrib, htaps]
  cases a.msb != x <;> cases b.msb != y
  · rfl
  · exact BitVec.xor_assoc _ _ _
  · change a <<< 1 ^^^ b <<< 1 ^^^ p = a <<< 1 ^^^ p ^^^ b <<< 1
    rw [BitVec.xor_assoc, BitVec.xor_comm (b <<< 1), ← BitVec.xor_assoc]
  · change a <<< 1 ^^^ b <<< 1 = a <<< 1 ^^^ p ^^^ (b <<< 1 ^^^ p)
    rw [BitVec.xor_comm (b <<< 1), BitVec.xor_assoc, ← BitVec.xor_assoc p, BitVec.xor_self,
      BitVec.zero_xor]

/-- The register after a message with errors. -/
theorem remainder_xor (a b : BitVec w) {xs ys : List Bool} (h : xs.length = ys.length) :
    remainder p (a ^^^ b) (List.zipWith Bool.xor xs ys) =
      remainder p a xs ^^^ remainder p b ys := by
  induction xs generalizing a b ys with
  | nil =>
      obtain rfl := List.length_eq_zero_iff.1 h.symm
      rfl
  | cons x xs ih =>
      obtain ⟨y, ys, rfl⟩ := List.exists_cons_of_length_eq_add_one h.symm
      rw [List.zipWith_cons_cons, remainder_cons, feed_xor]
      exact ih _ _ (Nat.succ.inj h)

theorem feed_zero : feed p 0 false = 0 := by
  simp [feed]

/-- Nothing happens before the first wrong bit. -/
theorem remainder_zeros (n : ℕ) : remainder p 0 (List.replicate n false) = 0 := by
  induction n with
  | zero => rfl
  | succ n ih => rw [List.replicate_succ, remainder_cons, feed_zero, ih]

/-! ## Bursts -/

section Burst

variable {p}

/-- A register that ends up empty holds the last bits of the message: when the polynomial has a
constant term, a bit that differs from the first bit of the register leaves its trace. -/
theorem getMsbD_of_remainder (hp : p.getLsbD 0 = true) {crc : BitVec w} {bits : List Bool}
    (hlength : bits.length ≤ w) (h : remainder p crc bits = 0) {i : ℕ} (hi : i < w) :
    crc.getMsbD i = bits.getD i false := by
  induction bits generalizing crc i with
  | nil =>
      rw [remainder_nil] at h
      simp [h]
  | cons bit bits ih =>
      rw [List.length_cons] at hlength
      have hnext {i : ℕ} (hi : i < w) := ih (by omega) h hi
      -- the last bit of the register says whether the polynomial was added
      have hsame : (crc.msb != bit) = false := by
        by_contra hne
        have hlast := hnext (i := w - 1) (by omega)
        rw [Bool.not_eq_false] at hne
        have hodd : (crc <<< 1 ^^^ p).getMsbD (w - 1) = true := by
          rw [BitVec.getMsbD_xor, BitVec.getMsbD_shiftLeft, BitVec.getMsbD_eq_getLsbD p,
            Nat.sub_self, hp, BitVec.getMsbD_of_ge _ _ (by omega)]
          simp
          omega
        rw [feed, if_pos hne, hodd, List.getD_eq_default _ _ (by omega)] at hlast
        cases hlast
      have hshift : feed p crc bit = crc <<< 1 := by rw [feed, hsame, if_neg Bool.false_ne_true]
      cases i with
      | zero =>
          rw [bne_eq_false_iff_eq] at hsame
          rw [List.getD_cons_zero, ← hsame]
          rfl
      | succ i =>
          have hrest := hnext (i := i) (by omega)
          rw [hshift, BitVec.getMsbD_shiftLeft] at hrest
          rw [List.getD_cons_succ, hrest]

theorem getMsbD_zero (i : ℕ) : (0 : BitVec w).getMsbD i = false := BitVec.getMsbD_zero

/-- Bits that bring the register from empty to empty again are all right. -/
theorem eq_false_of_remainder (hp : p.getLsbD 0 = true) {bits : List Bool}
    (hlength : bits.length ≤ w) (h : remainder p 0 bits = 0) : ∀ bit ∈ bits, bit = false := by
  intro bit hbit
  obtain ⟨i, hi, rfl⟩ := List.getElem_of_mem hbit
  have hzero := getMsbD_of_remainder hp hlength h (i := i) (by omega)
  rw [List.getD_eq_getElem _ _ hi, getMsbD_zero] at hzero
  exact hzero.symm

/-- A register that holds something holds something after more right bits. -/
theorem remainder_right_bits (hp : p.getLsbD 0 = true) {crc : BitVec w} (n : ℕ)
    (h : remainder p crc (List.replicate n false) = 0) : crc = 0 := by
  induction n generalizing crc with
  | zero => exact h
  | succ n ih =>
      rw [List.replicate_succ, remainder_cons] at h
      have hfeed : remainder p crc [false] = 0 := ih h
      have hw : [false].length ≤ w := by
        by_contra hnone
        rw [List.length_singleton] at hnone
        rw [BitVec.getLsbD_of_ge _ _ (by omega)] at hp
        cases hp
      refine BitVec.eq_of_getMsbD_eq fun i hi => ?_
      have hbit : crc.getMsbD i = [false].getD i false := getMsbD_of_remainder hp hw hfeed hi
      rw [hbit, getMsbD_zero]
      cases i <;> rfl

/-- A burst of wrong bits leaves a remainder. -/
theorem remainder_burst (hp : p.getLsbD 0 = true) {before after : ℕ} {burst : List Bool}
    (hlength : burst.length ≤ w) (hwrong : true ∈ burst) :
    remainder p 0 (List.replicate before false ++ (burst ++ List.replicate after false)) ≠ 0 := by
  intro h
  rw [remainder_append, remainder_zeros, remainder_append] at h
  exact absurd (eq_false_of_remainder hp hlength (remainder_right_bits hp after h) true hwrong)
    (by decide)

end Burst

/-! ## Odd numbers of wrong bits -/

/-- A parity of the register that follows the bits, as there is when the polynomial is a multiple of
`x + 1`. -/
structure Parity (p : BitVec w) where
  parity : BitVec w → Bool
  zero : parity 0 = false
  feed : ∀ crc bit, parity (Crc.feed p crc bit) = (parity crc ^^ bit)

theorem Parity.remainder {p : BitVec w} (h : Parity p) (crc : BitVec w) (bits : List Bool) :
    h.parity (Crc.remainder p crc bits) = (h.parity crc ^^ decide (bits.count true % 2 = 1)) := by
  induction bits generalizing crc with
  | nil => simp
  | cons bit bits ih =>
      rw [remainder_cons, ih, h.feed]
      cases bit with
      | false => simp
      | true =>
          have hflip :
              decide ((bits.count true + 1) % 2 = 1) = !decide (bits.count true % 2 = 1) := by
            rw [← decide_not, decide_eq_decide]
            omega
          rw [List.count_cons_self, hflip]
          simp

theorem remainder_odd {p : BitVec w} (h : Parity p) {bits : List Bool}
    (hodd : bits.count true % 2 = 1) : remainder p 0 bits ≠ 0 := by
  intro hzero
  have hparity := h.remainder 0 bits
  rw [hzero, h.zero, hodd] at hparity
  cases hparity

/-! ## Two wrong bits -/

section Two

variable {p}

/-- No shift of a single bit by `n` places or less comes to a single bit again. -/
def Aperiodic (p : BitVec w) (n : ℕ) : Prop :=
  ∀ d < n, remainder p 0 (true :: (List.replicate d false ++ [true])) ≠ 0

theorem remainder_two (hp : p.getLsbD 0 = true) {n : ℕ} (haperiodic : Aperiodic p n)
    {before between after : ℕ} (hbetween : between < n) :
    remainder p 0 (List.replicate before false ++
      true :: (List.replicate between false ++ true :: List.replicate after false)) ≠ 0 := by
  intro h
  have hsplit : true :: (List.replicate between false ++ true :: List.replicate after false) =
      (true :: (List.replicate between false ++ [true])) ++ List.replicate after false := by simp
  rw [remainder_append, remainder_zeros, hsplit, remainder_append] at h
  exact haperiodic between hbetween (remainder_right_bits hp after h)

theorem eq_replicate_of_count {bits : List Bool} (h : bits.count true = 0) :
    bits = List.replicate bits.length false := by
  refine List.eq_replicate_iff.2 ⟨rfl, fun bit hbit => ?_⟩
  cases bit with
  | false => rfl
  | true => exact absurd hbit (List.count_eq_zero.1 h)

/-- The first wrong bit. -/
theorem exists_first {bits : List Bool} {n : ℕ} (h : bits.count true = n + 1) :
    ∃ k rest, bits = List.replicate k false ++ true :: rest ∧ rest.count true = n := by
  induction bits with
  | nil => cases h
  | cons bit bits ih =>
      cases bit with
      | true =>
          rw [List.count_cons_self] at h
          exact ⟨0, bits, rfl, Nat.succ.inj h⟩
      | false =>
          rw [List.count_cons_of_ne (by decide)] at h
          obtain ⟨k, rest, rfl, hrest⟩ := ih h
          exact ⟨k + 1, rest, rfl, hrest⟩

/-- Up to three wrong bits are found. -/
theorem remainder_few (hp : p.getLsbD 0 = true) (hparity : Parity p) {n : ℕ}
    (haperiodic : Aperiodic p n) {bits : List Bool} (hlength : bits.length ≤ n)
    (hwrong : 0 < bits.count true) (hfew : bits.count true ≤ 3) : remainder p 0 bits ≠ 0 := by
  by_cases hodd : bits.count true % 2 = 1
  · exact remainder_odd hparity hodd
  · -- the only even number is two
    have htwo : bits.count true = 1 + 1 := by omega
    obtain ⟨before, rest, rfl, hrest⟩ := exists_first htwo
    obtain ⟨between, rest', rfl, hrest'⟩ := exists_first hrest
    rw [eq_replicate_of_count hrest']
    refine remainder_two hp haperiodic ?_
    simp only [List.length_append, List.length_cons, List.length_replicate] at hlength
    omega

end Two

end Crc
end PoorMansSmu
