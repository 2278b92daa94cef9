import Mathlib.Data.List.Basic
import Mathlib.Data.Nat.Bitwise

/-!
# Wire — numbers and check bytes in messages of bytes

A register goes over a serial line with its most significant byte first, and a message may end with
a byte that lets the receiver check it.  This file defines

- `toBytes size v`       : the last `size` bytes of a number, most significant first,
- `fromBytes bytes`      : the number they stand for,
- `digest next init msg` : what a running check, one byte at a time, comes to over a message,

and shows that numbers survive the way there and back, and that a message with its own digest behind
it brings the check back to its start.  Nothing here mentions a particular program.
-/

namespace PoorMansSmu
namespace Wire

abbrev Byte := BitVec 8

/-! ## Numbers -/

def toBytes : (size v : ℕ) → List Byte
  | 0, _ => []
  | size + 1, v => toBytes size (v / 256) ++ [BitVec.ofNat 8 v]

def fromBytes (bytes : List Byte) : ℕ :=
  bytes.foldl (fun v b => v * 256 + b.toNat) 0

@[simp] theorem length_toBytes (size v : ℕ) : (toBytes size v).length = size := by
  induction size generalizing v with
  | zero => rfl
  | succ size ih =>
      rw [toBytes, List.length_append, ih, List.length_singleton]

theorem fromBytes_concat (bytes : List Byte) (b : Byte) :
    fromBytes (bytes ++ [b]) = fromBytes bytes * 256 + b.toNat := by
  rw [fromBytes, List.foldl_append]
  rfl

/-- The way there and back cuts a number to its last bytes. -/
theorem fromBytes_toBytes (size v : ℕ) : fromBytes (toBytes size v) = v % 256 ^ size := by
  induction size generalizing v with
  | zero => exact (Nat.mod_one v).symm
  | succ size ih =>
      calc
        fromBytes (toBytes (size + 1) v)
            = v / 256 % 256 ^ size * 256 + v % 256 := by
              rw [toBytes, fromBytes_concat, ih, BitVec.toNat_ofNat]
        _ = v % 256 ^ (size + 1) := by
              -- the last byte is the remainder, what stands before it the quotient
              rw [Nat.pow_succ', Nat.mod_mul]
              omega

/-! ## Check bytes -/

section Digest

variable {β : Type*} (next : β → β → β) (init : β)

/-- The state of a running check after a message. -/
def digest (msg : List β) : β := msg.foldl next init

/-- When a byte equal to the state brings the check back to its start, so does a message with its
own digest behind it. -/
theorem digest_concat_self (h : ∀ b, next b b = init) (msg : List β) :
    digest next init (msg ++ [digest next init msg]) = init := by
  rw [digest, List.foldl_append]
  exact h (digest next init msg)

end Digest

end Wire
end PoorMansSmu
