import Mathlib.Data.List.Basic

/-!
# Framing — messages one behind the other without separators

A reader takes one message off the front of a stream and goes on with the rest.  Messages that can
be taken off whatever follows them can be read back from a stream that holds nothing else.

- `SelfDelimiting` : a message can be taken off the front;
- `readAll`        : all messages of a stream, `none` when a part of it is no message;
- `readAll_encode` : a stream of messages is read back.

Nothing here mentions a particular program.
-/

namespace PoorMansSmu
namespace Framing

variable {α μ : Type*} (read : List α → Option (μ × List α)) (encode : μ → List α)

/-- The reader takes the message off the front, whatever follows. -/
structure SelfDelimiting (m : μ) : Prop where
  nonempty : encode m ≠ []
  read : ∀ rest, read (encode m ++ rest) = some (m, rest)

/-- `fuel` bounds the number of messages. -/
def readFrom : (fuel : ℕ) → List α → Option (List μ)
  | _, [] => some []
  | 0, _ :: _ => none
  | fuel + 1, a :: stream =>
      (read (a :: stream)).bind fun r => (readFrom fuel r.2).map fun ms => r.1 :: ms

def readAll (stream : List α) : Option (List μ) := readFrom read stream.length stream

variable {read encode}

theorem readFrom_encode {ms : List μ} (h : ∀ m ∈ ms, SelfDelimiting read encode m) {fuel : ℕ}
    (hfuel : (ms.flatMap encode).length ≤ fuel) :
    readFrom read fuel (ms.flatMap encode) = some ms := by
  induction ms generalizing fuel with
  | nil =>
      rw [List.flatMap_nil, readFrom]
  | cons m ms ih =>
      have hm := h m List.mem_cons_self
      have hrest := fun m' hm' => h m' (List.mem_cons_of_mem m hm')
      obtain ⟨a, tail, hencode⟩ := List.exists_cons_of_ne_nil hm.nonempty
      have hread := hm.read (ms.flatMap encode)
      rw [List.flatMap_cons, hencode, List.cons_append] at hfuel ⊢
      rw [hencode, List.cons_append] at hread
      rw [List.length_cons, List.length_append] at hfuel
      obtain ⟨fuel, rfl⟩ : ∃ n, fuel = n + 1 := ⟨fuel - 1, by omega⟩
      rw [readFrom, hread, Option.bind_some, ih hrest (by omega), Option.map_some]

/-- A stream of messages is read back. -/
theorem readAll_encode {ms : List μ} (h : ∀ m ∈ ms, SelfDelimiting read encode m) :
    readAll read (ms.flatMap encode) = some ms := readFrom_encode h (Nat.le_refl _)

end Framing
end PoorMansSmu
