import PoorMansSmu.Lib.TextBuffer
import PoorMansSmu.Network

/-!
# NetworkLine — one line of a client on its way through the buffers

`processClientData` collects a line in an array of its own, copies it to `Network2Class::buffer` and
from there to a third array, which is handed to `my_instrument.Execute`.  All three have 100 bytes.
The first two are filled without a look at their length, and the last copy is cut at 30 bytes, without
an end mark when there are so many.

The writes stay inside and a line of at most 98 bytes arrives complete, exactly for lines of less than
30 bytes without a character 0, and for those of 99 bytes, of which nothing more is asked
(`handled_iff`).
-/

namespace PoorMansSmu
namespace NetworkLine

open Scpi TextBuffer

/-! ## The function on the arrays -/

/-- `buffer` and `cpBuf` are local, and `buffer2` is `Network2Class::buffer`. -/
inductive Buffer
  | buffer
  | buffer2
  | cpBuf
  deriving DecidableEq, Repr

/-- The size of each of the arrays. -/
def bufferLength : ℕ := 100

/-- What is in the arrays, and the places written to, the last one first.  Places behind the end of an
array are kept apart from all others here. -/
structure Memory where
  cell : Buffer → ℕ → Char
  writes : List (Buffer × ℕ) := []

namespace Memory

def store (m : Memory) (b : Buffer) (i : ℕ) (c : Char) : Memory :=
  { cell := Function.update m.cell b (Function.update (m.cell b) i c)
    writes := (b, i) :: m.writes }

/-- `strncpy` writes `n` bytes whatever it copies. -/
def strncpy (m : Memory) (dest source : Buffer) (n : ℕ) : Memory :=
  { cell := Function.update m.cell dest (copy '\x00' n (m.cell source) (m.cell dest))
    writes := (List.range n).map (dest, ·) ++ m.writes }

end Memory

/-- The loop of `processClientData`; if it finds the end of a line, with `bufferSize` and the bytes
that are left. -/
def receive (m : Memory) (bufferSize : ℕ) : (available : CString) → Memory × Option (ℕ × CString)
  | [] => (m, none)
  | c :: rest =>
      let m := m.store .buffer bufferSize c
      let bufferSize := bufferSize + 1
      if c = '\n' then (m, some (bufferSize, rest)) else receive m bufferSize rest

/-- `processClientData` from the bytes available to the string that `Execute` is called with.  It is
not called when no line is complete, and finds no end if there is none in the array. -/
def processClientData (m : Memory) (available : CString) : Memory × Option (Option CString) :=
  match receive m 0 available with
  | (m, none) => (m, none)
  | (m, some (bufferSize, _)) =>
      let m := m.strncpy .buffer2 .buffer bufferSize
      let m := m.store .buffer2 (bufferSize - 1) '\x00'
      let m := m.store .buffer (bufferSize - 1) '\x00'
      let m := m.strncpy .cpBuf .buffer2 30
      (m, some (read '\x00' bufferLength (m.cell .cpBuf)))

/-- Whatever the arrays hold and whatever follows the line, no byte is written outside, and a line of
at most 98 bytes reaches `Execute` complete and with an end. -/
def Handled (line : CString) : Prop :=
  ∀ cell rest,
    (∀ w ∈ (processClientData { cell } (line ++ '\n' :: rest)).1.writes, w.2 < bufferLength) ∧
      (line.length ≤ 98 →
        (processClientData { cell } (line ++ '\n' :: rest)).2 = some (some line))

/-! ## Collecting the line -/

@[simp] theorem store_same (m : Memory) (b : Buffer) (i : ℕ) (c : Char) :
    (m.store b i c).cell b = Function.update (m.cell b) i c :=
  Function.update_self ..

theorem store_other (m : Memory) {b b' : Buffer} (h : b' ≠ b) (i : ℕ) (c : Char) :
    (m.store b i c).cell b' = m.cell b' :=
  Function.update_of_ne h _ _

@[simp] theorem strncpy_same (m : Memory) (dest source : Buffer) (n : ℕ) :
    (m.strncpy dest source n).cell dest = copy '\x00' n (m.cell source) (m.cell dest) :=
  Function.update_self ..

theorem strncpy_other (m : Memory) {dest b : Buffer} (h : b ≠ dest) (source : Buffer) (n : ℕ) :
    (m.strncpy dest source n).cell b = m.cell b :=
  Function.update_of_ne h _ _

/-- From place `k` on the line has been put into `buffer`, with the line feed behind it. -/
structure Received (m : Memory) (k : ℕ) (line : CString) (m' : Memory) : Prop where
  char : ∀ i (hi : i < line.length), m'.cell .buffer (k + i) = line.get ⟨i, hi⟩
  before : ∀ i < k, m'.cell .buffer i = m.cell .buffer i
  others : ∀ b ≠ Buffer.buffer, m'.cell b = m.cell b
  writes : ∀ w, w ∈ m'.writes ↔
    w ∈ m.writes ∨ w.1 = .buffer ∧ k ≤ w.2 ∧ w.2 ≤ k + line.length

/-- The line feed ends the line. -/
theorem received_nil (m : Memory) (k : ℕ) : Received m k [] (m.store .buffer k '\n') := by
  constructor
  case char =>
    intro i hi
    exact absurd hi (Nat.not_lt_zero i)
  case before =>
    intro i hi
    rw [store_same, Function.update_of_ne (by omega)]
  case others =>
    intro b hb
    exact store_other m hb k '\n'
  case writes =>
    rintro ⟨b, i⟩
    simp only [Memory.store, List.mem_cons, Prod.mk.injEq, List.length_nil]
    constructor
    · rintro (⟨rfl, rfl⟩ | hold)
      · exact Or.inr ⟨rfl, le_rfl, le_rfl⟩
      · exact Or.inl hold
    · rintro (hold | ⟨rfl, hlow, hhigh⟩)
      · exact Or.inr hold
      · exact Or.inl ⟨rfl, by omega⟩

/-- A character goes to place `k`, and the rest of the line behind it. -/
theorem Received.cons {m m' : Memory} {k : ℕ} {c : Char} {line : CString}
    (h : Received (m.store .buffer k c) (k + 1) line m') : Received m k (c :: line) m' := by
  constructor
  case char =>
    intro i hi
    cases i with
    | zero =>
        -- nothing that comes later goes to place `k`
        rw [Nat.add_zero, h.before k (Nat.lt_succ_self k), store_same, Function.update_self]
        rfl
    | succ i =>
        have hat := h.char i (Nat.lt_of_succ_lt_succ hi)
        rw [Nat.add_right_comm] at hat
        exact hat
  case before =>
    intro i hi
    rw [h.before i (by omega), store_same, Function.update_of_ne (by omega)]
  case others =>
    intro b hb
    rw [h.others b hb, store_other m hb]
  case writes =>
    rintro ⟨b, i⟩
    rw [h.writes]
    simp only [Memory.store, List.mem_cons, Prod.mk.injEq, List.length_cons]
    constructor
    · rintro ((⟨rfl, rfl⟩ | hold) | ⟨hb, hlow, hhigh⟩)
      · exact Or.inr ⟨rfl, by omega, by omega⟩
      · exact Or.inl hold
      · exact Or.inr ⟨hb, by omega, by omega⟩
    · rintro (hold | ⟨rfl, hlow, hhigh⟩)
      · exact Or.inl (Or.inr hold)
      · rcases Nat.eq_or_lt_of_le hlow with heq | hlt
        · exact Or.inl (Or.inl ⟨rfl, heq.symm⟩)
        · exact Or.inr ⟨rfl, by omega, by omega⟩

theorem receive_line (m : Memory) (k : ℕ) {line : CString} (hline : '\n' ∉ line) (rest : CString) :
    ∃ m', receive m k (line ++ '\n' :: rest) = (m', some (k + line.length + 1, rest)) ∧
      Received m k line m' := by
  induction line generalizing m k with
  | nil => exact ⟨m.store .buffer k '\n', by simp [receive], received_nil m k⟩
  | cons c line ih =>
      obtain ⟨hc, hrest⟩ := not_or.1 (fun hor => hline (List.mem_cons.2 hor))
      obtain ⟨m', hreceive, hreceived⟩ := ih (m.store .buffer k c) (k + 1) hrest
      have hne : c ≠ '\n' := fun heq => hc heq.symm
      refine ⟨m', ?_, hreceived.cons⟩
      rw [List.cons_append, receive, if_neg hne, hreceive, List.length_cons]
      congr 3
      omega

/-! ## The copies -/

/-- A line is a string up to its first character 0. -/
theorem line_split (line : CString) :
    ∃ rest, line = (line.takeWhile fun c => c ≠ '\x00') ++ rest ∧
      '\x00' ∉ (line.takeWhile fun c => c ≠ '\x00') ∧ (rest = [] ∨ ∃ tail, rest = '\x00' :: tail) := by
  refine ⟨line.dropWhile fun c => c ≠ '\x00', List.takeWhile_append_dropWhile.symm, ?_, ?_⟩
  · intro hmem
    have hne := List.mem_takeWhile_imp hmem
    simp at hne
  · cases hrest : line.dropWhile fun c => c ≠ '\x00' with
    | nil => exact Or.inl rfl
    | cons c tail =>
        have hhead := List.head_dropWhile_not (fun c => decide (c ≠ '\x00')) (l := line)
          (by rw [hrest]; exact List.cons_ne_nil _ _)
        simp only [hrest, List.head_cons] at hhead
        have hc : c = '\x00' := by simpa using hhead
        exact Or.inr ⟨tail, by rw [hc]⟩

section Copies

variable {cell : Buffer → ℕ → Char} {line : CString} {m : Memory}

/-- What `Network2Class::buffer` holds when the line feed has been overwritten. -/
theorem Received.buffer2 (h : Received { cell } 0 line m) :
    Holds '\x00' (((m.strncpy .buffer2 .buffer (line.length + 1)).store .buffer2 line.length
      '\x00').cell .buffer2) (line.takeWhile fun c => c ≠ '\x00') := by
  obtain ⟨rest, hsplit, hnot, hend⟩ := line_split line
  set text := line.takeWhile fun c => c ≠ '\x00' with htext
  have hlength : line.length = text.length + rest.length := by
    rw [← List.length_append, ← hsplit]
  have hchar : ∀ i (hi : i < text.length), m.cell .buffer i = text[i] := by
    intro i hi
    have hat := h.char i (by omega)
    rw [Nat.zero_add] at hat
    rw [hat]
    exact (List.getElem_of_eq hsplit _).trans (List.getElem_append_left hi)
  have hfirst : ∀ i ≤ text.length, ¬ ∃ j < i, m.cell .buffer j = '\x00' := by
    rintro i hi ⟨j, hj, hzero⟩
    rw [hchar j (by omega)] at hzero
    exact hnot (hzero ▸ List.getElem_mem _)
  rw [store_same, strncpy_same]
  refine ⟨?_, hnot, ?_⟩
  · intro i hi
    rw [Function.update_of_ne (by omega), copy, if_pos (by omega), if_neg (hfirst i hi.le),
      hchar i hi]
  · rcases hend with rfl | ⟨tail, rfl⟩
    · -- the end of the line is the end of the string
      rw [List.length_nil, Nat.add_zero] at hlength
      rw [← hlength, Function.update_self]
    · rw [List.length_cons] at hlength
      have hlast : text.length < line.length := by omega
      have hat := h.char text.length hlast
      have hmark : line.get ⟨text.length, hlast⟩ = '\x00' := by
        rw [List.get_eq_getElem, List.getElem_of_eq hsplit, List.getElem_append_right le_rfl]
        simp
      rw [Nat.zero_add, hmark] at hat
      rw [Function.update_of_ne (by omega), copy, if_pos (by omega),
        if_neg (hfirst text.length le_rfl), hat]

/-- What `processClientData` does with a line: where it writes, and what `Execute` gets to read. -/
theorem processClientData_line (cell : Buffer → ℕ → Char) (hline : '\n' ∉ line) (rest : CString) :
    (∀ w, w ∈ (processClientData { cell } (line ++ '\n' :: rest)).1.writes ↔
      w.1 ≠ .cpBuf ∧ w.2 ≤ line.length ∨ w.1 = .cpBuf ∧ w.2 < 30) ∧
    ∃ buffer2, Holds '\x00' buffer2 (line.takeWhile fun c => c ≠ '\x00') ∧
      (processClientData { cell } (line ++ '\n' :: rest)).2 =
        some (read '\x00' bufferLength (copy '\x00' 30 buffer2 (cell .cpBuf))) := by
  obtain ⟨m, hreceive, hreceived⟩ := receive_line { cell } 0 hline rest
  rw [Nat.zero_add] at hreceive
  simp only [processClientData, hreceive, Nat.add_sub_cancel]
  refine ⟨?_, _, hreceived.buffer2, ?_⟩
  · rintro ⟨b, i⟩
    have hwrites := hreceived.writes (b, i)
    simp only [Memory.strncpy, Memory.store, List.mem_append, List.mem_cons, List.mem_map,
      List.mem_range, Prod.mk.injEq, hwrites, List.not_mem_nil, Nat.zero_le, Nat.zero_add]
    cases b <;> simp <;> omega
  · have hlocal : Buffer.cpBuf ≠ .buffer := by decide
    have hlocal' : Buffer.cpBuf ≠ .buffer2 := by decide
    have hmember : Buffer.buffer2 ≠ .buffer := by decide
    have hkept : ((m.strncpy .buffer2 .buffer (line.length + 1)).store .buffer2 line.length
        '\x00').cell .cpBuf = cell .cpBuf := by
      rw [store_other _ hlocal', strncpy_other _ hlocal', hreceived.others _ hlocal]
    rw [strncpy_same, store_other _ hmember, store_other _ hlocal, hkept]

/-- A short line reaches `Execute` up to its first character 0. -/
theorem executed_of_short (cell : Buffer → ℕ → Char) (hline : '\n' ∉ line) (rest : CString)
    (hshort : (line.takeWhile fun c => c ≠ '\x00').length < 30) :
    (processClientData { cell } (line ++ '\n' :: rest)).2 =
      some (some (line.takeWhile fun c => c ≠ '\x00')) := by
  obtain ⟨-, buffer2, hholds, hexecuted⟩ := processClientData_line cell hline rest
  have hread : read '\x00' bufferLength (copy '\x00' 30 buffer2 (cell .cpBuf)) =
      some (line.takeWhile fun c => c ≠ '\x00') :=
    read_eq_some_iff.2 ⟨Nat.lt_trans hshort (by decide), hholds.copy hshort⟩
  rw [hexecuted, hread]

/-- Of a longer one there is no end, when there was none in the array before. -/
theorem executed_of_long {cell : Buffer → ℕ → Char} (hline : '\n' ∉ line) (rest : CString)
    (hlong : 30 ≤ (line.takeWhile fun c => c ≠ '\x00').length)
    (hcell : ∀ i, cell .cpBuf i ≠ '\x00') :
    (processClientData { cell } (line ++ '\n' :: rest)).2 = some none := by
  obtain ⟨-, buffer2, hholds, hexecuted⟩ := processClientData_line cell hline rest
  rw [hexecuted]
  cases hread : read '\x00' bufferLength (copy '\x00' 30 buffer2 (cell .cpBuf)) with
  | none => rfl
  | some s =>
      have hend := (read_eq_some_iff.1 hread).2.atEnd
      rcases Nat.lt_or_ge s.length 30 with hlt | hge
      · exact absurd hend (hholds.copy_char hlong hlt)
      · rw [copy_of_le hge] at hend
        exact absurd hend (hcell s.length)

/-- The string that the model of the network executes is the one found in the array. -/
theorem executed_commandText (cell : Buffer → ℕ → Char) (hline : '\n' ∉ line) (rest text : CString)
    (h : Network.commandText line = some text) :
    (processClientData { cell } (line ++ '\n' :: rest)).2 = some (some text) := by
  unfold Network.commandText at h
  simp only at h
  split_ifs at h with hshort
  · rw [executed_of_short cell hline rest hshort, Option.some.inj h]

end Copies

/-! ## Which lines are handled -/

/-- The writes stay inside the arrays up to 99 bytes. -/
theorem writes_inside_iff {line : CString} (hline : '\n' ∉ line) :
    (∀ cell rest, ∀ w ∈ (processClientData { cell } (line ++ '\n' :: rest)).1.writes,
      w.2 < bufferLength) ↔ line.length ≤ 99 := by
  constructor
  · intro h
    have hlocal : Buffer.buffer ≠ .cpBuf := by decide
    have hlast := h (fun _ _ => 'x') [] (.buffer, line.length)
      (((processClientData_line _ hline []).1 _).2 (Or.inl ⟨hlocal, le_rfl⟩))
    exact Nat.lt_succ_iff.1 hlast
  · intro hle cell rest w hw
    rw [bufferLength]
    rcases ((processClientData_line cell hline rest).1 w).1 hw with ⟨-, hin⟩ | ⟨-, hin⟩
    · omega
    · omega

/-- A line reaches `Execute` complete, whatever was in the arrays, if it has less than 30 bytes and no
character 0. -/
theorem complete_iff {line : CString} (hline : '\n' ∉ line) :
    (∀ cell rest,
      (processClientData { cell } (line ++ '\n' :: rest)).2 = some (some line)) ↔
      line.length < 30 ∧ '\x00' ∉ line := by
  constructor
  · intro h
    have hall := h (fun _ _ => 'x') []
    have hx : ∀ _i : ℕ, 'x' ≠ '\x00' := fun _ => by decide
    rcases Nat.lt_or_ge (line.takeWhile fun c => c ≠ '\x00').length 30 with hshort | hlong
    · rw [executed_of_short _ hline [] hshort] at hall
      have hself := Option.some.inj (Option.some.inj hall)
      have hzero : '\x00' ∉ line := by
        intro hmem
        rw [← hself] at hmem
        simpa using List.mem_takeWhile_imp hmem
      rw [hself] at hshort
      exact ⟨hshort, hzero⟩
    · rw [executed_of_long hline [] hlong hx] at hall
      exact absurd hall (by simp)
  · rintro ⟨hshort, hzero⟩ cell rest
    have hself := Network.takeWhile_eq_self hzero
    rw [executed_of_short cell hline rest (by rwa [hself]), hself]

/-- Exactly the lines of less than 30 bytes without a character 0 are handled, and those of 99 bytes,
which fit into the arrays and need not be complete. -/
theorem handled_iff {line : CString} (hline : '\n' ∉ line) :
    Handled line ↔ line.length < 30 ∧ '\x00' ∉ line ∨ line.length = 99 := by
  have hinside := writes_inside_iff hline
  have hcomplete := complete_iff hline
  constructor
  · intro h
    have hle := hinside.1 fun cell rest => (h cell rest).1
    rcases Nat.lt_or_ge line.length 99 with hlt | hge
    · exact Or.inl (hcomplete.1 fun cell rest => (h cell rest).2 (by omega))
    · exact Or.inr (by omega)
  · rintro (hshort | hlength)
    · intro cell rest
      exact ⟨hinside.2 (by omega) cell rest, fun _ => hcomplete.2 hshort cell rest⟩
    · intro cell rest
      exact ⟨hinside.2 (by omega) cell rest, fun hle => absurd hle (by omega)⟩

theorem handled_iff_identification : Handled "*IDN?".toList := by
  have hline : '\n' ∉ "*IDN?".toList := by decide
  exact (handled_iff hline).2 (Or.inl (by decide))

/-- A line of 40 bytes has no end in the copy, and one of 150 bytes is written behind `buffer`. -/
theorem long_lines_not_handled :
    ¬ Handled (List.replicate 40 'A') ∧
    (processClientData ⟨fun _ _ => 'x', []⟩ (List.replicate 40 'A' ++ ['\n'])).2 = some none ∧
    ¬ Handled (List.replicate 150 'A') ∧
    (Buffer.buffer, 149) ∈
      (processClientData ⟨fun _ _ => 'x', []⟩ (List.replicate 150 'A' ++ ['\n'])).1.writes := by
  have hnone : (processClientData ⟨fun _ _ => 'x', []⟩ (List.replicate 40 'A' ++ ['\n'])).2 =
      some none := by decide +kernel
  have hwrite : (Buffer.buffer, 149) ∈
      (processClientData ⟨fun _ _ => 'x', []⟩ (List.replicate 150 'A' ++ ['\n'])).1.writes := by
    decide +kernel
  refine ⟨fun h => ?_, hnone, fun h => ?_, hwrite⟩
  · have hcomplete := (h (fun _ _ => 'x') []).2 (by decide)
    rw [hnone] at hcomplete
    exact absurd hcomplete (by simp)
  · have hinside := (h (fun _ _ => 'x') []).1 _ hwrite
    exact absurd hinside (by decide)

end NetworkLine
end PoorMansSmu
