import PoorMansSmu.DisplayLink
import PoorMansSmu.Lib.Framing
import PoorMansSmu.Lib.BitFields

/-!
# GdCommands — the commands of the display and how the coprocessor reads them

The driver writes a command as a sequence of words, half words and bytes.  The coprocessor takes
them off the stream in words: a word that starts with `ffffff` is a command, which says what follows
it, and every other word is an entry of the display list.

- `Command.calls`  : what the driver writes for a command;
- `Command.items`  : what it means by it;
- `readItem`       : how the coprocessor takes an item off the stream;
- `means_calls`     : a command is written as its items;
- `drawn_as_written` : the coprocessor takes a program of commands off as what it means;
- `vertex_shows_iff` : which vertices are drawn where they are asked for.
-/

namespace PoorMansSmu
namespace GdCommands

open Wire Run GdTransport GDTransport

/-! ## The driver -/

def cI (v : ℕ) : List Call := [.cmd32 v]

def cH (v : ℕ) : List Call := [.cmdbyte (lowByte v), .cmdbyte (lowByte (v >>> 8))]

def ch (v : BitVec 16) : List Call := cH v.toNat

/-- Four bytes seen as a word. -/
def union32 (b0 b1 b2 b3 : ℕ) : ℕ :=
  (lowByte b0).toNat + (lowByte b1).toNat * 256 + (lowByte b2).toNat * 65536 +
    (lowByte b3).toNat * 16777216

def cFFFFFF (v : ℕ) : List Call := [.cmd32 (union32 v 0xff 0xff 0xff)]

def align (n : ℕ) : List Call :=
  if n % 4 = 0 then [] else .cmdbyte 0 :: align (n + 1)
termination_by (4 - n % 4) % 4

/-- The characters of a string before the zero that ends it. -/
structure CString where
  chars : List Byte
  nonzero : ∀ c ∈ chars, c ≠ 0

def cs (s : CString) : List Call :=
  s.chars.map Call.cmdbyte ++ .cmdbyte 0 :: align (s.chars.length + 1)

/-! ### Entries of the display list -/

def Begin (prim : Byte) : List Call := cI (31 <<< 24 ||| prim.toNat)

def Clear : List Call := cI (38 <<< 24 ||| 7)

def ColorA (alpha : Byte) : List Call := cI (16 <<< 24 ||| (alpha.toNat &&& 255))

def ColorRGB (rgb : BitVec 32) : List Call := cI (4 <<< 24 ||| (rgb.toNat &&& 0xffffff))

/-- `ColorRGB` of three colours. -/
def ColorRGB3 (red green blue : Byte) : List Call := cI (union32 blue.toNat green.toNat red.toNat 4)

def Display : List Call := cI (0 <<< 24)

def LineWidth (width : BitVec 16) : List Call := cI (14 <<< 24 ||| (width.toNat &&& 4095))

def PointSize (size : BitVec 16) : List Call := cI (13 <<< 24 ||| (size.toNat &&& 8191))

def ScissorSize (ft8xx_model : ℕ) (width height : BitVec 16) : List Call :=
  if ft8xx_model = 0 then
    cI (28 <<< 24 ||| (width.toNat &&& 1023) <<< 10 ||| (height.toNat &&& 1023))
  else cI (28 <<< 24 ||| (width.toNat &&& 4095) <<< 12 ||| (height.toNat &&& 4095))

def ScissorXY (ft8xx_model : ℕ) (x y : BitVec 16) : List Call :=
  if ft8xx_model = 0 then cI (27 <<< 24 ||| (x.toNat &&& 511) <<< 9 ||| (y.toNat &&& 511))
  else cI (27 <<< 24 ||| (x.toNat &&& 2047) <<< 11 ||| (y.toNat &&& 2047))

def Tag (s : Byte) : List Call := cI (3 <<< 24 ||| (s.toNat &&& 255))

def VertexTranslateX (x : BitVec 32) : List Call := cI (43 <<< 24 ||| (x.toNat &&& 131071))

/-- Coordinates beyond the nine bits of a vertex are reached by a shift. -/
def above512pixelMagic (x : BitVec 16) : List Call × BitVec 16 :=
  if x.toInt < 0 then (VertexTranslateX (BitVec.ofInt 32 (x.toInt * 16)), 0)
  else if x.toInt ≥ 512 then
    (VertexTranslateX (BitVec.ofInt 32 (512 * 16)), BitVec.ofInt 16 (x.toInt - 512))
  else (VertexTranslateX 0, x)

/-- The word of a vertex, put together from bytes. -/
def vertexWord (x y : BitVec 16) (handle cell : Byte) : ℕ :=
  union32 ((cell.toNat &&& 127) ||| (handle.toNat &&& 1) <<< 7)
    (handle.toNat >>> 1 ||| y.toNat <<< 4) (y.toNat >>> 4 ||| x.toNat <<< 5)
    (2 <<< 6 ||| x.toNat >>> 3)

def Vertex2ii (x y : BitVec 16) (handle cell : Byte) : List Call :=
  (above512pixelMagic x).1 ++ cI (vertexWord (above512pixelMagic x).2 y handle cell)

/-! ### Commands -/

def cmd_button (x y w h : BitVec 16) (font : Byte) (options : BitVec 16) (s : CString) :
    List Call :=
  (above512pixelMagic x).1 ++ cFFFFFF 0x0d ++ ch (above512pixelMagic x).2 ++ ch y ++ ch w ++ ch h ++
    ch (font.setWidth 16) ++ cH options.toNat ++ cs s

def cmd_dlstart : List Call := cFFFFFF 0x00

def cmd_fgcolor (c : BitVec 32) : List Call := cFFFFFF 0x0a ++ cI c.toNat

def cmd_loadidentity : List Call := cFFFFFF 0x26

def cmd_number (x y : BitVec 16) (font : Byte) (options : BitVec 16) (n : BitVec 32) : List Call :=
  (above512pixelMagic x).1 ++ cFFFFFF 0x2e ++ ch (above512pixelMagic x).2 ++ ch y ++
    ch (font.setWidth 16) ++ cH options.toNat ++ cI n.toNat

def cmd_romfont (font romslot : BitVec 32) : List Call :=
  cFFFFFF 0x3f ++ cI font.toNat ++ cI romslot.toNat

def cmd_slider (x y w h options val range : BitVec 16) : List Call :=
  cFFFFFF 0x10 ++ ch x ++ ch y ++ ch w ++ ch h ++ cH options.toNat ++ cH val.toNat ++
    cH range.toNat ++ cH 0

def cmd_swap : List Call := cFFFFFF 0x01

def cmd_text (x y : BitVec 16) (font : Byte) (options : BitVec 16) (s : CString) : List Call :=
  (above512pixelMagic x).1 ++ cFFFFFF 0x0c ++ ch (above512pixelMagic x).2 ++ ch y ++
    ch (font.setWidth 16) ++ cH options.toNat ++ cs s

def cmd_toggle (x y w : BitVec 16) (font : Byte) (options state : BitVec 16) (s : CString) :
    List Call :=
  cFFFFFF 0x12 ++ ch x ++ ch y ++ ch w ++ ch (font.setWidth 16) ++ cH options.toNat ++
    cH state.toNat ++ cs s

def cmd_track (x y w h : BitVec 16) (tag : Byte) : List Call :=
  cFFFFFF 0x2c ++ ch x ++ ch y ++ ch w ++ ch h ++ ch (tag.setWidth 16) ++ ch 0

/-- The commands that the instrument draws its screens with. -/
inductive Command
  | Begin (prim : Byte)
  | Clear
  | ColorA (alpha : Byte)
  | ColorRGB (rgb : BitVec 32)
  | ColorRGB3 (red green blue : Byte)
  | Display
  | LineWidth (width : BitVec 16)
  | PointSize (size : BitVec 16)
  | ScissorSize (width height : BitVec 16)
  | ScissorXY (x y : BitVec 16)
  | Tag (s : Byte)
  | Vertex2ii (x y : BitVec 16)
  | cmd_button (x y w h : BitVec 16) (font : Byte) (options : BitVec 16) (s : CString)
  | cmd_dlstart
  | cmd_fgcolor (c : BitVec 32)
  | cmd_loadidentity
  | cmd_number (x y : BitVec 16) (font : Byte) (options : BitVec 16) (n : BitVec 32)
  | cmd_romfont (font romslot : BitVec 32)
  | cmd_slider (x y w h options val range : BitVec 16)
  | cmd_swap
  | cmd_text (x y : BitVec 16) (font : Byte) (options : BitVec 16) (s : CString)
  | cmd_toggle (x y w : BitVec 16) (font : Byte) (options state : BitVec 16) (s : CString)
  | cmd_track (x y w h : BitVec 16) (tag : Byte)

/-- What the driver writes. -/
def Command.calls (ft8xx_model : ℕ) : Command → List Call
  | .Begin prim => GdCommands.Begin prim
  | .Clear => GdCommands.Clear
  | .ColorA alpha => GdCommands.ColorA alpha
  | .ColorRGB rgb => GdCommands.ColorRGB rgb
  | .ColorRGB3 red green blue => GdCommands.ColorRGB3 red green blue
  | .Display => GdCommands.Display
  | .LineWidth width => GdCommands.LineWidth width
  | .PointSize size => GdCommands.PointSize size
  | .ScissorSize width height => GdCommands.ScissorSize ft8xx_model width height
  | .ScissorXY x y => GdCommands.ScissorXY ft8xx_model x y
  | .Tag s => GdCommands.Tag s
  | .Vertex2ii x y => GdCommands.Vertex2ii x y 0 0
  | .cmd_button x y w h font options s => GdCommands.cmd_button x y w h font options s
  | .cmd_dlstart => GdCommands.cmd_dlstart
  | .cmd_fgcolor c => GdCommands.cmd_fgcolor c
  | .cmd_loadidentity => GdCommands.cmd_loadidentity
  | .cmd_number x y font options n => GdCommands.cmd_number x y font options n
  | .cmd_romfont font romslot => GdCommands.cmd_romfont font romslot
  | .cmd_slider x y w h options val range => GdCommands.cmd_slider x y w h options val range
  | .cmd_swap => GdCommands.cmd_swap
  | .cmd_text x y font options s => GdCommands.cmd_text x y font options s
  | .cmd_toggle x y w font options state s => GdCommands.cmd_toggle x y w font options state s
  | .cmd_track x y w h tag => GdCommands.cmd_track x y w h tag

/-! ## The coprocessor -/

/-- What the coprocessor takes off the stream at a time. -/
inductive Item
  | entry (w : ℕ)
  | command (opcode : ℕ) (args : List ℕ) (text : List Byte)

/-- The sizes of the arguments of a command, and whether a text follows them. -/
structure Format where
  sizes : List ℕ
  text : Bool

def format : (opcode : ℕ) → Option Format
  | 0x00 | 0x01 | 0x26 => some ⟨[], false⟩
  | 0x0a => some ⟨[4], false⟩
  | 0x0c => some ⟨[2, 2, 2, 2], true⟩
  | 0x0d => some ⟨[2, 2, 2, 2, 2, 2], true⟩
  | 0x10 => some ⟨[2, 2, 2, 2, 2, 2, 2, 2], false⟩
  | 0x12 => some ⟨[2, 2, 2, 2, 2, 2], true⟩
  | 0x2c => some ⟨[2, 2, 2, 2, 2, 2], false⟩
  | 0x2e => some ⟨[2, 2, 2, 2, 4], false⟩
  | 0x3f => some ⟨[4, 4], false⟩
  | _ => none

/-- The number that bytes stand for, the lowest first. -/
def number : List Byte → ℕ
  | [] => 0
  | b :: bytes => b.toNat + number bytes * 256

def readArgs : (sizes : List ℕ) → List Byte → Option (List ℕ × List Byte)
  | [], stream => some ([], stream)
  | size :: sizes, stream =>
      if stream.length < size then none
      else (readArgs sizes (stream.drop size)).map fun r => (number (stream.take size) :: r.1, r.2)

/-- A text is filled up to a complete word. -/
def padded (n : ℕ) : ℕ := (n + 4) / 4 * 4

def readText (stream : List Byte) : Option (List Byte × List Byte) :=
  let text := stream.takeWhile (· ≠ 0)
  if stream.length < padded text.length then none else some (text, stream.drop (padded text.length))

def readItem (stream : List Byte) : Option (Item × List Byte) :=
  if stream.length < 4 then none
  else
    let w := number (stream.take 4)
    let stream := stream.drop 4
    if w / 256 = 0xffffff then
      (format (w % 256)).bind fun f =>
        (readArgs f.sizes stream).bind fun a =>
          if f.text then (readText a.2).map fun t => (.command (w % 256) a.1 t.1, t.2)
          else some (.command (w % 256) a.1 [], a.2)
    else some (.entry w, stream)

/-! ## Items in the stream -/

def encodeArg : (size v : ℕ) → List Byte
  | 0, _ => []
  | size + 1, v => lowByte v :: encodeArg size (v / 256)

def encodeArgs : (sizes args : List ℕ) → List Byte
  | size :: sizes, v :: args => encodeArg size v ++ encodeArgs sizes args
  | _, _ => []

def encodeText (text : List Byte) : List Byte :=
  text ++ List.replicate (padded text.length - text.length) 0

def Item.encode : Item → List Byte
  | .entry w => encodeArg 4 w
  | .command opcode args text =>
      encodeArg 4 (0xffffff00 + opcode) ++
        match format opcode with
        | some f => encodeArgs f.sizes args ++ if f.text then encodeText text else []
        | none => []

/-- The items that can be told from one another. -/
def Item.WellFormed : Item → Prop
  | .entry w => w < 0xffffff00
  | .command opcode args text =>
      opcode < 256 ∧ ∃ f, format opcode = some f ∧
        List.Forall₂ (fun size v => v < 256 ^ size) f.sizes args ∧
        (∀ c ∈ text, c ≠ 0) ∧ (f.text = false → text = [])

@[simp] theorem length_encodeArg (size v : ℕ) : (encodeArg size v).length = size := by
  induction size generalizing v with
  | zero => rfl
  | succ size ih => rw [encodeArg, List.length_cons, ih]

theorem number_encodeArg {size v : ℕ} (hv : v < 256 ^ size) : number (encodeArg size v) = v := by
  induction size generalizing v with
  | zero =>
      rw [pow_zero] at hv
      rw [encodeArg, number]
      omega
  | succ size ih =>
      rw [pow_succ] at hv
      rw [encodeArg, number, ih (Nat.div_lt_of_lt_mul (by omega)), lowByte, BitVec.toNat_ofNat]
      omega

theorem readArgs_encodeArgs {sizes args : List ℕ}
    (h : List.Forall₂ (fun size v => v < 256 ^ size) sizes args) (rest : List Byte) :
    readArgs sizes (encodeArgs sizes args ++ rest) = some (args, rest) := by
  induction h with
  | nil => rfl
  | @cons size v sizes args hv _ ih =>
      have hlength := length_encodeArg size v
      rw [readArgs, encodeArgs, List.append_assoc, if_neg (by rw [List.length_append]; omega),
        List.drop_left' hlength, List.take_left' hlength, ih, number_encodeArg hv, Option.map_some]

theorem length_encodeText (text : List Byte) : (encodeText text).length = padded text.length := by
  rw [encodeText, List.length_append, List.length_replicate]
  unfold padded
  omega

theorem readText_encodeText {text : List Byte} (h : ∀ c ∈ text, c ≠ 0) (rest : List Byte) :
    readText (encodeText text ++ rest) = some (text, rest) := by
  obtain ⟨n, hn⟩ : ∃ n, padded text.length - text.length = n + 1 :=
    ⟨padded text.length - text.length - 1, by unfold padded; omega⟩
  have hlength := length_encodeText text
  have hprefix : (encodeText text ++ rest).takeWhile (· ≠ 0) = text := by
    rw [encodeText, hn, List.replicate_succ, List.append_assoc, List.cons_append,
      List.takeWhile_append_of_pos (by simpa using h)]
    simp
  rw [readText, hprefix, if_neg (by rw [List.length_append]; omega), List.drop_left' hlength]

/-- The coprocessor takes a well-formed item off the stream, whatever follows. -/
theorem selfDelimiting {i : Item} (h : i.WellFormed) :
    Framing.SelfDelimiting readItem Item.encode i := by
  cases i with
  | entry w =>
      have hw : w < 0xffffff00 := h
      refine ⟨by rw [Item.encode, encodeArg]; exact List.cons_ne_nil _ _, fun rest => ?_⟩
      have hlength := length_encodeArg 4 w
      rw [Item.encode, readItem, if_neg (by rw [List.length_append]; omega)]
      simp only []
      rw [List.drop_left' hlength, List.take_left' hlength, number_encodeArg (by omega),
        if_neg (by omega)]
  | command opcode args text =>
      obtain ⟨hopcode, f, hformat, hargs, htext, hnone⟩ := h
      refine ⟨by rw [Item.encode, encodeArg]; exact List.cons_ne_nil _ _, fun rest => ?_⟩
      have hlength := length_encodeArg 4 (0xffffff00 + opcode)
      have hmod : (0xffffff00 + opcode) % 256 = opcode := by omega
      rw [Item.encode, hformat, List.append_assoc, readItem,
        if_neg (by rw [List.length_append]; omega)]
      simp only []
      rw [List.drop_left' hlength, List.take_left' hlength, number_encodeArg (by omega),
        if_pos (by omega), hmod, hformat, Option.bind_some, List.append_assoc,
        readArgs_encodeArgs hargs, Option.bind_some]
      by_cases hf : f.text = true
      · simp only [if_pos hf]
        rw [readText_encodeText htext, Option.map_some]
      · simp only [if_neg hf]
        rw [hnone (by simpa using hf), List.nil_append]

/-! ## What the driver writes -/

/-- What a call adds to the stream. -/
def written : Call → List Byte
  | .cmd32 x => bytes32 x
  | .cmdbyte x => [x]
  | .cmd_n s => s
  | _ => []

def bytes (cs : List Call) : List Byte := cs.flatMap written

theorem bytes_append (cs cs' : List Call) : bytes (cs ++ cs') = bytes cs ++ bytes cs' :=
  List.flatMap_append

theorem bytes_cI (v : ℕ) : bytes (cI v) = encodeArg 4 v := by
  rw [bytes, cI, List.flatMap_singleton, written, bytes32]
  simp only [encodeArg, Nat.shiftRight_eq_div_pow, Nat.div_div_eq_div_mul]

theorem bytes_cH (v : ℕ) : bytes (cH v) = encodeArg 2 v := by
  simp only [bytes, cH, encodeArg, List.flatMap_cons, List.flatMap_nil, written,
    Nat.shiftRight_eq_div_pow]
  rfl

theorem bytes_cFFFFFF {opcode : ℕ} (hopcode : opcode < 256) :
    bytes (cFFFFFF opcode) = encodeArg 4 (0xffffff00 + opcode) := by
  have hword : union32 opcode 0xff 0xff 0xff = 0xffffff00 + opcode := by
    have hlow : (lowByte opcode).toNat = opcode := by
      rw [lowByte, BitVec.toNat_ofNat, Nat.mod_eq_of_lt hopcode]
    have hff : (lowByte 0xff).toNat = 0xff := rfl
    rw [union32, hlow, hff]
    omega
  rw [← bytes_cI, cFFFFFF, hword]
  rfl

theorem bytes_align (n : ℕ) : bytes (align n) = List.replicate ((4 - n % 4) % 4) 0 := by
  fun_induction align n with
  | case1 n h => rw [h]; rfl
  | case2 n h ih =>
      have hcount : (4 - n % 4) % 4 = (4 - (n + 1) % 4) % 4 + 1 := by omega
      rw [hcount, List.replicate_succ, ← ih]
      rfl

theorem bytes_cs (s : CString) : bytes (cs s) = encodeText s.chars := by
  have hcount :
      padded s.chars.length - s.chars.length = (4 - (s.chars.length + 1) % 4) % 4 + 1 := by
    unfold padded
    omega
  have hchars : bytes (s.chars.map Call.cmdbyte) = s.chars := by
    rw [bytes, List.flatMap_map]
    exact List.flatMap_singleton' s.chars
  rw [cs, bytes_append, hchars, encodeText, hcount, List.replicate_succ, ← bytes_align]
  rfl

/-! ## What the driver means -/

/-- The words of the display list. -/
def entries (cs : List Call) : List Item :=
  cs.filterMap fun c =>
    match c with
    | .cmd32 w => some (.entry w)
    | _ => none

def Command.items (ft8xx_model : ℕ) : Command → List Item
  | .cmd_button x y w h font options s =>
      entries (above512pixelMagic x).1 ++
        [.command 0x0d [(above512pixelMagic x).2.toNat, y.toNat, w.toNat, h.toNat, font.toNat,
          options.toNat] s.chars]
  | .cmd_dlstart => [.command 0x00 [] []]
  | .cmd_fgcolor c => [.command 0x0a [c.toNat] []]
  | .cmd_loadidentity => [.command 0x26 [] []]
  | .cmd_number x y font options n =>
      entries (above512pixelMagic x).1 ++
        [.command 0x2e [(above512pixelMagic x).2.toNat, y.toNat, font.toNat, options.toNat,
          n.toNat] []]
  | .cmd_romfont font romslot => [.command 0x3f [font.toNat, romslot.toNat] []]
  | .cmd_slider x y w h options val range =>
      [.command 0x10 [x.toNat, y.toNat, w.toNat, h.toNat, options.toNat, val.toNat, range.toNat,
        0] []]
  | .cmd_swap => [.command 0x01 [] []]
  | .cmd_text x y font options s =>
      entries (above512pixelMagic x).1 ++
        [.command 0x0c [(above512pixelMagic x).2.toNat, y.toNat, font.toNat, options.toNat] s.chars]
  | .cmd_toggle x y w font options state s =>
      [.command 0x12 [x.toNat, y.toNat, w.toNat, font.toNat, options.toNat, state.toNat] s.chars]
  | .cmd_track x y w h tag =>
      [.command 0x2c [x.toNat, y.toNat, w.toNat, h.toNat, tag.toNat, 0] []]
  | c => entries (c.calls ft8xx_model)

/-- Calls that write nothing but entries of the display list. -/
def Draws (cs : List Call) : Prop := ∀ c ∈ cs, ∃ w < 0xffffff00, c = .cmd32 w

theorem Draws.append {cs cs' : List Call} (h : Draws cs) (h' : Draws cs') : Draws (cs ++ cs') :=
  List.forall_mem_append.2 ⟨h, h'⟩

/-- Calls that write items that can be told from one another. -/
structure Means (cs : List Call) (is : List Item) : Prop where
  bytes_eq : bytes cs = is.flatMap Item.encode
  wellFormed : ∀ i ∈ is, i.WellFormed

theorem Draws.means {cs : List Call} (h : Draws cs) : Means cs (entries cs) := by
  induction cs with
  | nil => exact ⟨rfl, by simp [entries]⟩
  | cons c cs ih =>
      obtain ⟨⟨w, hw, rfl⟩, hcs⟩ := List.forall_mem_cons.1 h
      have hhead : bytes [Call.cmd32 w] = (Item.entry w).encode := bytes_cI w
      constructor
      · rw [← List.singleton_append, bytes_append, hhead, (ih hcs).bytes_eq]
        rfl
      · exact List.forall_mem_cons.2 ⟨hw, (ih hcs).wellFormed⟩

theorem draws_cI {v : ℕ} (hv : v < 0xffffff00) : Draws (cI v) := by
  intro c hc
  exact ⟨v, hv, List.mem_singleton.1 hc⟩

/-- The first byte of an entry that is no vertex is small. -/
theorem draws_or {opcode v : ℕ} (hopcode : opcode < 128) (hv : v < 2 ^ 31) :
    Draws (cI (opcode <<< 24 ||| v)) := by
  have hhigh : opcode <<< 24 < 2 ^ 31 := by
    rw [Nat.shiftLeft_eq]
    omega
  have hword := Nat.or_lt_two_pow hhigh hv
  exact draws_cI (by omega)

theorem draws_mask {opcode mask : ℕ} (hopcode : opcode < 128) (hmask : mask < 2 ^ 31) (v : ℕ) :
    Draws (cI (opcode <<< 24 ||| (v &&& mask))) := draws_or hopcode (Nat.and_lt_two_pow v hmask)

theorem shifted_mask_lt {mask k : ℕ} (hmask : mask < 2 ^ 12) (hk : k ≤ 12) (v : ℕ) :
    (v &&& mask) <<< k < 2 ^ 31 := by
  calc
    (v &&& mask) <<< k = (v &&& mask) * 2 ^ k := Nat.shiftLeft_eq _ _
    _ ≤ 2 ^ 12 * 2 ^ 12 :=
          Nat.mul_le_mul (Nat.and_lt_two_pow v hmask).le (Nat.pow_le_pow_right (by decide) hk)
    _ < 2 ^ 31 := by decide

/-- Two numbers behind the opcode. -/
theorem draws_pair {opcode mask k mask' : ℕ} (hopcode : opcode < 128) (hmask : mask < 2 ^ 12)
    (hk : k ≤ 12) (hmask' : mask' < 2 ^ 31) (v v' : ℕ) :
    Draws (cI (opcode <<< 24 ||| (v &&& mask) <<< k ||| (v' &&& mask'))) := by
  rw [Nat.or_assoc]
  exact draws_or hopcode
    (Nat.or_lt_two_pow (shifted_mask_lt hmask hk v) (Nat.and_lt_two_pow v' hmask'))

theorem draws_ScissorSize (ft8xx_model : ℕ) (width height : BitVec 16) :
    Draws (ScissorSize ft8xx_model width height) := by
  unfold ScissorSize
  split_ifs <;> exact draws_pair (by decide) (by decide) (by decide) (by decide) _ _

theorem draws_ScissorXY (ft8xx_model : ℕ) (x y : BitVec 16) :
    Draws (ScissorXY ft8xx_model x y) := by
  unfold ScissorXY
  split_ifs <;> exact draws_pair (by decide) (by decide) (by decide) (by decide) _ _

theorem draws_VertexTranslateX (x : BitVec 32) : Draws (VertexTranslateX x) :=
  draws_mask (by decide) (by decide) _

theorem draws_above512pixelMagic (x : BitVec 16) : Draws (above512pixelMagic x).1 := by
  unfold above512pixelMagic
  split_ifs <;> exact draws_VertexTranslateX _

/-- A vertex is no command: with handle 0 its second byte ends in zeros. -/
theorem draws_Vertex2ii (x y : BitVec 16) : Draws (Vertex2ii x y 0 0) := by
  refine (draws_above512pixelMagic x).append (draws_cI ?_)
  have hsecond : (lowByte ((0 : Byte).toNat >>> 1 ||| y.toNat <<< 4)).toNat ≤ 240 := by
    have hzero : (0 : Byte).toNat >>> 1 = 0 := rfl
    rw [hzero, Nat.zero_or, lowByte, BitVec.toNat_ofNat, Nat.shiftLeft_eq]
    omega
  unfold vertexWord union32
  omega

/-! ## A command in the stream -/

theorem bytes_ch (v : BitVec 16) : bytes (ch v) = encodeArg 2 v.toNat := bytes_cH v.toNat

theorem toNat_setWidth (v : Byte) : (v.setWidth 16).toNat = v.toNat := by
  rw [BitVec.toNat_setWidth, Nat.mod_eq_of_lt (by omega)]

theorem half_lt (v : BitVec 16) : v.toNat < 256 ^ 2 := v.isLt

theorem byte_lt (v : Byte) : v.toNat < 256 ^ 2 := by omega

theorem word_lt (v : BitVec 32) : v.toNat < 256 ^ 4 := v.isLt

/-- A command behind entries of the display list. -/
theorem means_command {before body : List Call} {opcode : ℕ} {f : Format} {args : List ℕ}
    {text : List Byte} (hbefore : Draws before) (hformat : format opcode = some f)
    (hopcode : opcode < 256)
    (hbody : bytes body = encodeArgs f.sizes args ++ if f.text then encodeText text else [])
    (hargs : List.Forall₂ (fun size v => v < 256 ^ size) f.sizes args)
    (htext : ∀ c ∈ text, c ≠ 0) (hnone : f.text = false → text = []) :
    Means (before ++ (cFFFFFF opcode ++ body)) (entries before ++ [.command opcode args text]) := by
  obtain ⟨hbytes, hwell⟩ := hbefore.means
  constructor
  · rw [bytes_append, bytes_append, bytes_cFFFFFF hopcode, hbytes, hbody, List.flatMap_append,
      List.flatMap_singleton, Item.encode, hformat]
  · refine List.forall_mem_append.2 ⟨hwell, fun i hi => ?_⟩
    rw [List.mem_singleton.1 hi]
    exact ⟨hopcode, f, hformat, hargs, htext, hnone⟩

theorem draws_nil : Draws [] := by
  intro c hc
  exact absurd hc List.not_mem_nil

/-- A command without arguments. -/
theorem means_bare {opcode : ℕ} {f : Format} (hformat : format opcode = some f)
    (hopcode : opcode < 256) (hbare : f = ⟨[], false⟩) :
    Means (cFFFFFF opcode) [.command opcode [] []] := by
  subst hbare
  have hbody : bytes [] = encodeArgs [] [] ++ if false then encodeText [] else [] := rfl
  exact means_command draws_nil hformat hopcode hbody .nil (by simp) fun _ => rfl

/-- A command is written as what it means. -/
theorem means_calls (ft8xx_model : ℕ) (c : Command) :
    Means (c.calls ft8xx_model) (c.items ft8xx_model) := by
  have hmagic := draws_above512pixelMagic
  cases c with
  | Begin prim => exact (draws_or (by decide) (by omega)).means
  | Clear => exact (draws_or (by decide) (by decide)).means
  | ColorA alpha => exact (draws_mask (by decide) (by decide) _).means
  | ColorRGB rgb => exact (draws_mask (by decide) (by decide) _).means
  | ColorRGB3 red green blue =>
      have hfirst : (lowByte 4).toNat = 4 := rfl
      exact (draws_cI (by unfold union32; omega)).means
  | Display => exact (draws_cI (by decide)).means
  | LineWidth width => exact (draws_mask (by decide) (by decide) _).means
  | PointSize size => exact (draws_mask (by decide) (by decide) _).means
  | ScissorSize width height => exact (draws_ScissorSize ft8xx_model width height).means
  | ScissorXY x y => exact (draws_ScissorXY ft8xx_model x y).means
  | Tag s => exact (draws_mask (by decide) (by decide) _).means
  | Vertex2ii x y => exact (draws_Vertex2ii x y).means
  | cmd_button x y w h font options s =>
      simp only [Command.calls, cmd_button, List.append_assoc]
      refine means_command (hmagic x) rfl (by decide) ?_ ?_ s.nonzero (by simp)
      · simp only [bytes_append, bytes_ch, toNat_setWidth, bytes_cH, bytes_cs, encodeArgs,
          List.append_assoc, List.nil_append, if_true]
      · simp only [List.forall₂_cons, half_lt, byte_lt, List.Forall₂.nil, and_self]
  | cmd_dlstart =>
      exact means_bare rfl (by decide) rfl
  | cmd_fgcolor c =>
      refine means_command draws_nil rfl (by decide) ?_ (.cons (word_lt c) .nil) (by simp) (by simp)
      rw [bytes_cI]
      rfl
  | cmd_loadidentity =>
      exact means_bare rfl (by decide) rfl
  | cmd_number x y font options n =>
      simp only [Command.calls, cmd_number, List.append_assoc]
      refine means_command (hmagic x) rfl (by decide) ?_ ?_ (by simp) (by simp)
      · simp only [bytes_append, bytes_ch, toNat_setWidth, bytes_cH, bytes_cI, encodeArgs,
          List.append_assoc, List.nil_append]
        rfl
      · simp only [List.forall₂_cons, half_lt, byte_lt, word_lt, List.Forall₂.nil, and_self]
  | cmd_romfont font romslot =>
      simp only [Command.calls, cmd_romfont, List.append_assoc]
      refine means_command draws_nil rfl (by decide) ?_
        (.cons (word_lt font) (.cons (word_lt romslot) .nil)) (by simp) (by simp)
      rw [bytes_append, bytes_cI, bytes_cI]
      rfl
  | cmd_slider x y w h options val range =>
      simp only [Command.calls, cmd_slider, List.append_assoc]
      refine means_command draws_nil rfl (by decide) ?_ ?_ (by simp) (by simp)
      · simp only [bytes_append, bytes_ch, bytes_cH, encodeArgs, List.append_assoc, List.nil_append]
        rfl
      · simp only [List.forall₂_cons, half_lt, List.Forall₂.nil, and_true, true_and]
        decide
  | cmd_swap =>
      exact means_bare rfl (by decide) rfl
  | cmd_text x y font options s =>
      simp only [Command.calls, cmd_text, List.append_assoc]
      refine means_command (hmagic x) rfl (by decide) ?_ ?_ s.nonzero (by simp)
      · simp only [bytes_append, bytes_ch, toNat_setWidth, bytes_cH, bytes_cs, encodeArgs,
          List.append_assoc, List.nil_append, if_true]
      · simp only [List.forall₂_cons, half_lt, byte_lt, List.Forall₂.nil, and_self]
  | cmd_toggle x y w font options state s =>
      simp only [Command.calls, cmd_toggle, List.append_assoc]
      refine means_command draws_nil rfl (by decide) ?_ ?_ s.nonzero (by simp)
      · simp only [bytes_append, bytes_ch, toNat_setWidth, bytes_cH, bytes_cs, encodeArgs,
          List.append_assoc, List.nil_append, if_true]
      · simp only [List.forall₂_cons, half_lt, byte_lt, List.Forall₂.nil, and_self]
  | cmd_track x y w h tag =>
      simp only [Command.calls, cmd_track, List.append_assoc]
      refine means_command draws_nil rfl (by decide) ?_ ?_ (by simp) (by simp)
      · simp only [bytes_append, bytes_ch, toNat_setWidth, encodeArgs, List.append_assoc,
          List.nil_append]
        rfl
      · simp only [List.forall₂_cons, half_lt, byte_lt, List.Forall₂.nil, and_true, true_and]
        decide

/-! ### The calls of a command -/

def writes : Call → Bool
  | .cmd32 _ | .cmdbyte _ => true
  | _ => false

theorem step_writes {c : Call} (h : writes c = true) (d : GdTransport.Display) :
    d.step c = d.append (written c) := by
  cases c with
  | cmd32 | cmdbyte => rfl
  | _ => cases h

theorem all_align (n : ℕ) : (align n).all writes = true := by
  fun_induction align n with
  | case1 => rfl
  | case2 n h ih => rw [List.all_cons, ih]; rfl

theorem all_cs (s : CString) : (cs s).all writes = true := by
  rw [cs, List.all_append, List.all_map, List.all_cons, all_align]
  simp [writes]

theorem Draws.all {cs : List Call} (h : Draws cs) : cs.all writes = true := by
  rw [List.all_eq_true]
  intro c hc
  obtain ⟨w, -, rfl⟩ := h c hc
  rfl

theorem all_calls (ft8xx_model : ℕ) (c : Command) : (c.calls ft8xx_model).all writes = true := by
  have hmagic (x : BitVec 16) := (draws_above512pixelMagic x).all
  cases c with
  | ScissorSize width height => exact (draws_ScissorSize ft8xx_model width height).all
  | ScissorXY x y => exact (draws_ScissorXY ft8xx_model x y).all
  | Vertex2ii x y => exact (draws_Vertex2ii x y).all
  | cmd_button x y w h font options s =>
      simp only [Command.calls, cmd_button, List.all_append, hmagic, all_cs]
      rfl
  | cmd_number x y font options n =>
      simp only [Command.calls, cmd_number, List.all_append, hmagic]
      rfl
  | cmd_text x y font options s =>
      simp only [Command.calls, cmd_text, List.all_append, hmagic, all_cs]
      rfl
  | cmd_toggle x y w font options state s =>
      simp only [Command.calls, cmd_toggle, List.all_append, all_cs]
      rfl
  | _ => rfl

theorem exec_writes {cs : List Call} (h : cs.all writes = true) (d : GdTransport.Display) :
    exec Display.step d cs = d.append (bytes cs) := by
  induction cs generalizing d with
  | nil =>
      change d = { d with written := d.written ++ [] }
      rw [List.append_nil]
  | cons c cs ih =>
      rw [List.all_cons, Bool.and_eq_true] at h
      rw [exec_cons, step_writes h.1, ih h.2]
      change ({ d with written := d.written ++ written c ++ bytes cs } : GdTransport.Display) = _
      rw [List.append_assoc]
      rfl

theorem guarded_writes {ft8xx_model : ℕ} {cs : List Call} (h : cs.all writes = true)
    {d : GdTransport.Display} (hopened : d.opened = true) :
    Guarded Display.step (Display.Allowed ft8xx_model) d cs := by
  induction cs generalizing d with
  | nil => trivial
  | cons c cs ih =>
      rw [List.all_cons, Bool.and_eq_true] at h
      refine ⟨?_, ?_⟩
      · cases c with
        | cmd32 | cmdbyte => exact hopened
        | _ => cases h.1
      · rw [step_writes h.1]
        exact ih h.2 hopened

theorem fits_of_writes {cs : List Call} (h : cs.all writes = true) : ∀ c ∈ cs, c.Fits := by
  intro c hc
  have hwrites := List.all_eq_true.1 h c hc
  cases c with
  | cmd_n => cases hwrites
  | _ => trivial

/-! ### The words of an item -/

theorem length_encodeArgs {sizes args : List ℕ}
    (h : List.Forall₂ (fun size v => v < 256 ^ size) sizes args) :
    (encodeArgs sizes args).length = sizes.sum := by
  induction h with
  | nil => rfl
  | cons _ _ ih => rw [encodeArgs, List.length_append, length_encodeArg, ih, List.sum_cons]

theorem format_sizes {opcode : ℕ} {f : Format} (h : format opcode = some f) :
    f.sizes.sum % 4 = 0 := by
  unfold format at h
  split at h <;> cases h <;> rfl

theorem length_encode {i : Item} (h : i.WellFormed) : i.encode.length % 4 = 0 := by
  cases i with
  | entry w => rw [Item.encode, length_encodeArg]
  | command opcode args text =>
      obtain ⟨-, f, hformat, hargs, -, -⟩ := h
      have hsizes := format_sizes hformat
      rw [Item.encode, hformat, List.length_append, length_encodeArg]
      simp only [List.length_append, length_encodeArgs hargs]
      split_ifs
      · rw [length_encodeText]
        unfold padded
        omega
      · rw [List.length_nil]
        omega

theorem length_items {is : List Item} (h : ∀ i ∈ is, i.WellFormed) :
    (is.flatMap Item.encode).length % 4 = 0 := by
  induction is with
  | nil => rfl
  | cons i is ih =>
      obtain ⟨hi, his⟩ := List.forall_mem_cons.1 h
      have hhead := length_encode hi
      have htail := ih his
      rw [List.flatMap_cons, List.length_append]
      omega

/-! ## Programs -/

/-- What the instrument does with its display: commands, and accesses that write no command. -/
inductive Action
  | draw (c : Command)
  | quiet (c : Call) (h : written c = [])

namespace Action

variable (ft8xx_model : ℕ)

def calls : Action → List Call
  | .draw c => c.calls ft8xx_model
  | .quiet c _ => [c]

def items : Action → List Item
  | .draw c => c.items ft8xx_model
  | .quiet _ _ => []

def step (d : GdTransport.Display) (a : Action) : GdTransport.Display :=
  exec Display.step d (a.calls ft8xx_model)

/-- Commands are written while the stream is open, and other accesses leave the ring alone. -/
def Allowed (d : GdTransport.Display) : Action → Prop
  | .draw _ => d.opened = true
  | .quiet c _ => d.Allowed ft8xx_model c

end Action

section Program

variable {ft8xx_model : ℕ}

theorem guarded_calls {actions : List Action} {d : GdTransport.Display}
    (h : Guarded (Action.step ft8xx_model) (Action.Allowed ft8xx_model) d actions) :
    Guarded Display.step (Display.Allowed ft8xx_model) d
      (actions.flatMap (Action.calls ft8xx_model)) := by
  induction actions generalizing d with
  | nil => trivial
  | cons a actions ih =>
      rw [List.flatMap_cons, guarded_append]
      refine ⟨?_, ih h.2⟩
      cases a with
      | draw c => exact guarded_writes (all_calls ft8xx_model c) h.1
      | quiet c hc => exact ⟨h.1, trivial⟩

theorem fits_calls (actions : List Action) :
    ∀ c ∈ actions.flatMap (Action.calls ft8xx_model), c.Fits := by
  intro c hc
  obtain ⟨a, -, hmem⟩ := List.mem_flatMap.1 hc
  cases a with
  | draw c' => exact fits_of_writes (all_calls ft8xx_model c') c hmem
  | quiet c' hquiet =>
      cases List.mem_singleton.1 hmem
      cases c with
      | cmd_n s =>
          have hs : s = [] := hquiet
          rw [hs]
          exact Nat.zero_le _
      | _ => trivial

theorem wellFormed_items (actions : List Action) :
    ∀ i ∈ actions.flatMap (Action.items ft8xx_model), i.WellFormed := by
  intro i hi
  obtain ⟨a, -, hmem⟩ := List.mem_flatMap.1 hi
  cases a with
  | draw c => exact (means_calls ft8xx_model c).wellFormed i hmem
  | quiet c hquiet => cases hmem

theorem wholeWords_of_aligned {sent : List Byte} (h : sent.length % 4 = 0) :
    wholeWords sent = sent := by
  rw [wholeWords, List.take_of_length_le]
  unfold fullWords
  omega

/-- Accesses between commands leave the stream alone. -/
theorem written_quiet {c : Call} (hquiet : written c = []) {d : GdTransport.Display}
    (h : d.written.length % 4 = 0) : (d.step c).written = d.written := by
  cases c with
  | cmd32 x => cases hquiet
  | cmdbyte x => cases hquiet
  | cmd_n s =>
      have hs : s = [] := hquiet
      rw [hs]
      exact List.append_nil _
  | finish => exact wholeWords_of_aligned h
  | stop => exact wholeWords_of_aligned h
  | _ => rfl

variable (ft8xx_model) in
/-- The stream of a program is what the program means. -/
theorem written_program (actions : List Action) {d : GdTransport.Display}
    (h : d.written.length % 4 = 0) :
    (exec Display.step d (actions.flatMap (Action.calls ft8xx_model))).written =
      d.written ++ (actions.flatMap (Action.items ft8xx_model)).flatMap Item.encode := by
  induction actions generalizing d with
  | nil => exact (List.append_nil _).symm
  | cons a actions ih =>
      have hstep : (a.step ft8xx_model d).written =
          d.written ++ (a.items ft8xx_model).flatMap Item.encode := by
        cases a with
        | draw c =>
            change (exec Display.step d (c.calls ft8xx_model)).written = _
            rw [exec_writes (all_calls ft8xx_model c)]
            change d.written ++ bytes (c.calls ft8xx_model) = _
            rw [(means_calls ft8xx_model c).bytes_eq]
            rfl
        | quiet c hquiet => exact (written_quiet hquiet h).trans (List.append_nil _).symm
      have haligned : (a.step ft8xx_model d).written.length % 4 = 0 := by
        have hitems : ((a.items ft8xx_model).flatMap Item.encode).length % 4 = 0 :=
          length_items fun i hi => wellFormed_items [a] i
            (List.mem_flatMap.2 ⟨a, List.mem_singleton_self a, hi⟩)
        rw [hstep, List.length_append]
        omega
      have hrest := ih haligned
      rw [hstep, List.append_assoc] at hrest
      rw [List.flatMap_cons, exec_append, List.flatMap_cons, List.flatMap_append]
      exact hrest

/-- A text beyond pixel 512, with a pause of the stream before the screen is shown. -/
def screen : List Action :=
  [.draw (.ColorRGB 0xffffff), .draw (.cmd_text 600 10 27 0 ⟨[65], by decide⟩), .quiet .stop rfl,
    .quiet .resume rfl, .draw .cmd_swap]

end Program

/-! ## Where a vertex is drawn -/

open BitFields (field)

/-- The shift of the drawing in sixteenths of a pixel, from the word that sets it. -/
def translation (w : ℕ) : ℤ := (BitVec.ofNat 17 w).toInt

/-- A translation and the vertex behind it, as the chip reads them. -/
structure Shows (t v : ℕ) (x : ℤ) (y handle cell : ℕ) : Prop where
  translates : t / 2 ^ 24 = 43
  vertex : v / 2 ^ 30 = 2
  across : translation t + 16 * field 21 9 v = 16 * x
  down : field 12 9 v = y
  handle : field 7 5 v = handle
  cell : field 0 7 v = cell

/-- The word of a vertex is put together from fields as long as these do not overlap. -/
theorem vertexWord_eq {x y : BitVec 16} (handle cell : Byte) (hx : x.toNat < 512)
    (hy : y.toNat < 512) (hhandle : handle.toNat < 32) :
    vertexWord x y handle cell =
      2 * 2 ^ 30 + x.toNat * 2 ^ 21 + y.toNat * 2 ^ 12 + handle.toNat * 2 ^ 7 +
        cell.toNat % 128 := by
  have hand (n : ℕ) : n &&& 1 = n % 2 := Nat.and_two_pow_sub_one_eq_mod n 1
  have hand' (n : ℕ) : n &&& 127 = n % 128 := Nat.and_two_pow_sub_one_eq_mod n 7
  have h0 : (cell.toNat &&& 127) ||| (handle.toNat &&& 1) <<< 7 =
      handle.toNat % 2 * 128 + cell.toNat % 128 := by
    rw [hand, hand', Nat.shiftLeft_eq, Nat.or_comm,
      BitFields.or_eq_add (k := 7) (Dvd.intro_left _ rfl) (by omega)]
    omega
  have h1 : handle.toNat >>> 1 ||| y.toNat <<< 4 = y.toNat * 16 + handle.toNat / 2 := by
    rw [Nat.shiftLeft_eq, Nat.shiftRight_eq_div_pow, Nat.or_comm,
      BitFields.or_eq_add (k := 4) (Dvd.intro_left _ rfl) (by omega)]
    omega
  have h2 : y.toNat >>> 4 ||| x.toNat <<< 5 = x.toNat * 32 + y.toNat / 16 := by
    rw [Nat.shiftLeft_eq, Nat.shiftRight_eq_div_pow, Nat.or_comm,
      BitFields.or_eq_add (k := 5) (Dvd.intro_left _ rfl) (by omega)]
    omega
  have h3 : 2 <<< 6 ||| x.toNat >>> 3 = 128 + x.toNat / 8 := by
    rw [Nat.shiftRight_eq_div_pow, BitFields.or_eq_add (k := 7) (by decide) (by omega)]
    omega
  rw [vertexWord, h0, h1, h2, h3]
  simp only [union32, lowByte, BitVec.toNat_ofNat]
  omega

theorem translation_eq (v : ℕ) :
    (43 <<< 24 ||| (v &&& 131071)) / 2 ^ 24 = 43 ∧
      translation (43 <<< 24 ||| (v &&& 131071)) = (BitVec.ofNat 17 v).toInt := by
  have hword : 43 <<< 24 ||| (v &&& 131071) = 43 * 2 ^ 24 + v % 2 ^ 17 := by
    rw [show (131071 : ℕ) = 2 ^ 17 - 1 from rfl, Nat.and_two_pow_sub_one_eq_mod,
      BitFields.or_eq_add (k := 24) (by decide) (by omega), Nat.shiftLeft_eq]
  rw [hword]
  refine ⟨by omega, congrArg BitVec.toInt (BitVec.eq_of_toNat_eq ?_)⟩
  rw [BitVec.toNat_ofNat, BitVec.toNat_ofNat]
  omega

/-- A shift has 17 bits. -/
theorem translation_ofInt_iff (x : ℤ) (hx : -524288 ≤ x) (hx' : x < 65536) :
    (BitVec.ofNat 17 (BitVec.ofInt 32 x).toNat).toInt = x ↔ -65536 ≤ x := by
  rw [BitVec.toInt_ofNat', BitVec.toNat_ofInt, Int.bmod_def]
  push_cast
  omega

theorem shows_iff {x' y : BitVec 16} (shift : BitVec 32) (handle cell : Byte) (x : ℤ)
    (hx' : x'.toNat < 512) :
    Shows (43 <<< 24 ||| (shift.toNat &&& 131071)) (vertexWord x' y handle cell) x y.toNat
        handle.toNat cell.toNat ↔
      y.toNat < 512 ∧ handle.toNat < 32 ∧ cell.toNat < 128 ∧
        (BitVec.ofNat 17 shift.toNat).toInt + 16 * x'.toNat = 16 * x := by
  obtain ⟨htranslates, htranslation⟩ := translation_eq shift.toNat
  constructor
  · rintro ⟨-, -, hacross, hdown, hhandle, hcell⟩
    rw [field] at hdown hhandle hcell
    have hword := vertexWord_eq handle cell hx' (hdown ▸ Nat.mod_lt _ (by decide)) (by omega)
    rw [htranslation, hword, field] at hacross
    refine ⟨by omega, by omega, by omega, ?_⟩
    rw [← hacross]
    omega
  · rintro ⟨hy, hhandle, hcell, hacross⟩
    have hword := vertexWord_eq handle cell hx' hy hhandle
    constructor
    · exact htranslates
    · omega
    · rw [htranslation, ← hacross, hword, field]
      omega
    · rw [hword, field]
      omega
    · rw [hword, field]
      omega
    · rw [hword, field]
      omega

/-- A vertex is drawn where it is asked for exactly when it is not more than 4096 pixels left of the
screen, not 1024 pixels or more to the right and not 512 or more down, and its bitmap is one of 32
with one of 128 cells. -/
theorem vertex_shows_iff (x y : BitVec 16) (handle cell : Byte) :
    ∃ t v, Vertex2ii x y handle cell = [.cmd32 t, .cmd32 v] ∧
      (Shows t v x.toInt y.toNat handle.toNat cell.toNat ↔
        -4096 ≤ x.toInt ∧ x.toInt < 1024 ∧ y.toNat < 512 ∧ handle.toNat < 32 ∧
          cell.toNat < 128) := by
  have hmin := BitVec.le_toInt x
  have hmax := BitVec.toInt_lt (x := x)
  unfold Vertex2ii above512pixelMagic
  split_ifs with hneg hfar <;> dsimp only
  · have hzero : (0 : BitVec 16).toNat = 0 := rfl
    have hshift := translation_ofInt_iff (x.toInt * 16) (by omega) (by omega)
    refine ⟨_, _, rfl, (shows_iff _ handle cell x.toInt (by decide)).trans ?_⟩
    rw [hzero]
    omega
  · have hshift := (translation_ofInt_iff (512 * 16) (by decide) (by decide)).2 (by decide)
    have hrest : (BitVec.ofInt 16 (x.toInt - 512)).toNat = (x.toInt - 512).toNat := by
      rw [BitVec.toNat_ofInt]
      omega
    refine ⟨_, _, rfl, ?_⟩
    by_cases hx : x.toInt < 1024
    · refine (shows_iff _ handle cell x.toInt (by omega)).trans ?_
      rw [hshift, hrest]
      omega
    · -- nine bits of a vertex do not reach so far
      refine ⟨fun hshows => absurd hshows.across ?_, fun h => absurd h.2.1 hx⟩
      rw [(translation_eq _).2, hshift, field]
      omega
  · have hsame : x.toInt = x.toNat := by
      rw [BitVec.toInt_eq_toNat_cond] at hneg ⊢
      split_ifs at hneg ⊢ <;> omega
    have hshift : (BitVec.ofNat 17 (0 : BitVec 32).toNat).toInt = 0 := rfl
    refine ⟨_, _, rfl, (shows_iff _ handle cell x.toInt (by omega)).trans ?_⟩
    rw [hshift]
    omega

end GdCommands
end PoorMansSmu
