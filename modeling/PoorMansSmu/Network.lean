import PoorMansSmu.Lib.LineStream
import PoorMansSmu.Lib.Run
import PoorMansSmu.ScpiParser
import Mathlib.Data.List.Nodup
import Mathlib.Logic.Function.Basic

/-!
# Network — commands from TCP clients

`Network2Class::loop` and `processClientData`.  Each call of `loop` accepts one connection, reads from
every client that is connected until a line is complete or no byte is left, and has the line
executed.  Connections are numbered in the order in which they are made; of a connection the library
tells whether it is up and which bytes have arrived and not been read.

Besides the program's state the model keeps a history: all bytes sent by a client, those read and
given up, the clients whose bytes overran `buffer`, and the lines executed.
-/

namespace PoorMansSmu
namespace Network

open LineStream Run Scpi

/-! ## State -/

/-- A call of `my_instrument.Execute`. -/
structure Execution where
  /-- The client that sent the line. -/
  sender : ℕ
  /-- The client that the reply is written to. -/
  receiver : ℕ
  /-- The string, or `none` if the copy has no end. -/
  text : Option CString
  deriving DecidableEq, Repr

structure State where
  /-- The number of connections made. -/
  connections : ℕ := 0
  /-- The connections not accepted yet. -/
  waiting : List ℕ := []
  clients : List ℕ := []
  connected : ℕ → Bool := fun _ => false
  available : ℕ → CString := fun _ => []
  executed : List Execution := []
  sent : ℕ → CString := fun _ => []
  lost : ℕ → CString := fun _ => []
  overruns : List ℕ := []

/-! ## Functions -/

/-- How the loop of `processClientData` ends. -/
inductive Reading
  /-- No byte is left: the function returns, and `buffer` is gone. -/
  | returned
  /-- A byte is stored behind the end of `buffer`. -/
  | overrun (rest : CString)
  | line (buffer : CString) (rest : CString)
  deriving DecidableEq, Repr

/-- The loop of `processClientData`, with what stands in `buffer`. -/
def readLoop (buffer : CString) : (available : CString) → Reading
  | [] => .returned
  | c :: rest =>
      if buffer.length ≥ 100 then .overrun rest
      else if c = '\n' then .line buffer rest
      else readLoop (buffer ++ [c]) rest

/-- The line as a string, of which `strncpy` copies 30 bytes: a longer one is left without an end. -/
def commandText (buffer : CString) : Option CString :=
  let buffer2 := buffer.takeWhile fun c => c ≠ '\x00'
  if buffer2.length < 30 then some buffer2 else none

/-- Read from client `k`; the line is executed for the client `clientNow`. -/
def processClientData (n : State) (k clientNow : ℕ) : State :=
  match readLoop [] (n.available k) with
  | .returned =>
      { n with
        available := Function.update n.available k []
        lost := Function.update n.lost k (n.lost k ++ n.available k) }
  | .overrun rest =>
      { n with available := Function.update n.available k rest, overruns := n.overruns ++ [k] }
  | .line buffer rest =>
      { n with
        available := Function.update n.available k rest
        executed := n.executed ++ [Execution.mk k clientNow (commandText buffer)] }

def accept (n : State) : State :=
  match n.waiting with
  | [] => n
  | k :: waiting => { n with waiting := waiting, clients := n.clients ++ [k] }

/-- One client in the loop over all clients. -/
def serve (clientNow : ℕ) (n : State) (k : ℕ) : State :=
  if n.connected k then processClientData n k clientNow else n

/-- `Network2Class::loop`. -/
def loop (n : State) : State :=
  let n := accept n
  match n.clients with
  | [] => n
  | front :: _ =>
      let n := n.clients.foldl (serve front) n
      { n with clients := n.clients.filter n.connected }

/-! ## Runs -/

inductive Event
  | connect
  | send (k : ℕ) (bytes : CString)
  /-- `connected()` becomes false; while bytes wait that have not been read, the library says true. -/
  | disconnect (k : ℕ)
  | loop

def step (n : State) : Event → State
  | .connect =>
      { n with
        connections := n.connections + 1
        waiting := n.waiting ++ [n.connections]
        connected := Function.update n.connected n.connections true }
  | .send k bytes =>
      if n.connected k then
        { n with
          available := Function.update n.available k (n.available k ++ bytes)
          sent := Function.update n.sent k (n.sent k ++ bytes) }
      else n
  | .disconnect k => { n with connected := Function.update n.connected k false }
  | .loop => Network.loop n

/-- What has been executed for the lines of a client. -/
def texts (n : State) (k : ℕ) : List (Option CString) :=
  (n.executed.filter fun x => x.sender = k).map Execution.text

/-- The strings executed are the lines that the client has sent, in order, up to those that still
wait, and none of its bytes is lost. -/
structure LinesExecuted (n : State) (k : ℕ) : Prop where
  inOrder : texts n k ++ (lines '\n' (n.available k)).map some = (lines '\n' (n.sent k)).map some
  lost : n.lost k = []
  overruns : k ∉ n.overruns

/-- A call of `loop` takes the first line that waits from each client it reads from: the line is
executed, and what comes behind it is left. -/
def TakesFirst (n : State) : Event → Prop
  | .loop => ∀ k ∈ (accept n).clients, n.connected k = true → ∀ l rest, '\n' ∉ l →
      n.available k = l ++ '\n' :: rest →
        texts (loop n) k = texts n k ++ [some l] ∧ (loop n).available k = rest
  | _ => True

/-- Calls of `loop` that have to come before nothing complete waits from client `k`: each of them
accepts one connection, and takes one line from a client that has been accepted. -/
def callsLeft (n : State) (k : ℕ) : ℕ := n.waiting.length + (lines '\n' (n.available k)).length

/-- A run executes the lines sent: always in order and with nothing lost, a line in each call of
`loop`, and when it ends in enough calls, all of them. -/
structure Executes (es : List Event) : Prop where
  inOrder : Always step (fun n => ∀ k, LinesExecuted n k) {} es
  takesFirst : Guarded step TakesFirst {} es
  all : ∀ fs m, es = fs ++ List.replicate m .loop →
    ∀ k ∈ (exec step {} fs).clients ++ (exec step {} fs).waiting,
      (exec step {} fs).connected k = true → callsLeft (exec step {} fs) k ≤ m →
        texts (exec step {} es) k = (lines '\n' ((exec step {} es).sent k)).map some

/-- The line that is read first is complete, and short enough for the copy; or there is nothing to
read. -/
def Ready (available : CString) : Prop :=
  available = [] ∨ '\n' ∈ available ∧
    (available.takeWhile fun c => c ≠ '\n').length < 30 ∧
    '\x00' ∉ available.takeWhile fun c => c ≠ '\n'

instance (available : CString) : Decidable (Ready available) :=
  inferInstanceAs (Decidable (_ ∨ _ ∧ _ ∧ _))

/-- When `loop` is called, every client that is read from is ready. -/
def AllReady (n : State) : Event → Prop
  | .loop => ∀ k ∈ (accept n).clients, n.connected k = true → Ready (n.available k)
  | _ => True

/-- The string is, or may be, a line with a command that has a handler. -/
def MayAnswer : Option CString → Prop
  | some text => ∃ caller, some caller ∈ scpi_setup.Execute text
  | none => True

/-- Every reply went to the client whose line was executed. -/
def RepliesToSender (n : State) : Prop :=
  ∀ x ∈ n.executed, MayAnswer x.text → x.receiver = x.sender

/-- The bytes hold a complete line that may be answered. -/
def CommandWaiting (available : CString) : Prop :=
  match readLoop [] available with
  | .line buffer _ => MayAnswer (commandText buffer)
  | _ => False

/-- When `loop` is called, only the first of the clients has a command waiting. -/
def OnlyFirst (n : State) : Event → Prop
  | .loop => ∀ k ∈ (accept n).clients, n.connected k = true → CommandWaiting (n.available k) →
      (accept n).clients.head? = some k
  | _ => True

/-! ## Reading -/

theorem takeWhile_line {l : CString} (h : '\n' ∉ l) (rest : CString) :
    ((l ++ '\n' :: rest).takeWhile fun c => c ≠ '\n') = l := by
  induction l with
  | nil => rfl
  | cons c l ih =>
      have hc : c ≠ '\n' := fun heq => h (heq ▸ List.mem_cons_self)
      rw [List.cons_append, List.takeWhile_cons_of_pos (by simpa using hc),
        ih fun hl => h (List.mem_cons_of_mem c hl)]

/-- The three ways in which reading ends. -/
theorem readLoop_cases (buffer available : CString) :
    (readLoop buffer available = .returned ∧ '\n' ∉ available) ∨
      (∃ rest, readLoop buffer available = .overrun rest ∧
        100 ≤ buffer.length + (available.takeWhile fun c => c ≠ '\n').length) ∨
      ∃ l rest, available = l ++ '\n' :: rest ∧ '\n' ∉ l ∧
        readLoop buffer available = .line (buffer ++ l) rest := by
  induction available generalizing buffer with
  | nil => exact Or.inl ⟨rfl, List.not_mem_nil⟩
  | cons c available ih =>
      by_cases hfull : buffer.length ≥ 100
      · exact Or.inr (Or.inl ⟨available, if_pos hfull, by omega⟩)
      · by_cases hc : c = '\n'
        · subst hc
          refine Or.inr (Or.inr ⟨[], available, rfl, List.not_mem_nil, ?_⟩)
          rw [readLoop, if_neg hfull, if_pos rfl, List.append_nil]
        · have hread : readLoop buffer (c :: available) = readLoop (buffer ++ [c]) available := by
            rw [readLoop, if_neg hfull, if_neg hc]
          rcases ih (buffer ++ [c]) with ⟨h, hnot⟩ | ⟨rest, h, hlong⟩ | ⟨l, rest, heq, hl, h⟩
          · refine Or.inl ⟨hread.trans h, ?_⟩
            intro hmem
            rcases List.mem_cons.1 hmem with heq | hmem
            · exact hc heq.symm
            · exact hnot hmem
          · refine Or.inr (Or.inl ⟨rest, hread.trans h, ?_⟩)
            rw [List.takeWhile_cons_of_pos (by simpa using hc)]
            simp only [List.length_append, List.length_cons, List.length_nil] at hlong ⊢
            omega
          · refine Or.inr (Or.inr ⟨c :: l, rest, by rw [heq]; rfl, ?_, ?_⟩)
            · intro hmem
              rcases List.mem_cons.1 hmem with heq | hmem
              · exact hc heq.symm
              · exact hl hmem
            · rw [hread, h, List.append_assoc]
              rfl

theorem takeWhile_eq_self {buffer : CString} (h : '\x00' ∉ buffer) :
    (buffer.takeWhile fun c => c ≠ '\x00') = buffer := by
  refine List.takeWhile_eq_self_iff.2 ?_
  intro c hc
  have hne : c ≠ '\x00' := fun heq => h (heq ▸ hc)
  simpa using hne

/-- The string executed is the line exactly if the line is short and has no character 0. -/
theorem commandText_eq_iff (buffer : CString) :
    commandText buffer = some buffer ↔ buffer.length < 30 ∧ '\x00' ∉ buffer := by
  unfold commandText
  refine ⟨?_, ?_⟩
  · intro h
    simp only at h
    split_ifs at h with hshort
    · have hself := Option.some.inj h
      have hnot : '\x00' ∉ buffer := by
        intro hmem
        have hall := List.takeWhile_eq_self_iff.1 hself _ hmem
        simp at hall
      exact ⟨hself ▸ hshort, hnot⟩
  · rintro ⟨hshort, hnot⟩
    simp only [takeWhile_eq_self hnot]
    exact if_pos hshort

/-- What is ready is executed as it is. -/
theorem readLoop_of_ready {available : CString} (h : Ready available) (hne : available ≠ []) :
    ∃ l rest, available = l ++ '\n' :: rest ∧ '\n' ∉ l ∧
      readLoop [] available = .line l rest ∧ commandText l = some l := by
  rcases h with rfl | ⟨hmem, hshort, hzero⟩
  · exact absurd rfl hne
  · rcases readLoop_cases [] available with ⟨-, hnot⟩ | ⟨rest, -, hlong⟩ | ⟨l, rest, heq, hl, h⟩
    · exact absurd hmem hnot
    · simp only [List.length_nil] at hlong
      omega
    · have hfirst : (available.takeWhile fun c => c ≠ '\n') = l := heq ▸ takeWhile_line hl rest
      rw [hfirst] at hshort hzero
      exact ⟨l, rest, heq, hl, h, (commandText_eq_iff l).2 ⟨hshort, hzero⟩⟩

/-- What is not ready is lost, overruns the buffer, or is executed as something else. -/
theorem readLoop_of_not_ready {available : CString} (h : ¬ Ready available) :
    (readLoop [] available = .returned ∧ available ≠ []) ∨
      (∃ rest, readLoop [] available = .overrun rest) ∨
      ∃ l rest, available = l ++ '\n' :: rest ∧ '\n' ∉ l ∧
        readLoop [] available = .line l rest ∧ commandText l ≠ some l := by
  obtain ⟨hne, hbad⟩ := not_or.1 h
  rcases readLoop_cases [] available with ⟨hread, -⟩ | ⟨rest, hread, -⟩ | ⟨l, rest, heq, hl, hread⟩
  · exact Or.inl ⟨hread, hne⟩
  · exact Or.inr (Or.inl ⟨rest, hread⟩)
  · refine Or.inr (Or.inr ⟨l, rest, heq, hl, hread, ?_⟩)
    intro hsame
    obtain ⟨hshort, hzero⟩ := (commandText_eq_iff l).1 hsame
    have hfirst : (available.takeWhile fun c => c ≠ '\n') = l := heq ▸ takeWhile_line hl rest
    have hmem : '\n' ∈ available := heq ▸ List.mem_append_right l List.mem_cons_self
    exact hbad ⟨hmem, by rw [hfirst]; exact hshort, by rw [hfirst]; exact hzero⟩

/-! ## One client among the others -/

/-- Nothing has changed for client `k`. -/
structure SameFor (k : ℕ) (n n' : State) : Prop where
  available : n'.available k = n.available k
  sent : n'.sent k = n.sent k
  lost : n'.lost k = n.lost k
  overruns : k ∈ n'.overruns ↔ k ∈ n.overruns
  texts : texts n' k = texts n k

theorem SameFor.refl (k : ℕ) (n : State) : SameFor k n n := ⟨rfl, rfl, rfl, Iff.rfl, rfl⟩

theorem SameFor.trans {k : ℕ} {n n' n'' : State} (h : SameFor k n n') (h' : SameFor k n' n'') :
    SameFor k n n'' :=
  ⟨h'.available.trans h.available, h'.sent.trans h.sent, h'.lost.trans h.lost,
    h'.overruns.trans h.overruns, h'.texts.trans h.texts⟩

theorem SameFor.linesExecuted {k : ℕ} {n n' : State} (h : SameFor k n n')
    (hn : LinesExecuted n' k) : LinesExecuted n k where
  inOrder := by
    rw [← h.texts, ← h.available, ← h.sent]
    exact hn.inOrder
  lost := h.lost.symm.trans hn.lost
  overruns := fun hmem => hn.overruns (h.overruns.2 hmem)

/-- Connections and clients are the same. -/
structure SameConnections (n n' : State) : Prop where
  connections : n'.connections = n.connections
  waiting : n'.waiting = n.waiting
  clients : n'.clients = n.clients
  connected : n'.connected = n.connected

theorem SameConnections.trans {n n' n'' : State} (h : SameConnections n n')
    (h' : SameConnections n' n'') : SameConnections n n'' :=
  ⟨h'.connections.trans h.connections, h'.waiting.trans h.waiting, h'.clients.trans h.clients,
    h'.connected.trans h.connected⟩

theorem texts_concat (n : State) (x : Execution) (k : ℕ) :
    texts { n with executed := n.executed ++ [x] } k =
      texts n k ++ if x.sender = k then [x.text] else [] := by
  unfold texts
  rw [List.filter_append, List.map_append]
  split_ifs with h
  · rw [List.filter_cons_of_pos (by simpa using h)]
    rfl
  · rw [List.filter_cons_of_neg (by simpa using h)]
    rfl

section Serve

variable (clientNow : ℕ) (n : State)

theorem serve_connections (k : ℕ) : SameConnections n (serve clientNow n k) := by
  unfold serve processClientData
  split_ifs
  · split
    · exact ⟨rfl, rfl, rfl, rfl⟩
    · exact ⟨rfl, rfl, rfl, rfl⟩
    · exact ⟨rfl, rfl, rfl, rfl⟩
  · exact ⟨rfl, rfl, rfl, rfl⟩

theorem serve_other {k k' : ℕ} (h : k' ≠ k) : SameFor k' n (serve clientNow n k) := by
  unfold serve
  split_ifs
  · unfold processClientData
    split
    · exact ⟨Function.update_of_ne h _ _, rfl, Function.update_of_ne h _ _, Iff.rfl, rfl⟩
    · refine ⟨Function.update_of_ne h _ _, rfl, rfl, ?_, rfl⟩
      simp [h]
    · refine ⟨Function.update_of_ne h _ _, rfl, rfl, Iff.rfl, ?_⟩
      refine (texts_concat n _ k').trans ?_
      rw [if_neg (Ne.symm h), List.append_nil]
  · exact SameFor.refl k' n

theorem foldl_connections (L : List ℕ) : SameConnections n (L.foldl (serve clientNow) n) := by
  induction L generalizing n with
  | nil => exact ⟨rfl, rfl, rfl, rfl⟩
  | cons k L ih => exact (serve_connections clientNow n k).trans (ih _)

theorem foldl_other {L : List ℕ} {k : ℕ} (h : k ∉ L) :
    SameFor k n (L.foldl (serve clientNow) n) := by
  induction L generalizing n with
  | nil => exact SameFor.refl k n
  | cons a L ih =>
      have hne : k ≠ a := List.ne_of_not_mem_cons h
      have hnot : k ∉ L := List.not_mem_of_not_mem_cons h
      exact (serve_other clientNow n hne).trans (ih _ hnot)

/-- Where nothing is left to read, nothing comes. -/
theorem foldl_nothing {k : ℕ} (h : n.available k = []) (L : List ℕ) :
    (L.foldl (serve clientNow) n).available k = [] := by
  induction L generalizing n with
  | nil => exact h
  | cons a L ih =>
      refine ih _ ?_
      by_cases hk : k = a
      · subst hk
        unfold serve
        split_ifs
        · rw [processClientData, h]
          exact Function.update_self ..
        · exact h
      · exact (serve_other clientNow n hk).available.trans h

end Serve

/-! ## Lines -/

/-- The bytes sent are some lines, which have been executed, and what is available. -/
structure Consumed (n : State) (k : ℕ) (ls : List CString) : Prop where
  isLine : ∀ l ∈ ls, '\n' ∉ l
  sent : n.sent k = join '\n' ls ++ n.available k
  texts : texts n k = ls.map some
  lost : n.lost k = []
  overruns : k ∉ n.overruns

theorem SameFor.consumed {k : ℕ} {n n' : State} (h : SameFor k n n') {ls : List CString}
    (hn : Consumed n k ls) : Consumed n' k ls where
  isLine := hn.isLine
  sent := by rw [h.sent, h.available, hn.sent]
  texts := h.texts.trans hn.texts
  lost := h.lost.trans hn.lost
  overruns := fun hmem => hn.overruns (h.overruns.1 hmem)

theorem Consumed.linesExecuted {n : State} {k : ℕ} {ls : List CString} (h : Consumed n k ls) :
    LinesExecuted n k where
  inOrder := by rw [h.sent, lines_join_append h.isLine, h.texts, List.map_append]
  lost := h.lost
  overruns := h.overruns

section ServeOne

variable (clientNow : ℕ) {n : State} {k : ℕ} {ls : List CString}

/-- A client that is ready has its next line executed. -/
theorem serve_consumed (h : Consumed n k ls)
    (hready : n.connected k = true → Ready (n.available k)) :
    ∃ ls', Consumed (serve clientNow n k) k ls' := by
  by_cases hconnected : n.connected k = true
  · rw [serve, if_pos hconnected]
    -- a client without input is left alone; otherwise its next line is read in one go
    by_cases hnone : n.available k = []
    · have hread : readLoop [] (n.available k) = .returned := by rw [hnone]; rfl
      rw [processClientData, hread]
      refine ⟨ls, h.isLine, ?_, h.texts, ?_, h.overruns⟩
      · simp only [Function.update_self]
        rw [h.sent, hnone]
      · simp only [Function.update_self]
        rw [h.lost, hnone]
        rfl
    · obtain ⟨l, rest, havailable, hl, hread, htext⟩ := readLoop_of_ready (hready hconnected) hnone
      rw [processClientData, hread]
      refine ⟨ls ++ [l], ?_, ?_, ?_, h.lost, h.overruns⟩
      · intro l' hl'
        rcases List.mem_append.1 hl' with hl' | hl'
        · exact h.isLine l' hl'
        · rw [List.mem_singleton.1 hl']
          exact hl
      · simp only [Function.update_self]
        rw [h.sent, havailable, join_concat]
        simp
      · refine (texts_concat n _ k).trans ?_
        rw [if_pos rfl, h.texts, htext, List.map_append]
        rfl
  · rw [serve, if_neg hconnected]
    exact ⟨ls, h⟩

/-- Of a client that is not ready something is lost or executed wrongly. -/
theorem not_linesExecuted_serve (h : Consumed n k ls) (hconnected : n.connected k = true)
    (hnot : ¬ Ready (n.available k)) : ¬ LinesExecuted (serve clientNow n k) k := by
  rw [serve, if_pos hconnected, processClientData]
  intro hn
  rcases readLoop_of_not_ready hnot with
    ⟨hread, hne⟩ | ⟨rest, hread⟩ | ⟨l, rest, havailable, hl, hread, htext⟩
  · -- the input is used up before a terminator comes: what was read is dropped
    have hlost := hn.lost
    rw [hread] at hlost
    simp only [Function.update_self] at hlost
    exact hne (List.append_eq_nil_iff.1 hlost).2
  · -- the buffer is full before a terminator comes
    have hoverruns := hn.overruns
    rw [hread] at hoverruns
    simp at hoverruns
  · -- a whole line is read, but the text handed over is not the line
    have hlines := hn.inOrder
    rw [hread] at hlines
    simp only [Function.update_self] at hlines
    rw [h.sent, havailable, lines_join_append h.isLine, lines_line hl] at hlines
    have hexecuted := texts_concat n ⟨k, clientNow, commandText l⟩ k
    rw [if_pos rfl, h.texts] at hexecuted
    unfold texts at hexecuted hlines
    simp only at hexecuted hlines
    rw [hexecuted, List.map_append, List.append_assoc] at hlines
    have htail := List.append_cancel_left hlines
    exact htext (List.cons.inj htail).1

/-- The first line that waits from a client is taken. -/
theorem serve_takesFirst (hconnected : n.connected k = true) (hready : Ready (n.available k))
    {l rest : CString} (hl : '\n' ∉ l) (havailable : n.available k = l ++ '\n' :: rest) :
    texts (serve clientNow n k) k = texts n k ++ [some l] ∧
      (serve clientNow n k).available k = rest := by
  have hne : n.available k ≠ [] := by simp [havailable]
  obtain ⟨l', rest', havailable', hl', hread, htext⟩ := readLoop_of_ready hready hne
  -- the line that is read is the first one
  have hsame : l ++ '\n' :: rest = l' ++ '\n' :: rest' := havailable.symm.trans havailable'
  have hbegun : l ++ '\n' :: rest <+: l' ++ '\n' :: rest' := hsame ▸ List.prefix_refl _
  obtain ⟨rfl, -⟩ := line_of_begun hl hl' hbegun
  have hrest : rest = rest' := (List.cons_eq_cons.1 (List.append_cancel_left hsame)).2
  rw [serve, if_pos hconnected, processClientData, hread]
  refine ⟨(texts_concat n _ k).trans ?_, ?_⟩
  · rw [if_pos rfl, htext]
  · exact (Function.update_self ..).trans hrest.symm

end ServeOne

section ServeAll

variable (clientNow : ℕ) {L : List ℕ} (hnodup : L.Nodup) {n : State}

include hnodup

theorem foldl_consumed (hconsumed : ∀ k, ∃ ls, Consumed n k ls)
    (hready : ∀ k ∈ L, n.connected k = true → Ready (n.available k)) :
    ∀ k, ∃ ls, Consumed (L.foldl (serve clientNow) n) k ls := by
  induction L generalizing n with
  | nil => exact hconsumed
  | cons a L ih =>
      obtain ⟨hnot, hnodup⟩ := List.nodup_cons.1 hnodup
      -- what is left of the list is served after `a`, and none of it is `a` again
      refine ih hnodup ?_ ?_
      · intro k
        obtain ⟨ls, hls⟩ := hconsumed k
        by_cases hk : k = a
        · subst hk
          exact serve_consumed clientNow hls (hready k List.mem_cons_self)
        · exact ⟨ls, (serve_other clientNow n hk).consumed hls⟩
      · intro k hk hconnected
        have hne : k ≠ a := fun heq => hnot (heq ▸ hk)
        rw [(serve_connections clientNow n a).connected] at hconnected
        rw [(serve_other clientNow n hne).available]
        exact hready k (List.mem_cons_of_mem a hk) hconnected

theorem not_linesExecuted_foldl {k : ℕ} {ls : List CString} (h : Consumed n k ls) (hk : k ∈ L)
    (hconnected : n.connected k = true) (hnot : ¬ Ready (n.available k)) :
    ¬ LinesExecuted (L.foldl (serve clientNow) n) k := by
  induction L generalizing n with
  | nil => exact absurd hk List.not_mem_nil
  | cons a L ih =>
      obtain ⟨hfresh, hnodup⟩ := List.nodup_cons.1 hnodup
      by_cases hka : k = a
      · -- those served after `a` neither repair nor hide what happened to it
        subst hka
        intro hn
        exact not_linesExecuted_serve clientNow h hconnected hnot
          ((foldl_other clientNow _ hfresh).linesExecuted hn)
      · -- until its turn comes, nothing happens to `k`
        have hsame := serve_other clientNow n hka
        refine ih hnodup (hsame.consumed h) ?_ ?_ ?_
        · exact (List.mem_cons.1 hk).resolve_left hka
        · rw [(serve_connections clientNow n a).connected]
          exact hconnected
        · rw [hsame.available]
          exact hnot

theorem foldl_takesFirst {k : ℕ} (hk : k ∈ L) (hconnected : n.connected k = true)
    (hready : Ready (n.available k)) {l rest : CString} (hl : '\n' ∉ l)
    (havailable : n.available k = l ++ '\n' :: rest) :
    texts (L.foldl (serve clientNow) n) k = texts n k ++ [some l] ∧
      (L.foldl (serve clientNow) n).available k = rest := by
  induction L generalizing n with
  | nil => exact absurd hk List.not_mem_nil
  | cons a L ih =>
      obtain ⟨hfresh, hnodup⟩ := List.nodup_cons.1 hnodup
      by_cases hka : k = a
      · -- it is served once
        subst hka
        have hserved := serve_takesFirst clientNow hconnected hready hl havailable
        have hsame := foldl_other clientNow (serve clientNow n k) hfresh
        exact ⟨hsame.texts.trans hserved.1, hsame.available.trans hserved.2⟩
      · have hsame := serve_other clientNow n hka
        rw [← hsame.texts]
        refine ih hnodup ((List.mem_cons.1 hk).resolve_left hka) ?_ ?_ ?_
        · rw [(serve_connections clientNow n a).connected]
          exact hconnected
        · rw [hsame.available]
          exact hready
        · rw [hsame.available]
          exact havailable

end ServeAll

/-! ## Calls of `loop` -/

/-- The state when all clients have been read from. -/
def served (n : State) : State :=
  (accept n).clients.foldl (serve ((accept n).clients.headD 0)) (accept n)

theorem loop_eq (n : State) :
    loop n = { served n with clients := (served n).clients.filter (served n).connected } := by
  unfold loop served
  generalize accept n = m
  cases h : m.clients with
  | nil =>
      obtain ⟨⟩ := m
      subst h
      rfl
  | cons front clients => simp [h]

/-- A client that is accepted is in another list, and nothing else changes. -/
theorem accept_same (n : State) (k : ℕ) : SameFor k n (accept n) := by
  unfold accept
  split
  · exact SameFor.refl k n
  · exact ⟨rfl, rfl, rfl, Iff.rfl, rfl⟩

theorem accept_connections (n : State) :
    (accept n).clients ++ (accept n).waiting = n.clients ++ n.waiting ∧
      (accept n).connections = n.connections ∧ (accept n).connected = n.connected := by
  unfold accept
  split
  · exact ⟨rfl, rfl, rfl⟩
  · rename_i k waiting hwaiting
    exact ⟨by rw [hwaiting, List.append_assoc]; rfl, rfl, rfl⟩

theorem accept_waiting (n : State) : (accept n).waiting = n.waiting.tail := by
  unfold accept
  split
  · next hwaiting => rw [hwaiting, List.tail_nil]
  · next hwaiting => rw [hwaiting, List.tail_cons]

/-- Each connection is in one place. -/
structure ServerInv (n : State) : Prop where
  nodup : (n.clients ++ n.waiting).Nodup
  known : ∀ k ∈ n.clients ++ n.waiting, k < n.connections

theorem ServerInv.accept {n : State} (h : ServerInv n) : ServerInv (accept n) := by
  obtain ⟨hall, hconnections, -⟩ := accept_connections n
  refine ⟨hall ▸ h.nodup, ?_⟩
  rw [hall, hconnections]
  exact h.known

theorem ServerInv.accepted_nodup {n : State} (h : ServerInv n) : (Network.accept n).clients.Nodup :=
  (List.nodup_append.1 h.accept.nodup).1

theorem step_serverInv (n : State) (e : Event) (h : ServerInv n) : ServerInv (step n e) := by
  cases e with
  | loop =>
      have hsame : SameConnections (accept n) (served n) := foldl_connections _ _ _
      have hsub : ((served n).clients.filter (served n).connected ++ (served n).waiting).Sublist
          ((accept n).clients ++ (accept n).waiting) := by
        rw [hsame.clients, hsame.waiting]
        exact List.filter_sublist.append_right _
      rw [step, loop_eq]
      refine ⟨h.accept.nodup.sublist hsub, ?_⟩
      intro k hk
      rw [hsame.connections]
      exact h.accept.known k (hsub.subset hk)
  | connect =>
      -- a new connection takes the number that comes next, which no list has yet
      refine ⟨?_, ?_⟩
      · have hfresh : n.connections ∉ n.clients ++ n.waiting := fun hmem =>
          absurd (h.known _ hmem) (lt_irrefl _)
        simp only [step]
        rw [← List.append_assoc]
        exact List.nodup_append_comm.1 (List.nodup_cons.2 ⟨hfresh, h.nodup⟩)
      · intro k hk
        simp only [step] at hk ⊢
        rw [← List.append_assoc] at hk
        rcases List.mem_append.1 hk with hk | hk
        · exact Nat.lt_succ_of_lt (h.known k hk)
        · rw [List.mem_singleton.1 hk]
          exact Nat.lt_succ_self _
  | disconnect k => exact ⟨h.nodup, h.known⟩
  | send k bytes =>
      rw [step]
      split_ifs
      · exact ⟨h.nodup, h.known⟩
      · exact h

theorem init_serverInv : ServerInv {} := ⟨List.nodup_nil, nofun⟩

/-- What the clients have sent is consumed line by line. -/
structure Inv (n : State) : Prop extends ServerInv n where
  consumed : ∀ k, ∃ ls, Consumed n k ls

theorem accept_consumed {n : State} (h : Inv n) (k : ℕ) : ∃ ls, Consumed (accept n) k ls := by
  obtain ⟨ls, hls⟩ := h.consumed k
  exact ⟨ls, (accept_same n k).consumed hls⟩

theorem loop_consumed {n : State} (h : Inv n) (hready : AllReady n .loop) (k : ℕ) :
    ∃ ls, Consumed (loop n) k ls := by
  have hserved : ∀ k, ∃ ls, Consumed (served n) k ls := by
    refine foldl_consumed _ h.accepted_nodup (accept_consumed h) ?_
    intro k hk hconnected
    rw [(accept_connections n).2.2] at hconnected
    rw [(accept_same n k).available]
    exact hready k hk hconnected
  obtain ⟨ls, hls⟩ := hserved k
  rw [loop_eq]
  exact ⟨ls, { hls with }⟩

theorem step_inv (n : State) (e : Event) (h : Inv n) (hok : AllReady n e) : Inv (step n e) := by
  refine ⟨step_serverInv n e h.toServerInv, ?_⟩
  intro k'
  cases e with
  | loop => exact loop_consumed h hok k'
  | connect =>
      obtain ⟨ls, hls⟩ := h.consumed k'
      exact ⟨ls, { hls with }⟩
  | disconnect k =>
      obtain ⟨ls, hls⟩ := h.consumed k'
      exact ⟨ls, { hls with }⟩
  | send k bytes =>
      obtain ⟨ls, hls⟩ := h.consumed k'
      rw [step]
      split_ifs
      · refine ⟨ls, { hls with sent := ?_ }⟩
        by_cases hk : k' = k
        · subst hk
          simp only [Function.update_self]
          rw [hls.sent, List.append_assoc]
        · simp only [Function.update_of_ne hk]
          exact hls.sent
      · exact ⟨ls, hls⟩

/-- A call that finds a client not ready loses or spoils something of what it has sent. -/
theorem loop_spoils {n : State} (h : Inv n) (hnot : ¬ AllReady n .loop) :
    ¬ ∀ k, LinesExecuted (loop n) k := by
  simp only [AllReady, not_forall] at hnot
  obtain ⟨k, hk, hconnected, hnotReady⟩ := hnot
  obtain ⟨ls, hls⟩ := accept_consumed h k
  intro hall
  have hspoiled : ¬ LinesExecuted (served n) k := by
    refine not_linesExecuted_foldl _ h.accepted_nodup hls hk ?_ ?_
    · rw [(accept_connections n).2.2]
      exact hconnected
    · rw [(accept_same n k).available]
      exact hnotReady
  have hk := hall k
  rw [loop_eq] at hk
  exact hspoiled { hk with }

theorem init_inv : Inv {} := ⟨init_serverInv, fun _ => ⟨[], nofun, rfl, rfl, rfl, nofun⟩⟩

theorem loop_takesFirst {n : State} (h : ServerInv n) (hready : AllReady n .loop) :
    TakesFirst n .loop := by
  intro k hk hconnected l rest hl havailable
  have hsame := accept_same n k
  have hserved : texts (served n) k = texts (accept n) k ++ [some l] ∧
      (served n).available k = rest := by
    refine foldl_takesFirst _ h.accepted_nodup hk ?_ ?_ hl ?_
    · rw [(accept_connections n).2.2]
      exact hconnected
    · rw [hsame.available]
      exact hready k hk hconnected
    · rw [hsame.available]
      exact havailable
  rw [hsame.texts] at hserved
  rw [loop_eq]
  exact hserved

/-- A call accepts a connection, and drops those that are down. -/
theorem loop_connections (n : State) :
    (loop n).waiting = n.waiting.tail ∧ (loop n).connected = n.connected ∧
      (loop n).clients = (accept n).clients.filter n.connected := by
  have hsame : SameConnections (accept n) (served n) := foldl_connections _ _ _
  have hconnected : (served n).connected = n.connected :=
    hsame.connected.trans (accept_connections n).2.2
  rw [loop_eq]
  refine ⟨hsame.waiting.trans (accept_waiting n), hconnected, ?_⟩
  simp only [hsame.clients, hconnected]

/-- A client that is up stays with the server. -/
theorem loop_keeps {n : State} {k : ℕ} (hk : k ∈ n.clients ++ n.waiting)
    (hconnected : n.connected k = true) : k ∈ (loop n).clients ++ (loop n).waiting := by
  have hmem : k ∈ (accept n).clients ++ n.waiting.tail := by
    rw [← accept_waiting, (accept_connections n).1]
    exact hk
  obtain ⟨hwaiting, -, hclients⟩ := loop_connections n
  rw [hwaiting, hclients]
  rcases List.mem_append.1 hmem with hmem | hmem
  · exact List.mem_append_left _ (List.mem_filter.2 ⟨hmem, hconnected⟩)
  · exact List.mem_append_right _ hmem

/-- Each call of `loop` brings nearer the time when nothing complete waits. -/
theorem callsLeft_loop {n : State} (h : Inv n) (hready : AllReady n .loop) {k : ℕ}
    (hk : k ∈ n.clients ++ n.waiting) (hconnected : n.connected k = true) :
    callsLeft (loop n) k ≤ callsLeft n k - 1 := by
  obtain ⟨hwaiting, -, -⟩ := loop_connections n
  by_cases haccepted : k ∈ (accept n).clients
  · -- a line less, if there is one, and a connection less, if there is one
    have hlines : (lines '\n' ((loop n).available k)).length =
        (lines '\n' (n.available k)).length - 1 := by
      rcases hready k haccepted hconnected with hnone | ⟨hmem, -, -⟩
      · have hsame : (loop n).available k = [] := by
          rw [loop_eq]
          exact foldl_nothing _ _ ((accept_same n k).available.trans hnone) _
        rw [hsame, hnone]
        rfl
      · obtain ⟨l, rest, havailable, hl⟩ := List.eq_append_cons_of_mem hmem
        rw [(loop_takesFirst h.toServerInv hready k haccepted hconnected l rest hl havailable).2,
          havailable, lines_line hl, List.length_cons, Nat.add_sub_cancel]
    unfold callsLeft
    rw [hlines, hwaiting, List.length_tail]
    omega
  · -- it waits to be accepted, and so does one connection less
    have hother : (loop n).available k = n.available k := by
      have hserved := foldl_other ((accept n).clients.headD 0) (accept n) haccepted
      rw [loop_eq]
      exact hserved.available.trans (accept_same n k).available
    have hpos : 0 < n.waiting.length := by
      rw [← (accept_connections n).1] at hk
      have hin := (List.mem_append.1 hk).resolve_left haccepted
      cases hw : n.waiting with
      | nil => simp [accept, hw] at hin
      | cons a rest => exact Nat.succ_pos _
    unfold callsLeft
    rw [hother, hwaiting, List.length_tail]
    omega

/-- After enough calls of `loop` every line that a client sent has been executed. -/
theorem texts_replicate {n : State} (h : Inv n) {m : ℕ}
    (hready : Guarded step AllReady n (List.replicate m .loop)) {k : ℕ}
    (hk : k ∈ n.clients ++ n.waiting) (hconnected : n.connected k = true)
    (hleft : callsLeft n k ≤ m) :
    texts (exec step n (List.replicate m .loop)) k =
      (lines '\n' ((exec step n (List.replicate m .loop)).sent k)).map some := by
  induction m generalizing n with
  | zero =>
      obtain ⟨ls, hls⟩ := h.consumed k
      have hnone : lines '\n' (n.available k) = [] :=
        List.eq_nil_of_length_eq_zero (by unfold callsLeft at hleft; omega)
      have hall := hls.linesExecuted.inOrder
      rw [hnone, List.map_nil, List.append_nil] at hall
      exact hall
  | succ m ih =>
      obtain ⟨hfirst, hrest⟩ := hready
      have hnext := callsLeft_loop h hfirst hk hconnected
      refine ih (step_inv n .loop h hfirst) hrest (loop_keeps hk hconnected) ?_ ?_
      · change (loop n).connected k = true
        rw [(loop_connections n).2.1]
        exact hconnected
      · change callsLeft (loop n) k ≤ m
        omega

/-- In a run of connections, bytes sent, disconnections and calls of `loop`, the lines sent are
executed, each as it is and in order, a line in each call of `loop` and in the end all of them, and
nothing is lost, exactly if every call of `loop` finds every client ready. -/
theorem linesExecuted_iff (es : List Event) : Executes es ↔ Guarded step AllReady {} es := by
  have hiff : Always step (fun n => ∀ k, LinesExecuted n k) {} es ↔ Guarded step AllReady {} es := by
    refine always_iff_guarded (I := Inv) ?_ step_inv ?_ init_inv es
    · intro n h k
      obtain ⟨ls, hls⟩ := h.consumed k
      exact hls.linesExecuted
    · intro n e h hnot
      cases e with
      | loop => exact loop_spoils h hnot
      | connect => exact absurd trivial hnot
      | send k bytes => exact absurd trivial hnot
      | disconnect k => exact absurd trivial hnot
  refine ⟨fun h => hiff.1 h.inOrder, fun hready => ⟨hiff.2 hready, ?_, ?_⟩⟩
  · refine guarded_of_guarded ?_ (fun n e h hok _ => step_inv n e h hok) init_inv hready
    intro n e h hok
    cases e with
    | loop => exact loop_takesFirst h.toServerInv hok
    | connect => trivial
    | send k bytes => trivial
    | disconnect k => trivial
  · rintro fs m rfl k hk hconnected hleft
    obtain ⟨hbefore, hloops⟩ := (guarded_append _ _ _).1 hready
    have hinv : Inv (exec step {} fs) := (always_of_guarded step_inv init_inv hbefore).exec
    rw [exec_append]
    exact texts_replicate hinv hloops hk hconnected hleft

instance (n : State) (k : ℕ) : Decidable (LinesExecuted n k) :=
  decidable_of_iff
    ((texts n k ++ (lines '\n' (n.available k)).map some = (lines '\n' (n.sent k)).map some ∧
      n.lost k = []) ∧ k ∉ n.overruns)
    ⟨fun h => ⟨h.1.1, h.1.2, h.2⟩, fun h => ⟨⟨h.inOrder, h.lost⟩, h.overruns⟩⟩

/-- A line that arrives in two parts, with a call of `loop` in between: the second part is executed
alone. -/
theorem cut_line_loses_its_start :
    ¬ Executes [.connect, .send 0 "*ID".toList, .loop, .send 0 "N?\n".toList, .loop] := by
  intro h
  exact absurd (h.inOrder.exec 0) (by decide +kernel)

/-! ## Replies -/

/-- What is executed when client `k` is read from. -/
def execution (n : State) (clientNow k : ℕ) : Option Execution :=
  if n.connected k then
    match readLoop [] (n.available k) with
    | .line buffer _ => some ⟨k, clientNow, commandText buffer⟩
    | _ => none
  else none

theorem serve_executed (clientNow : ℕ) (n : State) (k : ℕ) :
    (serve clientNow n k).executed = n.executed ++ (execution n clientNow k).toList := by
  unfold serve execution
  split_ifs
  · unfold processClientData
    cases readLoop [] (n.available k) with
    | returned => exact (List.append_nil _).symm
    | overrun rest => exact (List.append_nil _).symm
    | line buffer rest => rfl
  · exact (List.append_nil _).symm

theorem foldl_executed (clientNow : ℕ) {L : List ℕ} (hnodup : L.Nodup) (n : State) :
    (L.foldl (serve clientNow) n).executed =
      n.executed ++ L.filterMap (execution n clientNow) := by
  induction L generalizing n with
  | nil => exact (List.append_nil _).symm
  | cons a L ih =>
      obtain ⟨hnot, hnodup⟩ := List.nodup_cons.1 hnodup
      -- what a client is about to have executed does not depend on who is served before it
      have hsame : L.filterMap (execution (serve clientNow n a) clientNow) =
          L.filterMap (execution n clientNow) := by
        refine List.filterMap_congr ?_
        intro k hk
        have hne : k ≠ a := fun heq => hnot (heq ▸ hk)
        unfold execution
        rw [(serve_connections clientNow n a).connected, (serve_other clientNow n hne).available]
      rw [List.foldl_cons, ih hnodup, serve_executed, hsame, List.append_assoc]
      cases hexecution : execution n clientNow a with
      | none => rw [List.filterMap_cons_none hexecution]; rfl
      | some x => rw [List.filterMap_cons_some hexecution]; rfl

/-- A client's command gets its reply exactly if the client is the first one. -/
theorem execution_answered_iff (n : State) (clientNow k : ℕ) :
    (∀ x, execution n clientNow k = some x → MayAnswer x.text → x.receiver = x.sender) ↔
      (n.connected k = true → CommandWaiting (n.available k) → clientNow = k) := by
  unfold execution CommandWaiting
  split_ifs with hconnected
  · cases readLoop [] (n.available k) with
    | returned => simp
    | overrun rest => simp
    | line buffer rest => simp [hconnected]
  · simp [hconnected]

/-- One call of `loop`. -/
theorem loop_repliesToSender_iff {n : State} (h : ServerInv n) (hn : RepliesToSender n) :
    RepliesToSender (loop n) ↔ OnlyFirst n .loop := by
  have hexecuted : (loop n).executed = n.executed ++
      (accept n).clients.filterMap (execution (accept n) ((accept n).clients.headD 0)) := by
    have hsame : (accept n).executed = n.executed := by
      unfold accept
      split <;> rfl
    rw [loop_eq, ← hsame]
    exact foldl_executed _ h.accepted_nodup _
  unfold RepliesToSender OnlyFirst
  simp only [hexecuted, List.mem_append, List.mem_filterMap]
  -- the receiver passed on is the front of the list, also when the list is empty
  have hfront : ∀ k ∈ (accept n).clients,
      ((accept n).clients.headD 0 = k ↔ (accept n).clients.head? = some k) := by
    intro k hk
    cases hclients : (accept n).clients with
    | nil => rw [hclients] at hk; exact absurd hk List.not_mem_nil
    | cons front clients => simp
  refine ⟨?_, ?_⟩
  · intro hall k hk hconnected hwaiting
    refine (hfront k hk).1 ((execution_answered_iff (accept n) _ k).1 ?_ ?_ ?_)
    · intro x hx
      exact hall x (Or.inr ⟨k, hk, hx⟩)
    · rw [(accept_connections n).2.2]
      exact hconnected
    · rw [(accept_same n k).available]
      exact hwaiting
  · intro hfirst x hx
    rcases hx with hx | ⟨k, hk, hx⟩
    · exact hn x hx
    · refine (execution_answered_iff (accept n) _ k).2 ?_ x hx
      intro hconnected hwaiting
      rw [(accept_connections n).2.2] at hconnected
      rw [(accept_same n k).available] at hwaiting
      exact (hfront k hk).2 (hfirst k hk hconnected hwaiting)

theorem step_executed (n : State) {e : Event} (he : e ≠ .loop) :
    (step n e).executed = n.executed := by
  cases e with
  | loop => exact absurd rfl he
  | connect => rfl
  | disconnect k => rfl
  | send k bytes =>
      rw [step]
      split_ifs <;> rfl

/-- In a run, every reply goes to the client whose line was executed exactly if only the first of the
clients ever has a command waiting when `loop` is called. -/
theorem repliesToSender_iff (es : List Event) :
    Always step RepliesToSender {} es ↔ Guarded step OnlyFirst {} es := by
  refine always_iff_guarded (I := fun n => ServerInv n ∧ RepliesToSender n)
    (fun _ h => h.2) ?_ ?_ ⟨init_serverInv, nofun⟩ es
  · intro n e h hok
    refine ⟨step_serverInv n e h.1, ?_⟩
    by_cases he : e = .loop
    · subst he
      exact (loop_repliesToSender_iff h.1 h.2).2 hok
    · unfold RepliesToSender
      rw [step_executed n he]
      exact h.2
  · intro n e h hnot
    cases e with
    | loop => exact fun hn => hnot ((loop_repliesToSender_iff h.1 h.2).1 hn)
    | connect => exact absurd trivial hnot
    | send k bytes => exact absurd trivial hnot
    | disconnect k => exact absurd trivial hnot

/-- Two clients are connected, and the second one asks for the identity: the first one is told. -/
theorem second_client_answered_to_first :
    ¬ Always step RepliesToSender {}
      [.connect, .connect, .loop, .loop, .send 1 "*IDN?\n".toList, .loop] := by
  intro h
  have hanswer : MayAnswer (some "*IDN?".toList) := ⟨.Identify, by decide +kernel⟩
  have hreceiver := h.exec ⟨1, 0, some "*IDN?".toList⟩ (by decide +kernel) hanswer
  exact absurd hreceiver (by decide)

end Network
end PoorMansSmu
