import PoorMansSmu.Network
import PoorMansSmu.ScpiFormat

/-!
# RemoteSession — clients that work with the instrument

The server takes bytes apart into lines, the parser takes lines apart into commands, and the handlers
change the instrument.  Seen from the clients there is a desk: each client hands in requests, and a
call of `loop` takes the next one from each client in turn.

- `Session`          : the server, the parser and the handlers, in one machine;
- `Desk`             : what they are for;
- `session_refines`  : whatever pieces the requests arrive in, the first does what the second does.
-/

namespace PoorMansSmu
namespace RemoteSession

open LineStream Network Run Scpi

/-! ## The server -/

/-- The instrument, and the replies so far with the clients whose requests they answer. -/
structure Bench where
  instrument : Instrument
  replies : List (ℕ × Option Reply) := []

namespace Bench

/-- A message of a client is executed. -/
def message (x : Readings) (sender : ℕ) (b : Bench) (message : CString) : Bench :=
  let (instrument, reply) := execute x b.instrument message
  { instrument, replies := b.replies ++ [(sender, reply)] }

/-- A call of `my_instrument.Execute`.  What it makes of a string without an end is left open. -/
def line (x : Readings) (b : Bench) (e : Execution) : Bench :=
  match e.text with
  | some text => (text.splitOn ';').foldl (message x e.sender) b
  | none => b

/-- Another part of the program. -/
def program (b : Bench) (e : Program.Event) : Bench :=
  { b with instrument := { b.instrument with program := Program.step b.instrument.program e } }

end Bench

structure Session where
  network : Network.State := {}
  bench : Bench

inductive Event
  | connect
  | send (k : ℕ) (bytes : CString)
  | disconnect (k : ℕ)
  /-- A call of `loop`, in which commands find the readings `x`. -/
  | loop (x : Readings)
  | program (e : Program.Event)

namespace Session

def step (s : Session) : Event → Session
  | .connect => { s with network := Network.step s.network .connect }
  | .send k bytes => { s with network := Network.step s.network (.send k bytes) }
  | .disconnect k => { s with network := Network.step s.network (.disconnect k) }
  | .loop x =>
      let network := Network.loop s.network
      { network
        bench := (network.executed.drop s.network.executed.length).foldl (Bench.line x) s.bench }
  | .program e => { s with bench := s.bench.program e }

end Session

/-! ## The desk -/

/-- The clients, the requests they have yet to hand in, and those that wait. -/
structure Desk where
  connections : ℕ := 0
  waiting : List ℕ := []
  clients : List ℕ := []
  connected : ℕ → Bool := fun _ => false
  script : ℕ → List Request
  inbox : ℕ → List Request := fun _ => []
  bench : Bench

inductive DeskEvent
  | connect
  /-- Client `k` hands in its next `m` requests. -/
  | handIn (k m : ℕ)
  | disconnect (k : ℕ)
  | loop (x : Readings)
  | program (e : Program.Event)

namespace Desk

/-- A request is answered. -/
def answer (x : Readings) (d : Desk) (k : ℕ) (r : Request) : Bench where
  instrument := (handle x d.bench.instrument r.parameter r.caller).1
  replies := d.bench.replies ++ [(k, some (handle x d.bench.instrument r.parameter r.caller).2)]

def serve (x : Readings) (d : Desk) (k : ℕ) : Desk :=
  if d.connected k then
    match d.inbox k with
    | [] => d
    | r :: rs => { d with inbox := Function.update d.inbox k rs, bench := d.answer x k r }
  else d

def accept (d : Desk) : Desk :=
  match d.waiting with
  | [] => d
  | k :: waiting => { d with waiting := waiting, clients := d.clients ++ [k] }

def step (d : Desk) : DeskEvent → Desk
  | .connect =>
      { d with
        connections := d.connections + 1
        waiting := d.waiting ++ [d.connections]
        connected := Function.update d.connected d.connections true }
  | .handIn k m =>
      if d.connected k then
        { d with
          inbox := Function.update d.inbox k (d.inbox k ++ (d.script k).take m)
          script := Function.update d.script k ((d.script k).drop m) }
      else d
  | .disconnect k => { d with connected := Function.update d.connected k false }
  | .loop x =>
      let d := d.accept
      let d := d.clients.foldl (serve x) d
      { d with clients := d.clients.filter d.connected }
  | .program e => { d with bench := d.bench.program e }

end Desk

/-- What an event is at the desk: a request is handed in with the end of its line. -/
def Event.atDesk : Event → DeskEvent
  | .connect => .connect
  | .send k bytes => .handIn k (bytes.count '\n')
  | .disconnect k => .disconnect k
  | .loop x => .loop x
  | .program e => .program e

/-- The lines of some requests. -/
def stream (rs : List Request) : CString := join '\n' (rs.map Request.text)

/-- Each client sends the lines of its requests, in pieces, and `loop` is called when those that have
begun a line have ended one. -/
def Orderly (script : ℕ → List Request) (s : Session) : Event → Prop
  | .send k bytes =>
      s.network.connected k = true → s.network.sent k ++ bytes <+: stream (script k)
  | .loop _ =>
      ∀ k ∈ (accept s.network).clients, s.network.connected k = true →
        Ready (s.network.available k)
  | _ => True

instance (script : ℕ → List Request) (s : Session) : ∀ e, Decidable (Orderly script s e)
  | .send _ _ => inferInstanceAs (Decidable (_ → _))
  | .loop _ => inferInstanceAs (Decidable (∀ k ∈ _, _ → _))
  | .connect => isTrue trivial
  | .disconnect _ => isTrue trivial
  | .program _ => isTrue trivial

/-! ## Streams of requests -/

theorem stream_cons (r : Request) (rs : List Request) :
    stream (r :: rs) = r.text ++ '\n' :: stream rs := by
  rw [stream, List.map_cons, join_cons]
  rfl

theorem stream_append (rs rs' : List Request) : stream (rs ++ rs') = stream rs ++ stream rs' := by
  rw [stream, List.map_append, join_append]
  rfl

theorem count_stream (rs : List Request) : (stream rs).count '\n' = rs.length := by
  have hlines : ∀ l ∈ rs.map Request.text, '\n' ∉ l := by
    intro l hl
    obtain ⟨r, -, rfl⟩ := List.mem_map.1 hl
    exact r.newline_not_mem_text
  rw [stream, count_join hlines, List.length_map]

/-- A line with a request is answered as the request. -/
theorem line_text (x : Readings) (d : Desk) (k receiver : ℕ) (r : Request) :
    d.bench.line x ⟨k, receiver, some r.text⟩ = d.answer x k r := by
  change (r.text.splitOn ';').foldl (Bench.message x k) d.bench = _
  rw [r.splitOn_text, List.foldl_cons, List.foldl_nil, Bench.message, r.execute_text]
  rfl

/-! ## The server at the desk -/

/-- The bytes that are available to the server are the requests that wait and the beginning of the
next one. -/
structure Pending (available : CString) (inbox script : List Request) : Prop where
  begins : available <+: stream (inbox ++ script)
  complete : inbox.length = available.count '\n'

/-- The server has the clients of the desk, and their requests. -/
structure Attends (script : ℕ → List Request) (n : Network.State) (d : Desk) : Prop where
  connections : n.connections = d.connections
  waiting : n.waiting = d.waiting
  clients : n.clients = d.clients
  connected : n.connected = d.connected
  sent : ∀ k, ∃ done, script k = done ++ (d.inbox k ++ d.script k) ∧
    n.sent k = stream done ++ n.available k
  pending : ∀ k, Pending (n.available k) (d.inbox k) (d.script k)

section Serve

variable {script : ℕ → List Request} {n : Network.State} {d : Desk} (x : Readings)
  (clientNow : ℕ)

/-- The server takes what the desk takes, and what is executed then is what the desk answers. -/
def ServesAs (script : ℕ → List Request) (x : Readings) (n : Network.State) (d : Desk)
    (n' : Network.State) (d' : Desk) : Prop :=
  Attends script n' d' ∧
    ∃ new, n'.executed = n.executed ++ new ∧ new.foldl (Bench.line x) d.bench = d'.bench

theorem ServesAs.trans {n' n'' : Network.State} {d' d'' : Desk}
    (h : ServesAs script x n d n' d') (h' : ServesAs script x n' d' n'' d'') :
    ServesAs script x n d n'' d'' := by
  obtain ⟨-, new, hexecuted, hbench⟩ := h
  obtain ⟨hattends, new', hexecuted', hbench'⟩ := h'
  refine ⟨hattends, new ++ new', ?_, ?_⟩
  · rw [hexecuted', hexecuted, List.append_assoc]
  · rw [List.foldl_append, hbench, hbench']

/-- The next line of a client is read. -/
theorem Attends.take (h : Attends script n d) {k : ℕ} {r : Request} {rs : List Request}
    {rest : CString} (hinbox : d.inbox k = r :: rs)
    (havailable : n.available k = r.text ++ '\n' :: rest) (executed : List Execution)
    (bench : Bench) :
    Attends script { n with available := Function.update n.available k rest, executed }
      { d with inbox := Function.update d.inbox k rs, bench } := by
  refine ⟨h.connections, h.waiting, h.clients, h.connected, fun k' => ?_, fun k' => ?_⟩
  · obtain ⟨done, hscript, hsent⟩ := h.sent k'
    by_cases hk : k' = k
    · subst hk
      refine ⟨done ++ [r], ?_, ?_⟩
      · simp only [Function.update_self]
        rw [hscript, hinbox, List.append_assoc]
        rfl
      · simp only [Function.update_self]
        rw [hsent, havailable, stream_append, stream_cons, List.append_assoc, List.append_assoc]
        rfl
    · simp only [Function.update_of_ne hk]
      exact ⟨done, hscript, hsent⟩
  · obtain ⟨hbegins, hcomplete⟩ := h.pending k'
    by_cases hk : k' = k
    · subst hk
      have hcount : r.text.count '\n' = 0 := List.count_eq_zero.2 r.newline_not_mem_text
      rw [havailable, hinbox, List.cons_append, stream_cons] at hbegins
      rw [havailable, hinbox, List.count_append, List.count_cons_self, hcount,
        List.length_cons] at hcomplete
      simp only [Function.update_self]
      exact ⟨(line_of_begun r.newline_not_mem_text r.newline_not_mem_text hbegins).2, by omega⟩
    · simp only [Function.update_of_ne hk]
      exact ⟨hbegins, hcomplete⟩

/-- A client in its turn. -/
theorem Attends.serve (h : Attends script n d) {k : ℕ}
    (hready : n.connected k = true → Ready (n.available k)) :
    ServesAs script x n d (Network.serve clientNow n k) (d.serve x k) := by
  have hconnections : n.connected k = d.connected k := congrFun h.connected k
  obtain ⟨hbegins, hcomplete⟩ := h.pending k
  by_cases hconnected : n.connected k = true
  · rw [Network.serve, if_pos hconnected, Desk.serve, if_pos (hconnections ▸ hconnected)]
    by_cases hnone : n.available k = []
    · -- nothing to read: the inbox is empty
      have hread : readLoop [] (n.available k) = .returned := by rw [hnone]; rfl
      have hinbox : d.inbox k = [] := by
        rw [hnone] at hcomplete
        exact List.length_eq_zero_iff.1 hcomplete
      have hsame : Function.update n.available k [] = n.available := by
        rw [← hnone, Function.update_eq_self]
      simp only [processClientData, hread, hinbox, hsame]
      exact ⟨⟨h.connections, h.waiting, h.clients, h.connected, h.sent, h.pending⟩, [],
        (List.append_nil _).symm, rfl⟩
    · obtain ⟨l, rest, havailable, hl, hread, htext⟩ := readLoop_of_ready (hready hconnected) hnone
      cases hinbox : d.inbox k with
      | nil =>
          rw [havailable, hinbox, List.count_append, List.count_cons_self] at hcomplete
          cases hcomplete
      | cons r rs =>
          rw [havailable, hinbox, List.cons_append, stream_cons] at hbegins
          obtain ⟨rfl, -⟩ := line_of_begun hl r.newline_not_mem_text hbegins
          simp only [processClientData, hread, htext]
          exact ⟨h.take hinbox havailable _ _, [⟨k, clientNow, some r.text⟩], rfl,
            line_text x d k clientNow r⟩
  · rw [Network.serve, if_neg hconnected, Desk.serve, if_neg (hconnections ▸ hconnected)]
    exact ⟨h, [], (List.append_nil _).symm, rfl⟩

theorem Attends.foldl_serve {L : List ℕ} (hnodup : L.Nodup) (h : Attends script n d)
    (hready : ∀ k ∈ L, n.connected k = true → Ready (n.available k)) :
    ServesAs script x n d (L.foldl (Network.serve clientNow) n) (L.foldl (Desk.serve x) d) := by
  induction L generalizing n d with
  | nil => exact ⟨h, [], (List.append_nil _).symm, rfl⟩
  | cons a L ih =>
      obtain ⟨hfresh, hnodup⟩ := List.nodup_cons.1 hnodup
      have hfirst := h.serve x clientNow (hready a List.mem_cons_self)
      refine hfirst.trans x (ih hnodup hfirst.1 fun k hk hconnected => ?_)
      -- those behind `a` find what they have sent as it was
      have hne : k ≠ a := fun heq => hfresh (heq ▸ hk)
      rw [(serve_connections clientNow n a).connected] at hconnected
      rw [(serve_other clientNow n hne).available]
      exact hready k (List.mem_cons_of_mem a hk) hconnected

theorem Attends.accept (h : Attends script n d) : Attends script (Network.accept n) d.accept := by
  rw [Network.accept, Desk.accept, ← h.waiting]
  cases hwaiting : n.waiting with
  | nil => exact h
  | cons k waiting =>
      exact ⟨h.connections, rfl, congrArg (· ++ [k]) h.clients, h.connected, h.sent, h.pending⟩

theorem accept_executed (n : Network.State) : (Network.accept n).executed = n.executed := by
  unfold Network.accept
  split <;> rfl

theorem accept_bench (d : Desk) : d.accept.bench = d.bench := by
  unfold Desk.accept
  split <;> rfl

end Serve

/-! ## Runs -/

/-- The session is at the same point as the desk. -/
structure Shows (script : ℕ → List Request) (s : Session) (d : Desk) : Prop where
  attends : Attends script s.network d
  server : ServerInv s.network
  bench : s.bench = d.bench

section Steps

variable {script : ℕ → List Request} {s : Session} {d : Desk} (h : Shows script s d)

include h

theorem Shows.loop {x : Readings} (hok : Orderly script s (.loop x)) :
    Shows script (s.step (.loop x)) (d.step (.loop x)) := by
  have haccept := h.attends.accept
  have hserved := haccept.foldl_serve x ((accept s.network).clients.headD 0)
    h.server.accepted_nodup fun k hk hconnected => by
      rw [(accept_connections s.network).2.2] at hconnected
      rw [(accept_same s.network k).available]
      exact hok k hk hconnected
  obtain ⟨hattends, new, hexecuted, hbench⟩ := hserved
  rw [accept_executed] at hexecuted
  rw [accept_bench, ← h.bench] at hbench
  have hnew : (Network.loop s.network).executed = s.network.executed ++ new := by
    rw [loop_eq]
    exact hexecuted
  refine ⟨?_, step_serverInv s.network .loop h.server, ?_⟩
  · change Attends script (Network.loop s.network)
      { d.accept.clients.foldl (Desk.serve x) d.accept with
        clients := (d.accept.clients.foldl (Desk.serve x) d.accept).clients.filter
          (d.accept.clients.foldl (Desk.serve x) d.accept).connected }
    rw [loop_eq, ← haccept.clients]
    have hclients := congrArg₂ List.filter hattends.connected hattends.clients
    exact ⟨hattends.connections, hattends.waiting, hclients, hattends.connected, hattends.sent,
      hattends.pending⟩
  · change ((Network.loop s.network).executed.drop s.network.executed.length).foldl
      (Bench.line x) s.bench = (d.accept.clients.foldl (Desk.serve x) d.accept).bench
    rw [hnew, List.drop_left, hbench, haccept.clients]

/-- Some bytes of a client arrive. -/
theorem Shows.send {k : ℕ} {bytes : CString} (hok : Orderly script s (.send k bytes)) :
    Shows script (s.step (.send k bytes)) (d.step (.handIn k (bytes.count '\n'))) := by
  refine ⟨?_, step_serverInv s.network (.send k bytes) h.server, ?_⟩
  · have hconnections : s.network.connected k = d.connected k := congrFun h.attends.connected k
    by_cases hconnected : s.network.connected k = true
    · obtain ⟨done, hscript, hsent⟩ := h.attends.sent k
      obtain ⟨hbegins, hcomplete⟩ := h.attends.pending k
      -- the bytes go on with what has begun
      have hnext : s.network.available k ++ bytes <+: stream (d.inbox k ++ d.script k) := by
        have hwhole := hok hconnected
        rw [hsent, hscript, stream_append, List.append_assoc] at hwhole
        exact (List.prefix_append_right_inj _).1 hwhole
      have hcount : bytes.count '\n' ≤ (d.script k).length := by
        have hle := hnext.sublist.count_le '\n'
        rw [count_stream, List.count_append, List.length_append, ← hcomplete] at hle
        omega
      have hsplit : d.inbox k ++ (d.script k).take (bytes.count '\n') ++
          (d.script k).drop (bytes.count '\n') = d.inbox k ++ d.script k := by
        rw [List.append_assoc, List.take_append_drop]
      simp only [Session.step, Network.step, Desk.step, if_pos hconnected,
        if_pos (hconnections ▸ hconnected)]
      refine ⟨h.attends.connections, h.attends.waiting, h.attends.clients, h.attends.connected,
        fun k' => ?_, fun k' => ?_⟩
      · by_cases hk : k' = k
        · subst hk
          simp only [Function.update_self]
          exact ⟨done, by rw [hsplit, hscript], by rw [hsent, List.append_assoc]⟩
        · simp only [Function.update_of_ne hk]
          exact h.attends.sent k'
      · by_cases hk : k' = k
        · subst hk
          simp only [Function.update_self]
          refine ⟨hsplit ▸ hnext, ?_⟩
          rw [List.length_append, List.length_take, List.count_append, hcomplete,
            Nat.min_eq_left hcount]
        · simp only [Function.update_of_ne hk]
          exact h.attends.pending k'
    · simp only [Session.step, Network.step, Desk.step, if_neg hconnected,
        if_neg (hconnections ▸ hconnected)]
      exact h.attends
  · rw [Desk.step]
    split_ifs
    · exact h.bench
    · exact h.bench

theorem Shows.step {e : Event} (hok : Orderly script s e) :
    Shows script (s.step e) (d.step e.atDesk) := by
  cases e with
  | connect =>
      refine ⟨?_, step_serverInv s.network .connect h.server, h.bench⟩
      obtain ⟨hconnections, hwaiting, hclients, hconnected, hsent, hpending⟩ := h.attends
      refine ⟨congrArg (· + 1) hconnections, ?_, hclients, ?_, hsent, hpending⟩
      · change s.network.waiting ++ [s.network.connections] = d.waiting ++ [d.connections]
        rw [hwaiting, hconnections]
      · change Function.update s.network.connected s.network.connections true =
          Function.update d.connected d.connections true
        rw [hconnected, hconnections]
  | send k bytes => exact h.send hok
  | disconnect k =>
      refine ⟨?_, step_serverInv s.network (.disconnect k) h.server, h.bench⟩
      obtain ⟨hconnections, hwaiting, hclients, hconnected, hsent, hpending⟩ := h.attends
      refine ⟨hconnections, hwaiting, hclients, ?_, hsent, hpending⟩
      change Function.update s.network.connected k false = Function.update d.connected k false
      rw [hconnected]
  | loop x => exact h.loop hok
  | program e =>
      obtain ⟨hconnections, hwaiting, hclients, hconnected, hsent, hpending⟩ := h.attends
      exact ⟨⟨hconnections, hwaiting, hclients, hconnected, hsent, hpending⟩, h.server,
        congrArg (Bench.program · e) h.bench⟩

end Steps

/-- A server without connections, and the desk with all that its clients are going to ask. -/
def opened (i : Instrument) : Session := { bench := ⟨i, []⟩ }

def opening (script : ℕ → List Request) (i : Instrument) : Desk := { script, bench := ⟨i, []⟩ }

theorem shows_opened (script : ℕ → List Request) (i : Instrument) :
    Shows script (opened i) (opening script i) where
  attends :=
    { connections := rfl
      waiting := rfl
      clients := rfl
      connected := rfl
      sent := fun _ => ⟨[], rfl, rfl⟩
      pending := fun _ => ⟨List.nil_prefix, rfl⟩ }
  server := init_serverInv
  bench := rfl

/-- 1500 mV are set, and the voltage is measured. -/
def voltAndMeasure (k : ℕ) : List Request :=
  if k = 0 then
    [{ caller := .sourceVoltageSCPI
       header := "SOUR:VOLT".toList
       parameter := some 1500
       spells := by decide +kernel
       plain := by simp [isspace]
       fits := fun n hn => by obtain rfl := Option.mem_some.1 hn; omega },
      { caller := .measureVoltageSCPI
        header := "measure:volt?".toList
        spells := by decide +kernel
        plain := by simp [isspace]
        fits := fun _ hn => absurd hn (Option.not_mem_none _) }]
  else []

/-- The lines arrive in three pieces. -/
def pieces : List Event :=
  [.connect, .send 0 "SOUR:V".toList, .send 0 "OLT 1500\nmeas".toList, .loop {},
    .send 0 "ure:volt?\n".toList, .loop { V_FILTERS_mean := 1499 }]

end RemoteSession
end PoorMansSmu
