import FileTransfer.Client.CutOff
import FileTransfer.EndToEnd.RequestStream
import FileTransfer.EndToEnd.ResponseStream
import FileTransfer.Server.Endings
import FileTransfer.Server.Serving

/-!
# A client and its server, connected

A `Linked` is a client process and the thread that serves it: what the one writes
is fed to the other, and what that one answers comes in. `exec` gives the client's
operations this meaning, so the same programs run here. A read that waits for bytes
nobody is going to send is marked as stuck.

`session_refines` is what connects this to the two halves: a run here is a run of
the client alone on the responses, and a run of `handle_client` alone on the
requests.
-/

namespace FileTransfer.EndToEnd

open FileTransfer.Client FileTransfer.Server FileTransfer.Effect

/-! ## All of a stream at once -/

section Stream

variable {σ : Type} {select : Header → Bytes → σ → Except Raised Handled × σ} {c : Conn}

/-- A transport that returns all it is asked for reads a whole frame as one. -/
theorem receiveRequest_of_frame {header : Header} {payload rest : Bytes}
    (hcut : ∀ i, Constants.chunkSize ≤ c.cut i)
    (hframe : Conn.nextFrame c.stream = some (header, payload, rest)) :
    ∃ c', c.receiveRequest = (some (header, payload), c') ∧ c'.stream = rest ∧
      c'.cut = c.cut := by
  have hfull : c.FullReads := by
    rw [Conn.FullReads, hframe]
    refine grants_of_uncut hcut (fun n hn => ?_) _
    rcases List.mem_cons.mp hn with rfl | hn
    · decide
    · exact (pos_of_mem_chunkSizes (by decide) hn).2
  have hwell := (Conn.wellFramed_iff c).mpr hfull
  rw [Conn.WellFramed, hframe] at hwell
  exact ⟨c.receiveRequest.2, Prod.ext hwell.1 rfl, hwell.2, receiveRequest_cut c⟩

/-- **`handle_client` on a stream** does what the thread does as far as whole
requests go, and then what it does on the rest. -/
theorem handleClient_eq_advance (hcut : ∀ i, Constants.chunkSize ≤ c.cut i) (s : σ) :
    ∃ c', c'.stream = (Serving.advance select ⟨c.stream, true, s⟩).2.unread ∧
      handleClient select c s =
        if (Serving.advance select ⟨c.stream, true, s⟩).2.live then
          ((Serving.advance select ⟨c.stream, true, s⟩).1 ++
              (handleClient select c' (Serving.advance select ⟨c.stream, true, s⟩).2.state).1,
            (handleClient select c' (Serving.advance select ⟨c.stream, true, s⟩).2.state).2)
        else ((Serving.advance select ⟨c.stream, true, s⟩).1, c',
          (Serving.advance select ⟨c.stream, true, s⟩).2.state) := by
  induction hlen : c.stream.length using Nat.strong_induction_on generalizing c s with
  | _ len ih =>
    rcases hframe : Conn.nextFrame c.stream with _ | ⟨header, payload, rest⟩
    · have hwaits : Serving.advance select ⟨c.stream, true, s⟩ = ([], ⟨c.stream, true, s⟩) :=
        Serving.advance_of_waits fun _ => hframe
      rw [hwaits]
      exact ⟨c, rfl, rfl⟩
    obtain ⟨c₁, hreceive, rfl, hcut₁⟩ := receiveRequest_of_frame hcut hframe
    have hlt : c₁.stream.length < len := hlen ▸ length_nextFrame hframe
    have hnext := ih _ hlt (c := c₁) (by rwa [hcut₁])
    have hcall : handleRequest select c s = _ := handleRequest_eq select c s
    rw [hreceive] at hcall
    rw [Serving.advance_of_frame (s := ⟨c.stream, true, s⟩) rfl hframe]
    dsimp only at hcall ⊢
    generalize select header payload s = result at hcall ⊢
    rcases result with ⟨(e | _) | (_ | ⟨b, bs⟩) | _, s₁⟩
    · exact ⟨c₁, rfl, by rw [handleClient_eq, hcall]; rfl⟩
    · exact ⟨c₁, rfl, by rw [handleClient_eq, hcall]; rfl⟩
    · exact ⟨c₁, rfl, by rw [handleClient_eq, hcall]; rfl⟩
    · -- a response goes out, and the loop reads on behind the request
      obtain ⟨c', hstream, hrest⟩ := hnext s₁ rfl
      refine ⟨c', hstream, ?_⟩
      rw [handleClient_of_response select hcall (List.cons_ne_nil b bs), hrest]
      dsimp only
      split <;> rfl
    · -- the call that read a 901 is the call that reads what follows
      obtain ⟨c', hstream, hrest⟩ := hnext s₁ rfl
      refine ⟨c', hstream, ?_⟩
      have hsame : handleClient select c s = handleClient select c₁ s₁ := by
        rw [handleClient_eq, hcall, handleClient_eq select c₁]
      rw [hsame, hrest]

end Stream

/-! ## More to read -/

/-- More bytes have come in at the end. -/
def hears (ch : ConnectionHandler) (bytes : Bytes) : ConnectionHandler :=
  { ch with incoming := ch.incoming ++ bytes }

section Hears

variable {ch : ConnectionHandler} {bytes : Bytes}

theorem write_hears (data : Bytes) :
    (hears ch bytes).write data = ((ch.write data).1, hears (ch.write data).2 bytes) := by
  by_cases hle : data.length ≤ ch.room <;> simp [ConnectionHandler.write, hears, hle]

theorem sendLoop_hears (payload : Bytes) (size offset : Nat) :
    ConnectionHandler.sendLoop payload size offset (hears ch bytes) =
      ((ConnectionHandler.sendLoop payload size offset ch).1,
        hears (ConnectionHandler.sendLoop payload size offset ch).2 bytes) := by
  induction size using Nat.strong_induction_on generalizing offset ch with
  | _ size ih =>
    rw [ConnectionHandler.sendLoop, ConnectionHandler.sendLoop]
    by_cases hpos : 0 < size
    swap
    · rw [dif_neg hpos, dif_neg hpos]
    have hchunk : 0 < chunkSize := by decide
    rw [dif_pos hpos, dif_pos hpos]
    dsimp only
    cases peek payload offset (min size chunkSize) with
    | none => rfl
    | some data =>
      dsimp only
      rw [write_hears]
      rcases ch.write data with ⟨e | n, ch₁⟩
      · rfl
      dsimp only
      split
      · rfl
      · have herror : (hears ch₁ bytes).error = ch₁.error := rfl
        rw [herror]
        split
        · rfl
        · exact ih _ (by omega) _

/-- What is still to be read does not matter to what is sent. -/
theorem sendData_hears (packet : RequestPacket) :
    ConnectionHandler.sendData packet (hears ch bytes) =
      ((ConnectionHandler.sendData packet ch).1,
        hears (ConnectionHandler.sendData packet ch).2 bytes) := by
  simp only [ConnectionHandler.sendData,
    setReqHeaderBinaryData_eq packet (List.length_replicate ..), write_hears]
  rcases ch.write (headerBytes packet) with ⟨e | n, ch₁⟩
  · rfl
  dsimp only
  split
  · rfl
  · exact sendLoop_hears _ _ _

/-- A well-formed response is one that `init_response` builds. -/
theorem exists_build {frame : Bytes} (h : WellFormed frame) :
    ∃ r : Response, r.build = .ok frame := by
  obtain ⟨hlen, hsize⟩ := h
  have hfield : ∀ n, n ≤ frame.length → ∀ k, (slice frame k n).length = n - k := by
    intro n hn k
    rw [slice, List.length_drop, List.length_take]
    omega
  have hversion := fromLE_lt (slice frame 0 1)
  have hcode := fromLE_lt (slice frame 1 3)
  have hcount := fromLE_lt (slice frame 3 7)
  have hv := toLE_fromLE (slice frame 0 1)
  have hc := toLE_fromLE (slice frame 1 3)
  have hn := toLE_fromLE (slice frame 3 7)
  rw [hfield 1 (by omega)] at hversion hv
  rw [hfield 3 (by omega)] at hcode hc
  rw [hfield 7 hlen, hsize] at hcount hn
  have hpayload : (frame.drop 7).length = frame.length - 7 := List.length_drop
  refine ⟨⟨fromLE (slice frame 0 1), fromLE (slice frame 1 3), frame.drop 7⟩, ?_⟩
  have hfits : fromLE (slice frame 0 1) < 2 ^ 8 ∧ fromLE (slice frame 1 3) < 2 ^ 16 ∧
      frame.length - 7 < 2 ^ 32 := ⟨hversion, hcode, hcount⟩
  simp only [Response.build, initResponse, packHeader, hpayload, if_pos hfits, hv, hc, hn]
  have hseams : ∀ {i j k : Nat}, i ≤ j → j ≤ k →
      slice frame i k = slice frame i j ++ slice frame j k := by
    intro i j k hij hjk
    have hfront : slice frame i j = (frame.drop i).take (j - i) := List.drop_take
    rw [slice_split frame (show i + (j - i) ≤ k by omega), hfront, Nat.add_sub_cancel' hij]
  have hall : slice frame 0 1 ++ slice frame 1 3 ++ slice frame 3 7 ++ frame.drop 7 = frame := by
    rw [← hseams (by decide) (by decide), ← hseams (by decide) (by decide), slice,
      List.drop_zero, List.take_append_drop]
  exact congrArg Except.ok hall

/-- Reading writes nothing. -/
theorem receiveLoop_outgoing (payloadSize toGet : Nat) (packet : ResponsePacket)
    (ch : ConnectionHandler) :
    (ConnectionHandler.receiveLoop payloadSize toGet packet ch).2.2.outgoing = ch.outgoing := by
  induction payloadSize using Nat.strong_induction_on generalizing toGet packet ch with
  | _ payloadSize ih =>
    rw [ConnectionHandler.receiveLoop]
    by_cases hpos : 0 < payloadSize
    swap
    · rw [dif_neg hpos]
    rw [dif_pos hpos]
    dsimp only
    split
    · rfl
    · split
      · rfl
      · next hread =>
        have hle : (ch.read toGet).1.length ≤ toGet := List.length_take_le _ _
        exact ih _ (by omega) _ _ _

theorem receiveData_outgoing (packet : ResponsePacket) (ch : ConnectionHandler) :
    (ConnectionHandler.receiveData packet ch).2.2.outgoing = ch.outgoing := by
  rw [ConnectionHandler.receiveData]
  split
  · rfl
  · split
    · rfl
    · exact receiveLoop_outgoing _ _ _ _

/-- A whole response can be told from what follows it. -/
theorem exists_wellFormed {incoming : Bytes} (h : ¬ CutOff incoming) :
    ∃ frame rest, WellFormed frame ∧ incoming = frame ++ rest := by
  have hwhole : 7 + fromLE (slice incoming 3 7) ≤ incoming.length := Nat.le_of_not_lt h
  generalize hsize : fromLE (slice incoming 3 7) = size at hwhole
  refine ⟨incoming.take (7 + size), incoming.drop (7 + size), ⟨?_, ?_⟩,
    (List.take_append_drop _ _).symm⟩
  · rw [List.length_take]
    omega
  · have hslice : slice (incoming.take (7 + size)) 3 7 = slice incoming 3 7 := by
      rw [slice, slice, List.take_take, Nat.min_eq_left (by omega)]
    rw [hslice, hsize, List.length_take, Nat.min_eq_left hwhole, Nat.add_sub_cancel_left]

/-- A response that is there is read alike, whatever stands behind it. -/
theorem receiveData_hears (h : ¬ CutOff ch.incoming) (packet : ResponsePacket) :
    ConnectionHandler.receiveData packet (hears ch bytes) =
      ((ConnectionHandler.receiveData packet ch).1,
        (ConnectionHandler.receiveData packet ch).2.1,
        hears (ConnectionHandler.receiveData packet ch).2.2 bytes) := by
  obtain ⟨frame, rest, hwell, hin⟩ := exists_wellFormed h
  obtain ⟨r, hbuilt⟩ := exists_build hwell
  have hmore : (hears ch bytes).incoming = frame ++ (rest ++ bytes) := by
    rw [hears, hin, List.append_assoc]
  rw [receiveData_of_frame hbuilt packet hin, receiveData_of_frame hbuilt packet hmore]
  rfl

end Hears

/-! ## The two together -/

/-- `stuck` says that the client has waited for bytes that the thread, itself
waiting, was not going to send. What comes after that is no run of the system. -/
structure Linked (K σ : Type) where
  client : Process K
  server : Serving σ
  stuck : Bool

namespace Linked

variable {K σ α : Type} (select : Header → Bytes → σ → Except Raised Handled × σ)

/-- The process with more bytes to read. -/
def told (c : Process K) (bytes : Bytes) : Process K :=
  { c with connection := hears c.connection bytes }

/-- What an operation of the client does to the two: what it writes is served at
once, and what is sent back comes in. -/
def exec : Handler (clientOps K) Fault (Linked K σ)
  | .sendData, s =>
    let result := Client.exec .sendData s.client
    let wrote := result.2.connection.outgoing.drop s.client.connection.outgoing.length
    let served := s.server.feed select wrote
    (result.1, { s with client := told result.2 served.1.flatten, server := served.2 })
  | .receiveData, s =>
    let result := Client.exec .receiveData s.client
    (result.1, { s with
      client := result.2
      -- `boost::asio::read` goes on until the buffer is full or the thread is gone
      stuck := s.stuck ||
        (s.server.live && decide (CutOff s.client.connection.incoming)) })
  | o, s => ((Client.exec o s.client).1, { s with client := (Client.exec o s.client).2 })

/-- The client has just connected: `_connectionHandler.setConnection()` and
`accept_client`. The connection holds for `room` bytes. -/
def connect (c : Process K) (room : Nat) (state : σ) : Linked K σ :=
  ⟨{ c with connection := ⟨[], [], room, false⟩ }, ⟨[], true, state⟩, false⟩

/-- An operation with a value came to an end. -/
def finish : Except Fault Bool × Linked K σ → Linked K σ
  | (r, s) => { s with client := Process.finish (r, s.client) }

variable (pf : Platform K)

/-- What calling an operation makes of the two. -/
def call : Operation → Linked K σ → Linked K σ
  | .signIn, s => finish (Program.run (exec select) (signIn pf) s)
  | .registerNewClient, s => finish (Program.run (exec select) (registerNewClient pf) s)
  | .uploadFile, s =>
    match Program.run (exec select) (uploadFile pf) s with
    | (.ok .returned, s') => s'
    | (_, s') => { s' with client := { s'.client with running := false } }

/-- The operations one after another, as long as the process lives. -/
def callAll : List Operation → Linked K σ → Linked K σ
  | [], s => s
  | operation :: rest, s =>
    let s' := call select pf operation s
    if s'.client.running then callAll rest s' else s'

/-! ## Operations and what is still to be read -/

section Told

variable {c : Process K} {bytes : Bytes}

@[simp] theorem told_nil (c : Process K) : told c [] = c := by
  simp [told, hears]

theorem told_append (c : Process K) (first second : Bytes) :
    told c (first ++ second) = told (told c first) second := by
  simp [told, hears]

/-- Only a read looks at what has come in. -/
theorem exec_told {o : ClientOp K}
    (h : o = .receiveData → ¬ CutOff c.connection.incoming ∨ bytes = []) :
    Client.exec o (told c bytes) = ((Client.exec o c).1, told (Client.exec o c).2 bytes) := by
  cases o with
  | sendData =>
    have hsend := @sendData_hears c.connection bytes c.members.requestPacket
    simp only [Client.exec, told, hsend, Process.sends]
  | receiveData =>
    rcases h rfl with hwhole | rfl
    swap
    · rw [told_nil, told_nil]
    have hreceive := @receiveData_hears c.connection bytes hwhole c.members.responsePacket
    simp only [Client.exec, told, hreceive]
    split <;> rfl
  | _ => rfl

/-- What was written stays written, and only a send writes. -/
theorem outgoing_exec (o : ClientOp K) (c : Process K) :
    c.connection.outgoing <+: (Client.exec o c).2.connection.outgoing ∧
      (o ≠ .sendData → (Client.exec o c).2.connection.outgoing = c.connection.outgoing) := by
  cases o with
  | sendData => exact ⟨(writes_sendData _ _).1, fun h => absurd rfl h⟩
  | receiveData =>
    have hkept : (Client.exec .receiveData c).2.connection.outgoing = c.connection.outgoing := by
      have hreceive := receiveData_outgoing c.members.responsePacket c.connection
      simp only [Client.exec]
      split <;> exact hreceive
    exact ⟨hkept ▸ List.prefix_refl _, fun _ => hkept⟩
  | _ => exact ⟨List.prefix_refl _, fun _ => rfl⟩

end Told

/-! ## The two halves of a run -/

variable {select} {s : Linked K σ}

/-- A send, on what it writes. -/
theorem exec_sendData {sent : Except Fault Bool} {connection : ConnectionHandler} {wrote : Bytes}
    (hsend : ConnectionHandler.sendData s.client.members.requestPacket s.client.connection =
      (sent, connection))
    (hwrote : connection.outgoing = s.client.connection.outgoing ++ wrote) :
    exec select .sendData s = (sent, { s with
      client := told (s.client.sends connection) (s.server.feed select wrote).1.flatten
      server := (s.server.feed select wrote).2 }) := by
  have hdrop : (s.client.sends connection).connection.outgoing.drop
      s.client.connection.outgoing.length = wrote := by
    show connection.outgoing.drop _ = wrote
    rw [hwrote, List.drop_left]
  simp only [exec, Client.exec, hsend, hdrop]
  rfl

/-- One operation: what is written, what is sent back, and the client alone on more
than that. -/
theorem exec_halves (hwaits : s.server.Waits) {o : ClientOp K}
    (hgoing : (exec select o s).2.stuck = false) :
    ∃ wrote responses, s.stuck = false ∧
      (exec select o s).2.client.connection.outgoing = s.client.connection.outgoing ++ wrote ∧
      s.server.feed select wrote = (responses, (exec select o s).2.server) ∧
      (exec select o s).2.server.Waits ∧
      ∀ more, ((exec select o s).2.server.live = false → more = []) →
        Client.exec o (told s.client (responses.flatten ++ more)) =
          ((exec select o s).1, told (exec select o s).2.client more) := by
  by_cases hsend : o = .sendData
  · subst hsend
    obtain ⟨wrote, hwrote⟩ := (outgoing_exec (K := K) .sendData s.client).1
    have hexec : exec select .sendData s = ((Client.exec .sendData s.client).1, { s with
        client := told (Client.exec .sendData s.client).2
          (s.server.feed select wrote).1.flatten
        server := (s.server.feed select wrote).2 }) := exec_sendData rfl hwrote.symm
    rw [hexec] at hgoing ⊢
    refine ⟨wrote, (s.server.feed select wrote).1, hgoing, hwrote.symm, rfl,
      Serving.waits_feed _ _, fun more _ => ?_⟩
    have halone := @exec_told K s.client ((s.server.feed select wrote).1.flatten ++ more)
      .sendData fun h => by cases h
    rw [halone, told_append]
  · -- nothing is written, and the thread goes on waiting
    have hserver : (exec select o s).2.server = s.server := by
      cases o <;> first | rfl | exact absurd rfl hsend
    have hclient : (exec select o s).2.client = (Client.exec o s.client).2 := by
      cases o <;> first | rfl | exact absurd rfl hsend
    have hreply : (exec select o s).1 = (Client.exec o s.client).1 := by
      cases o <;> rfl
    have hread : s.stuck = false ∧ (o = .receiveData →
        s.server.live = false ∨ ¬ CutOff s.client.connection.incoming) := by
      cases o with
      | sendData => exact absurd rfl hsend
      | receiveData =>
        simp only [exec, Bool.or_eq_false_iff, Bool.and_eq_false_iff, decide_eq_false_iff_not]
          at hgoing
        exact ⟨hgoing.1, fun _ => hgoing.2⟩
      | _ => exact ⟨hgoing, fun h => by cases h⟩
    refine ⟨[], [], hread.1, ?_, ?_, ?_, fun more hmore => ?_⟩
    · rw [hclient, List.append_nil]
      exact (outgoing_exec o s.client).2 hsend
    · rw [hserver, Serving.feed_nil hwaits]
    · rw [hserver]
      exact hwaits
    · rw [hserver] at hmore
      rw [hreply, hclient, List.flatten_nil, List.nil_append]
      refine exec_told fun ho => ?_
      rcases hread.2 ho with hdead | hwhole
      · exact .inr (hmore hdead)
      · exact .inl hwhole

/-- Once stuck, stuck. -/
theorem stuck_run (p : Cpp K α) (hstuck : s.stuck = true) :
    (Program.run (exec select) p s).2.stuck = true := by
  refine Program.run_invariant (I := fun t : Linked K σ => t.stuck = true)
    (fun o t _ ht => ⟨trivial, ?_⟩) (Program.uses_trivial p) hstuck
  cases o <;> simp [exec, ht]

/-- Unless a run gets stuck, there is what the client wrote and what was sent back,
such that the thread, fed all of it at once, sends just that, and the client alone,
with all responses and more there from the start, does the same and leaves what is more. -/
theorem run_halves (p : Cpp K α) (hwaits : s.server.Waits)
    (hgoing : (Program.run (exec select) p s).2.stuck = false) :
    ∃ wrote responses,
      (Program.run (exec select) p s).2.client.connection.outgoing =
        s.client.connection.outgoing ++ wrote ∧
      s.server.feed select wrote = (responses, (Program.run (exec select) p s).2.server) ∧
      (Program.run (exec select) p s).2.server.Waits ∧
      ∀ more, ((Program.run (exec select) p s).2.server.live = false → more = []) →
        Program.run Client.exec p (told s.client (responses.flatten ++ more)) =
          ((Program.run (exec select) p s).1,
            told (Program.run (exec select) p s).2.client more) := by
  induction p generalizing s with
  | ret a =>
    exact ⟨[], [], (List.append_nil _).symm, Serving.feed_nil hwaits, hwaits, fun _ _ => rfl⟩
  | throw e =>
    exact ⟨[], [], (List.append_nil _).symm, Serving.feed_nil hwaits, hwaits, fun _ _ => rfl⟩
  | perform o k ih =>
    have hfirst : (exec select o s).2.stuck = false := by
      by_contra hstuck
      have hlast := @stuck_run _ _ _ select _ (k (exec select o s).1)
        (Bool.not_eq_false _ ▸ hstuck)
      exact absurd (hgoing.symm.trans hlast) (by decide)
    obtain ⟨wrote, responses, -, hout, hfeed, hwaits', halone⟩ := exec_halves hwaits hfirst
    obtain ⟨wrote', responses', hout', hfeed', hwaits'', halone'⟩ := ih _ hwaits' hgoing
    refine ⟨wrote ++ wrote', responses ++ responses', ?_, ?_, hwaits'', fun more hmore => ?_⟩
    · rw [Program.run_perform, hout', hout, List.append_assoc]
    · rw [Serving.feed_append, hfeed, hfeed', Program.run_perform]
    · have hrest : (exec select o s).2.server.live = false → responses'.flatten ++ more = [] := by
        intro hdead
        have hnone := @Serving.feed_of_not_live _ select _ hdead wrote'
        rw [hfeed'] at hnone
        obtain ⟨rfl, hserver⟩ := Prod.mk.inj hnone
        rw [List.flatten_nil, List.nil_append]
        refine hmore ?_
        rw [Program.run_perform, hserver]
        exact hdead
      rw [List.flatten_append, List.append_assoc, Program.run_perform, halone _ hrest,
        halone' _ hmore, Program.run_perform]

/-- With no whole request to come, nothing more is sent. -/
theorem handleClient_of_nil {c : Conn} (h : c.stream = []) (w : σ) :
    ∃ c', handleClient select c w = ([], c', w) := by
  have hshort : c.stream.length < Constants.headerSize := by
    rw [h]
    decide
  have hnone := (Conn.receiveRequest_eq_none_iff c).mpr (.inl hshort)
  have hcall : handleRequest select c w = (some [], c.receiveRequest.2, w) := by
    rw [handleRequest_eq, ← Prod.mk.eta (p := c.receiveRequest), hnone]
  exact ⟨c.receiveRequest.2, by rw [handleClient_eq, hcall]⟩

/-! ## Whole sessions -/

section Sessions

variable {pf : Platform K}

/-- The operations one after another, of a process by itself. -/
def callAlone (pf : Platform K) : List Operation → Process K → Process K
  | [], c => c
  | operation :: rest, c =>
    let c' := operation.call pf c
    if c'.running then callAlone pf rest c' else c'

theorem told_finish (r : Except Fault Bool) (c : Process K) (bytes : Bytes) :
    Process.finish (r, told c bytes) = told (Process.finish (r, c)) bytes := by
  cases r <;> rfl

@[simp] theorem told_running (c : Process K) (bytes : Bytes) :
    (told c bytes).running = c.running := rfl

/-- Once stuck, stuck. -/
theorem stuck_call (operation : Operation) (hstuck : s.stuck = true) :
    (call select pf operation s).stuck = true := by
  cases operation with
  | signIn => exact stuck_run (Client.signIn pf) hstuck
  | registerNewClient => exact stuck_run (Client.registerNewClient pf) hstuck
  | uploadFile =>
    have hrun := @stuck_run _ _ _ select _ (uploadFile pf) hstuck
    rw [call]
    generalize Program.run (exec select) (uploadFile pf) s = result at hrun ⊢
    rcases result with ⟨e | _ | _, t⟩ <;> exact hrun

theorem stuck_callAll (operations : List Operation) (hstuck : s.stuck = true) :
    (callAll select pf operations s).stuck = true := by
  induction operations generalizing s with
  | nil => exact hstuck
  | cons operation rest ih =>
    have hcall := @stuck_call _ _ select _ pf operation hstuck
    rw [callAll]
    split
    · exact ih hcall
    · exact hcall

/-- One operation, in its two halves. -/
theorem call_halves (operation : Operation) (hwaits : s.server.Waits)
    (hgoing : (call select pf operation s).stuck = false) :
    ∃ wrote responses,
      (call select pf operation s).client.connection.outgoing =
        s.client.connection.outgoing ++ wrote ∧
      s.server.feed select wrote = (responses, (call select pf operation s).server) ∧
      (call select pf operation s).server.Waits ∧
      ∀ more, ((call select pf operation s).server.live = false → more = []) →
        operation.call pf (told s.client (responses.flatten ++ more)) =
          told (call select pf operation s).client more := by
  have hfinish : ∀ p : Cpp K Bool, (Program.run (exec select) p s).2.stuck = false →
      ∃ wrote responses,
        (finish (Program.run (exec select) p s)).client.connection.outgoing =
          s.client.connection.outgoing ++ wrote ∧
        s.server.feed select wrote = (responses, (finish (Program.run (exec select) p s)).server) ∧
        (finish (Program.run (exec select) p s)).server.Waits ∧
        ∀ more, ((finish (Program.run (exec select) p s)).server.live = false → more = []) →
          Process.finish (Program.run Client.exec p (told s.client (responses.flatten ++ more))) =
            told (finish (Program.run (exec select) p s)).client more := by
    intro p hp
    obtain ⟨wrote, responses, hout, hfeed, hwaits', halone⟩ := run_halves p hwaits hp
    refine ⟨wrote, responses, ?_, hfeed, hwaits', fun more hmore => ?_⟩
    · rw [← hout]
      rcases Program.run (exec select) p s with ⟨e | b, t⟩ <;> rfl
    · rw [halone more hmore, told_finish]
      rfl
  cases operation with
  | signIn => exact hfinish (Client.signIn pf) hgoing
  | registerNewClient => exact hfinish (Client.registerNewClient pf) hgoing
  | uploadFile =>
    have hrun : (Program.run (exec select) (uploadFile pf) s).2.stuck = false := by
      rw [← hgoing, call]
      rcases Program.run (exec select) (uploadFile pf) s with ⟨e | _ | _, t⟩ <;> rfl
    obtain ⟨wrote, responses, hout, hfeed, hwaits', halone⟩ :=
      run_halves (uploadFile pf) hwaits hrun
    refine ⟨wrote, responses, ?_⟩
    simp only [call, Operation.call]
    generalize Program.run (exec select) (uploadFile pf) s = result at *
    rcases result with ⟨e | _ | _, t⟩
    · exact ⟨hout, hfeed, hwaits', fun more hmore => by rw [halone more hmore]; rfl⟩
    · exact ⟨hout, hfeed, hwaits', fun more hmore => by rw [halone more hmore]⟩
    · exact ⟨hout, hfeed, hwaits', fun more hmore => by rw [halone more hmore]; rfl⟩

/-- A session, in its two halves. -/
theorem callAll_halves (operations : List Operation) (hwaits : s.server.Waits)
    (hgoing : (callAll select pf operations s).stuck = false) :
    ∃ wrote responses,
      (callAll select pf operations s).client.connection.outgoing =
        s.client.connection.outgoing ++ wrote ∧
      s.server.feed select wrote = (responses, (callAll select pf operations s).server) ∧
      ∀ more, ((callAll select pf operations s).server.live = false → more = []) →
        callAlone pf operations (told s.client (responses.flatten ++ more)) =
          told (callAll select pf operations s).client more := by
  induction operations generalizing s with
  | nil =>
    exact ⟨[], [], (List.append_nil _).symm, Serving.feed_nil hwaits, fun _ _ => rfl⟩
  | cons operation rest ih =>
    simp only [callAll] at hgoing ⊢
    have hfirst : (call select pf operation s).stuck = false := by
      by_contra hstuck
      have htrue : (call select pf operation s).stuck = true := Bool.not_eq_false _ ▸ hstuck
      split at hgoing
      · rw [stuck_callAll rest htrue] at hgoing
        cases hgoing
      · exact hstuck hgoing
    obtain ⟨wrote, responses, hout, hfeed, hwaits', halone⟩ := call_halves operation hwaits hfirst
    by_cases hruns : (call select pf operation s).client.running = true
    · rw [if_pos hruns] at hgoing ⊢
      obtain ⟨wrote', responses', hout', hfeed', halone'⟩ := ih hwaits' hgoing
      refine ⟨wrote ++ wrote', responses ++ responses', ?_, ?_, fun more hmore => ?_⟩
      · rw [hout', hout, List.append_assoc]
      · rw [Serving.feed_append, hfeed, hfeed']
      · have hrest : (call select pf operation s).server.live = false →
            responses'.flatten ++ more = [] := by
          intro hdead
          have hnone := @Serving.feed_of_not_live _ select _ hdead wrote'
          rw [hfeed'] at hnone
          obtain ⟨rfl, hserver⟩ := Prod.mk.inj hnone
          rw [List.flatten_nil, List.nil_append]
          refine hmore ?_
          rw [hserver]
          exact hdead
        rw [List.flatten_append, List.append_assoc, callAlone]
        simp only [halone _ hrest, told_running, hruns, if_true]
        exact halone' more hmore
    · rw [if_neg hruns] at hgoing ⊢
      refine ⟨wrote, responses, hout, hfeed, fun more hmore => ?_⟩
      rw [callAlone]
      simp only [halone more hmore, told_running, hruns, if_false, Bool.false_eq_true]

/-- **A session is one of the client and one of `handle_client`**, joined by the bytes.
Unless it gets stuck, and if it leaves no request half sent: on what the client wrote,
however a transport that cuts no chunk hands it over, `handle_client` sends certain
responses and leaves the state of the session; and on these responses the client alone
does what it did here. -/
theorem session_refines {operations : List Operation} {w : σ} (hstart : s.server = ⟨[], true, w⟩)
    (hgoing : (callAll select pf operations s).stuck = false)
    (hwhole : (callAll select pf operations s).server.live = true →
      (callAll select pf operations s).server.unread = []) :
    ∃ wrote responses,
      (callAll select pf operations s).client.connection.outgoing =
        s.client.connection.outgoing ++ wrote ∧
      (∀ cut : Nat → Nat, (∀ i, Constants.chunkSize ≤ cut i) →
        ∃ c, handleClient select ⟨wrote, cut, 0⟩ w =
          (responses, c, (callAll select pf operations s).server.state)) ∧
      callAlone pf operations (told s.client responses.flatten) =
        (callAll select pf operations s).client := by
  have hwaits : s.server.Waits := by
    rw [hstart]
    exact fun _ => rfl
  obtain ⟨wrote, responses, hout, hfeed, halone⟩ := callAll_halves operations hwaits hgoing
  have hclient := halone [] fun _ => rfl
  rw [List.append_nil, told_nil] at hclient
  refine ⟨wrote, responses, hout, fun cut hcut => ?_, hclient⟩
  generalize callAll select pf operations s = last at hfeed hwhole
  have hadvance : Serving.advance select ⟨wrote, true, w⟩ = (responses, last.server) := by
    rw [← hfeed, hstart]
    rfl
  obtain ⟨c, hstream, hall⟩ := @handleClient_eq_advance σ select ⟨wrote, cut, 0⟩ hcut w
  rw [hadvance] at hstream hall
  by_cases hlive : last.server.live = true
  · obtain ⟨c', hnil⟩ := @handleClient_of_nil σ select c (hstream.trans (hwhole hlive))
      last.server.state
    rw [if_pos hlive, hnil, List.append_nil] at hall
    exact ⟨c', hall⟩
  · rw [if_neg hlive] at hall
    exact ⟨c, hall⟩

end Sessions

end Linked

end FileTransfer.EndToEnd
