import FileTransfer.Client.Exchanging
import FileTransfer.EndToEnd.Linked
import FileTransfer.Server.Answers

/-!
# Client and server stay in step

Between two exchanges nothing is on its way: the client has read all that was sent,
and the thread waits for a new request. `InStep` says so, each `sendAndRecieve` keeps
it, and with it a read never waits for bytes that do not come. This needs nothing of
the server but `Polite`, which `req_select` is in every world and with any other
threads at work.
-/

namespace FileTransfer.EndToEnd

open FileTransfer.Client FileTransfer.Server FileTransfer.Effect
open Program (Triple)

/-! ## What is sent is a request -/

section Prepared

/-- The header fields are those of the protocol, and the size is that of the payload. -/
def Framed (packet : RequestPacket) : Prop :=
  packet.version = version ∧ packet.payloadSize.toNat = packet.payload.length

theorem framed_initRequest (packet : RequestPacket) (code : RequestCode) (length : UInt32) :
    Framed (initRequest packet code length) :=
  ⟨rfl, (List.length_replicate ..).symm⟩

/-- Filling in the payload changes no length. -/
theorem Framed.blit {packet : RequestPacket} (h : Framed packet) {data payload : Bytes} {off : Nat}
    (hblit : blit packet.payload off data = some payload) :
    Framed { packet with payload := payload } :=
  ⟨h.1, h.2.trans (length_blit hblit).symm⟩

/-- A framed packet is one that the requests of a session are made of. -/
theorem Framed.prepared {packet : RequestPacket} {code : RequestCode} (h : Framed packet)
    (hcode : packet.code = code.value) : ∃ r : Request, r.code = code ∧
      packet = r.prepare packet := by
  obtain ⟨clientID, version, code', payloadSize, payload⟩ := packet
  obtain ⟨hversion, hsize⟩ := h
  dsimp only at hversion hsize hcode
  have hlt : payload.length < 2 ^ 32 := hsize ▸ payloadSize.toNat_lt
  refine ⟨⟨clientID, code, payload, hlt⟩, rfl, ?_⟩
  have hcount : UInt32.ofNat payload.length = payloadSize := by
    rw [← hsize, UInt32.ofNat_toNat]
  simp only [Request.prepare, initRequest, hversion, hcode, hcount]

theorem framed_registreationRequest {userName : Bytes} {packet packet' : RequestPacket}
    (h : registreationRequest userName packet = .ok packet') : Framed packet' := by
  simp only [registreationRequest, bind_eq_ok, inBounds_eq_ok] at h
  obtain ⟨payload, hblit, hpacket⟩ := h
  cases hpacket
  exact (framed_initRequest _ _ _).blit hblit

theorem framed_sendPublicKey {userName publicKey : Bytes} {packet packet' : RequestPacket}
    (h : sendPublicKey userName publicKey packet = .ok packet') : Framed packet' := by
  simp only [sendPublicKey, bind_eq_ok, inBounds_eq_ok] at h
  obtain ⟨named, hnamed, payload, hblit, hpacket⟩ := h
  cases hpacket
  exact ((framed_initRequest _ _ _).blit hnamed).blit hblit

theorem framed_crcRequest {code : RequestCode} {filename : Bytes} {packet packet' : RequestPacket}
    (h : crcRequest code filename packet = .ok packet') : Framed packet' := by
  simp only [crcRequest, bind_eq_ok, inBounds_eq_ok] at h
  obtain ⟨name, -, payload, hblit, hpacket⟩ := h
  cases hpacket
  exact (framed_initRequest _ _ _).blit hblit

theorem framed_clientSignIn {me : Option Bytes} {packet packet' : RequestPacket}
    (h : clientSignIn me packet = .ok (true, packet')) : Framed packet' := by
  simp only [clientSignIn] at h
  split at h
  · next hbody =>
    cases h
    simp only [signInRequest, bind_eq_ok, inBounds_eq_ok] at hbody
    obtain ⟨_, -, uuid, -, clientID, -, payload, hblit, hpacket⟩ := hbody
    cases hpacket
    exact (framed_initRequest _ _ _).blit hblit
  · cases h
  · cases h

theorem framed_encryptFile {aes : Bytes → Bytes → Bytes} {rh rh' : RequestHandler}
    {disk : Bytes → Option Bytes} {packet packet' : RequestPacket}
    (h : rh.encryptFile aes disk packet = .ok (true, rh', packet')) : Framed packet' := by
  simp only [RequestHandler.encryptFile] at h
  split at h
  · cases h
  · split at h
    · next hopened =>
      cases h
      simp only [RequestHandler.encryptOpened, RequestHandler.setEncryptionPayload, bind_eq_ok,
        inBounds_eq_ok] at hopened
      obtain ⟨_, -, enc, -, p₁, h₁, p₂, h₂, p₃, h₃, p₄, h₄, name, -, p₅, h₅, p₆, h₆,
        hpacket⟩ := hopened
      cases hpacket
      exact ((((((framed_initRequest _ _ _).blit h₁).blit h₂).blit h₃).blit h₄).blit h₅).blit h₆
    · cases h
    · cases h

variable {K : Type} {aes : Bytes → Bytes → Bytes} {c c₁ : Process K}

theorem framed_loadRequest {request : Members K → Except Fault RequestPacket}
    (hframed : ∀ packet, request c.members = .ok packet → Framed packet)
    (h : Program.run exec (loadRequest request) c = (.ok true, c₁)) :
    Framed c₁.members.requestPacket := by
  simp only [loadRequest, Program.run_bind, Cpp.run_members, Cpp.run_lift] at h
  cases hrequest : request c.members with
  | error e =>
    rw [hrequest] at h
    cases h
  | ok packet =>
    rw [hrequest] at h
    simp only [Cpp.run_assign, Program.pure_eq, Program.run_ret] at h
    cases h
    exact hframed packet hrequest

theorem framed_requestSelector {code : RequestCode}
    (h : Program.run exec (requestSelector aes code) c = (.ok true, c₁)) :
    Framed c₁.members.requestPacket := by
  cases code with
  | register => exact framed_loadRequest (fun _ => framed_registreationRequest) h
  | sPublicKey => exact framed_loadRequest (fun _ => framed_sendPublicKey) h
  | validCrc => exact framed_loadRequest (fun _ => framed_crcRequest) h
  | nValidCrc => exact framed_loadRequest (fun _ => framed_crcRequest) h
  | exitCrc => exact framed_loadRequest (fun _ => framed_crcRequest) h
  | reconnect =>
    simp only [requestSelector, loadSignIn, Program.run_bind, Cpp.run_members, Cpp.run_ifstream,
      Cpp.run_lift] at h
    rcases hsign : clientSignIn (c.folder.ifstream meInfo) c.members.requestPacket with
      e | ⟨status, packet⟩
    · rw [hsign] at h
      cases h
    · rw [hsign] at h
      simp only [Cpp.run_assign, Program.pure_eq, Program.run_ret] at h
      cases h
      exact framed_clientSignIn hsign
  | sendFile =>
    simp only [requestSelector, loadUpload, Program.run_bind, Cpp.run_members, Cpp.run_ifstream,
      Cpp.run_lift] at h
    rcases hencrypt : c.members.requestHandler.encryptFile aes
      (fun _ => c.folder.ifstream c.members.requestHandler.transferInfo.path)
      c.members.requestPacket with e | ⟨status, rh, packet⟩
    · rw [hencrypt] at h
      cases h
    · rw [hencrypt] at h
      simp only [Cpp.run_assign, Program.pure_eq, Program.run_ret] at h
      cases h
      exact framed_encryptFile hencrypt

/-- **What `requestSelector` loads is a request** for its code. -/
theorem requestSelector_prepares {code : RequestCode}
    (h : Program.run exec (requestSelector aes code) c = (.ok true, c₁)) :
    ∃ r : Request, r.code = code ∧
      c₁.members.requestPacket = r.prepare c₁.members.requestPacket := by
  have hloads := requestSelector_loads aes code c
  rw [h] at hloads
  exact (framed_requestSelector h).prepared hloads.code_eq

end Prepared

/-! ## Sending is one write -/

section Write

variable {ch : ConnectionHandler}

@[simp] theorem write_error (ch : ConnectionHandler) (data : Bytes) :
    (ch.write data).2.error = ch.error := by
  rw [ConnectionHandler.write]
  split <;> rfl

/-- Two writes are one of both together, as long as the first one comes through. -/
theorem write_append (ch : ConnectionHandler) (first second : Bytes) :
    ch.write (first ++ second) =
      match ch.write first with
      | (.ok n, ch') => ((ch'.write second).1.map (n + ·), (ch'.write second).2)
      | (.error e, ch') => (.error e, ch') := by
  simp only [ConnectionHandler.write, List.length_append, List.take_append]
  by_cases hfirst : first.length ≤ ch.room
  · rw [if_pos hfirst]
    have hroom : ch.room - first.length - second.length =
        ch.room - (first.length + second.length) := by omega
    by_cases hsecond : first.length + second.length ≤ ch.room
    · have hleft : second.length ≤ ch.room - first.length := by omega
      simp [hsecond, hleft, hroom, List.append_assoc, Except.map]
    · have hleft : ¬ second.length ≤ ch.room - first.length := by omega
      simp [hsecond, hleft, hroom, List.append_assoc, Except.map]
  · have hboth : ¬ first.length + second.length ≤ ch.room := by omega
    have hnone : ch.room - first.length = 0 := by omega
    have hrest : ch.room - (first.length + second.length) = 0 := by omega
    rw [if_neg hfirst, if_neg hboth]
    simp [hnone, hrest]

/-- The chunk loop writes what is left of the payload. -/
theorem sendLoop_eq_write {payload : Bytes} {size offset : Nat}
    (hsize : offset + size = payload.length) (herror : ch.error = false) :
    ConnectionHandler.sendLoop payload size offset ch =
      ((ch.write (payload.drop offset)).1.map fun _ => true,
        (ch.write (payload.drop offset)).2) := by
  induction size using Nat.strong_induction_on generalizing offset ch with
  | _ size ih =>
    rw [ConnectionHandler.sendLoop]
    by_cases hpos : 0 < size
    swap
    · have hend : payload.drop offset = [] := List.drop_eq_nil_of_le (by omega)
      rw [dif_neg hpos, hend]
      simp [ConnectionHandler.write, Except.map]
    have hchunk : 0 < chunkSize := by decide
    have hbound : offset + min size chunkSize ≤ payload.length := by omega
    have hlen : ((payload.drop offset).take (min size chunkSize)).length = min size chunkSize := by
      rw [List.length_take, List.length_drop]
      omega
    have hsplit : payload.drop offset = (payload.drop offset).take (min size chunkSize) ++
        payload.drop (offset + min size chunkSize) := by
      rw [← List.drop_drop, List.take_append_drop]
    rw [dif_pos hpos, hsplit, write_append]
    simp only [peek, if_pos hbound]
    generalize (payload.drop offset).take (min size chunkSize) = data at hlen
    by_cases hroom : data.length ≤ ch.room
    · have hkept : (ch.write data).2.error = false := by rwa [write_error]
      have hrest := ih (size - min size chunkSize) (by omega)
        (show offset + min size chunkSize + (size - min size chunkSize) = payload.length by omega)
        hkept
      have hok : (ch.write data).1 = .ok data.length := by
        rw [ConnectionHandler.write, if_pos hroom]
      rw [← Prod.mk.eta (p := ch.write data), hok]
      simp only [hlen, hkept, ne_eq, not_true_eq_false, if_false, Bool.false_eq_true, hrest]
      cases ((ch.write data).2.write (payload.drop (offset + min size chunkSize))).1 <;> rfl
    · simp [ConnectionHandler.write, hroom, Except.map]

/-- **`sendData` is one write of the frame** on a connection in good order. -/
theorem sendData_eq_write (packet : RequestPacket) (herror : ch.error = false) :
    ConnectionHandler.sendData packet ch =
      ((ch.write (headerBytes packet ++ packet.payload)).1.map fun _ => true,
        (ch.write (headerBytes packet ++ packet.payload)).2) := by
  have hlen : (headerBytes packet).length = fixedReqHeaderSize := length_headerBytes packet
  rw [write_append]
  simp only [ConnectionHandler.sendData,
    setReqHeaderBinaryData_eq packet (List.length_replicate ..)]
  by_cases hroom : (headerBytes packet).length ≤ ch.room
  · have hkept : (ch.write (headerBytes packet)).2.error = false := by rwa [write_error]
    have hrest := sendLoop_eq_write (Nat.zero_add packet.payload.length) hkept
    have hok : (ch.write (headerBytes packet)).1 = .ok (headerBytes packet).length := by
      rw [ConnectionHandler.write, if_pos hroom]
    rw [List.drop_zero] at hrest
    rw [← Prod.mk.eta (p := ch.write (headerBytes packet)), hok]
    simp only [hlen, ne_eq, not_true_eq_false, if_false, ConnectionHandler.sendInChunks, hrest]
    cases ((ch.write (headerBytes packet)).2.write packet.payload).1 <;> rfl
  · simp [ConnectionHandler.write, hroom, Except.map]

end Write

/-! ## A polite server -/

/-- Every response is a whole frame, and a 901, and nothing else, is passed over
without one. -/
structure Polite {σ : Type} (select : Header → Bytes → σ → Except Raised Handled × σ) : Prop where
  whole : ∀ {header payload s response},
    (select header payload s).1 = .ok (.response response) → WellFormed response
  resends : ∀ {header payload s}, (select header payload s).1 = .ok .handleRequest →
    header.code = Constants.nValidCrc
  silent : ∀ {header payload s response}, header.version = Constants.version →
    header.code = Constants.nValidCrc →
    (select header payload s).1 ≠ .ok (.response response)

/-- A world, and how many requests of the client have been served in it. -/
structure Amid where
  world : World
  round : Nat

/-- `req_select` in a world that others may have changed since the last request. -/
def serveAmid (env : Env) (crypto : Crypto) (meanwhile : Nat → World → World) (header : Header)
    (payload : Bytes) (s : Amid) : Except Raised Handled × Amid :=
  let result := serve env crypto header payload (meanwhile s.round s.world)
  (result.1, ⟨result.2, s.round + 1⟩)

theorem polite_serve (env : Env) (crypto : Crypto) : Polite (serve env crypto) := by
  have hcases : ∀ (header : Header) (payload : Bytes) (w : World),
      (∃ response, (serve env crypto header payload w).1 = .ok (.response response) ∧
        WellFormed response ∧
        ¬ (header.version = Constants.version ∧ header.code = Constants.nValidCrc)) ∨
      ((serve env crypto header payload w).1 = .ok .handleRequest ∧
        header.code = Constants.nValidCrc) ∨
      ∃ e, (serve env crypto header payload w).1 = .error e := by
    intro header payload w
    by_cases hversion : header.version = Constants.version
    swap
    · refine .inl ⟨errorResponse, ?_, wellFormed_errorResponse, fun h => hversion h.1⟩
      rw [serve_otherVersion hversion]
    by_cases hresend : header.code = Constants.nValidCrc
    · refine .inr (.inl ⟨?_, hresend⟩)
      rw [serve_resend hversion hresend]
    by_cases hcode : header.code ∈ knownCodes
    swap
    · refine .inr (.inr ⟨.exception .typeError, ?_⟩)
      rw [serve_unknownCode hversion hcode]
    by_cases hread : Step.CannotReadBack env crypto ⟨header, payload, w⟩
    · obtain ⟨w', hexit⟩ := Step.exits_of_cannotReadBack hread
      exact .inr (.inr ⟨.systemExit, congrArg Prod.fst hexit⟩)
    · obtain ⟨response, w', hserve, hwell⟩ :=
        Step.serve_answers (s := ⟨header, payload, w⟩) hversion hcode hresend hread
      exact .inl ⟨response, congrArg Prod.fst hserve, hwell, fun h => hresend h.2⟩
  constructor
  · intro header payload w response h
    rcases hcases header payload w with ⟨response', hserve, hwell, -⟩ | ⟨hserve, -⟩ | ⟨e, hserve⟩
    · cases hserve.symm.trans h
      exact hwell
    · cases hserve.symm.trans h
    · cases hserve.symm.trans h
  · intro header payload w h
    rcases hcases header payload w with ⟨response', hserve, -⟩ | ⟨-, hcode⟩ | ⟨e, hserve⟩
    · cases hserve.symm.trans h
    · exact hcode
    · cases hserve.symm.trans h
  · intro header payload w response hversion hcode h
    rcases hcases header payload w with ⟨response', -, -, hnot⟩ | ⟨hserve, -⟩ | ⟨e, hserve⟩
    · exact hnot ⟨hversion, hcode⟩
    · cases hserve.symm.trans h
    · cases hserve.symm.trans h

/-- What happens to the world between the requests does not matter. -/
theorem polite_serveAmid (env : Env) (crypto : Crypto) (meanwhile : Nat → World → World) :
    Polite (serveAmid env crypto meanwhile) :=
  ⟨(polite_serve env crypto).whole, (polite_serve env crypto).resends,
    (polite_serve env crypto).silent⟩

/-! ## The invariant -/

section Invariant

variable {K σ α : Type} {select : Header → Bytes → σ → Except Raised Handled × σ}

/-- Between two exchanges: the client has nothing to read, and the thread, if it is
still there, waits for a new request, or for the rest of one on a broken connection. -/
structure InStep (s : Linked K σ) : Prop where
  going : s.stuck = false
  heard : s.client.connection.incoming = []
  waits : s.server.Waits
  waiting : s.server.live = true → s.client.connection.error = false ∧
    (s.server.unread = [] ∨ s.client.connection.room = 0)

/-- A request for the code has been sent: its answer is there, or the thread is gone. -/
structure Sent (code : RequestCode) (s : Linked K σ) : Prop where
  going : s.stuck = false
  waits : s.server.Waits
  answered : s.server.live = true → s.client.connection.error = false ∧ s.server.unread = [] ∧
    (code = .nValidCrc → s.client.connection.incoming = []) ∧
    (code ≠ .nValidCrc → WellFormed s.client.connection.incoming)
  gone : s.server.live = false → s.client.connection.incoming = []

/-- Code that leaves the socket alone runs as it does by itself. -/
theorem run_alone {p : Cpp K α} (hp : Alone p) (s : Linked K σ) :
    Program.run (Linked.exec select) p s =
        ((Program.run exec p s.client).1, { s with client := (Program.run exec p s.client).2 }) ∧
      (Program.run exec p s.client).2.connection = s.client.connection := by
  have hstep : ∀ (o : ClientOp K) (t : Linked K σ) (c : Process K), o.Local →
      t = { s with client := c } ∧ c.connection = s.client.connection →
      True ∧ (Linked.exec select o t).1 = (exec o c).1 ∧
        (Linked.exec select o t).2 = { s with client := (exec o c).2 } ∧
        (exec o c).2.connection = s.client.connection := by
    intro o t c ho h
    obtain ⟨rfl, hconn⟩ := h
    cases o with
    | sendData => exact ho.elim
    | receiveData => exact ho.elim
    | _ => exact ⟨trivial, rfl, rfl, hconn⟩
  obtain ⟨hresult, hstate, hconn⟩ := Program.run_related
    (R := fun (t : Linked K σ) (c : Process K) =>
      t = { s with client := c } ∧ c.connection = s.client.connection)
    hstep hp (s := s) (t := s.client) ⟨rfl, rfl⟩
  exact ⟨Prod.ext hresult hstate, hconn⟩

/-- What is kept when the socket is left alone. -/
theorem InStep.of_alone {s : Linked K σ} (hs : InStep s) {c : Process K}
    (hconn : c.connection = s.client.connection) : InStep { s with client := c } where
  going := hs.going
  heard := (congrArg ConnectionHandler.incoming hconn).trans hs.heard
  waits := hs.waits
  waiting hlive := by
    obtain ⟨herror, hroom⟩ := hs.waiting hlive
    exact ⟨(congrArg ConnectionHandler.error hconn).trans herror,
      hroom.imp_right (congrArg ConnectionHandler.room hconn).trans⟩

/-- A part of a frame is no frame. -/
theorem nextFrame_part {r : Request} {n : Nat} (h : n < r.wire.length) :
    Conn.nextFrame (r.wire.take n) = none := by
  cases hframe : Conn.nextFrame (r.wire.take n) with
  | none => rfl
  | some frame =>
    have hwhole := nextFrame_append hframe (r.wire.drop n)
    have hall := r.nextFrame_wire []
    rw [List.append_nil] at hall
    rw [List.take_append_drop, hall] at hwhole
    obtain ⟨-, -, hnil⟩ : _ ∧ _ ∧ [] = frame.2.2 ++ r.wire.drop n := by simpa using hwhole
    have hrest := (List.append_eq_nil_iff.mp hnil.symm).2
    have hlen := congrArg List.length hrest
    rw [List.length_drop, List.length_nil] at hlen
    omega

theorem length_wire (r : Request) : Constants.headerSize ≤ r.wire.length := by
  rw [← r.wire_eq ⟨r.clientID, 0, 0, 0, []⟩, List.length_append, length_headerBytes]
  omega

/-- What `req_select` makes of a request is what the thread does next. -/
def served : Except Raised Handled × σ → List Bytes × Serving σ
  | (.ok (.response (b :: bs)), state) => ([b :: bs], ⟨[], true, state⟩)
  | (.ok .handleRequest, state) => ([], ⟨[], true, state⟩)
  | (_, state) => ([], ⟨[], false, state⟩)

theorem feed_wire (r : Request) (state : σ) :
    Serving.feed select r.wire ⟨[], true, state⟩ =
      served (select r.received.1 r.received.2 state) := by
  have hframe := r.nextFrame_wire []
  rw [List.append_nil] at hframe
  have hnil : ∀ state : σ, Serving.advance select ⟨[], true, state⟩ = ([], ⟨[], true, state⟩) :=
    fun state => Serving.advance_of_waits fun _ => rfl
  refine (@Serving.advance_of_frame σ select ⟨r.wire, true, state⟩ _ _ _ rfl hframe).trans ?_
  dsimp only
  generalize select r.received.1 r.received.2 state = result
  rcases result with ⟨(e | _) | (_ | ⟨b, bs⟩) | _, state'⟩
  · rfl
  · rfl
  · rfl
  · simp only [hnil, served]
  · simp only [hnil, served]

/-- What the thread makes of one request: one whole response, none for a 901, or the
end of its loop. -/
theorem served_cases (hpolite : Polite select) (r : Request) (state : σ) :
    let result := served (select r.received.1 r.received.2 state)
    (result.2.live = true → result.2.unread = [] ∧ (r.code = .nValidCrc → result.1 = []) ∧
        (r.code ≠ .nValidCrc → ∃ response, result.1 = [response] ∧ WellFormed response)) ∧
      (result.2.live = false → result.1 = []) := by
  have hcode : r.received.1.code = Constants.nValidCrc → r.code = .nValidCrc := by
    intro h
    cases hr : r.code <;> rw [Request.received, hr] at h <;> first | rfl | cases h
  have hwhole : ∀ response, (select r.received.1 r.received.2 state).1 =
      .ok (.response response) → WellFormed response := fun _ => hpolite.whole
  have hresends : (select r.received.1 r.received.2 state).1 = .ok .handleRequest →
      r.received.1.code = Constants.nValidCrc := hpolite.resends
  have hsilent : ∀ response, r.received.1.code = Constants.nValidCrc →
      (select r.received.1 r.received.2 state).1 ≠ .ok (.response response) :=
    fun _ => hpolite.silent rfl
  generalize select r.received.1 r.received.2 state = result at hwhole hresends hsilent ⊢
  rcases result with ⟨(e | _) | (_ | ⟨b, bs⟩) | _, state'⟩
  · exact ⟨(fun h => by cases h), fun _ => rfl⟩
  · exact ⟨(fun h => by cases h), fun _ => rfl⟩
  · exact ⟨(fun h => by cases h), fun _ => rfl⟩
  · refine ⟨fun _ => ⟨rfl, fun h => ?_, fun _ => ⟨_, rfl, hwhole _ rfl⟩⟩, fun h => by cases h⟩
    refine absurd rfl (hsilent (b :: bs) ?_)
    rw [Request.received, h]
    rfl
  · exact ⟨fun _ => ⟨rfl, fun _ => rfl, fun h => absurd (hcode (hresends rfl)) h⟩,
      fun h => by cases h⟩

theorem InStep.of_gone {s : Linked K σ} (hgoing : s.stuck = false)
    (hdead : s.server.live = false) (hheard : s.client.connection.incoming = []) : InStep s :=
  ⟨hgoing, hheard, fun h => absurd (h.symm.trans hdead) (by decide),
    fun h => absurd (h.symm.trans hdead) (by decide)⟩

theorem Sent.of_gone {code : RequestCode} {s : Linked K σ} (hgoing : s.stuck = false)
    (hdead : s.server.live = false) (hheard : s.client.connection.incoming = []) : Sent code s :=
  ⟨hgoing, fun h => absurd (h.symm.trans hdead) (by decide),
    fun h => absurd (h.symm.trans hdead) (by decide), fun _ => hheard⟩

/-- **Sending keeps the two in step**: the request is answered at once, or the thread
ends, or the connection breaks in the middle of the frame. -/
theorem send_inStep (hpolite : Polite select) {s : Linked K σ} (hs : InStep s) {r : Request}
    (hrequest : s.client.members.requestPacket = r.prepare s.client.members.requestPacket) :
    Program.Outcome (fun ok t => (ok = true → Sent r.code t) ∧ (ok = false → InStep t))
      (fun _ => InStep) (Linked.exec select .sendData s) := by
  by_cases hlive : s.server.live = true
  swap
  · -- nobody reads any more
    have hdead : s.server.live = false := Bool.not_eq_true _ ▸ hlive
    rcases hsend : ConnectionHandler.sendData s.client.members.requestPacket
      s.client.connection with ⟨sent, connection⟩
    have hwrites := writes_sendData s.client.members.requestPacket s.client.connection
    rw [hsend] at hwrites
    obtain ⟨⟨wrote, hwrote⟩, hkept⟩ := hwrites
    rw [Linked.exec_sendData hsend hwrote.symm, Serving.feed_of_not_live hdead,
      List.flatten_nil, Linked.told_nil]
    have hheard : connection.incoming = [] := hkept.trans hs.heard
    rcases sent with e | ok
    · exact .of_gone hs.going hdead hheard
    · exact ⟨fun _ => .of_gone hs.going hdead hheard, fun _ => .of_gone hs.going hdead hheard⟩
  obtain ⟨herror, hroom⟩ := hs.waiting hlive
  have hsend := sendData_eq_write s.client.members.requestPacket herror
  have hwire : headerBytes s.client.members.requestPacket ++
      s.client.members.requestPacket.payload = r.wire := by
    rw [hrequest]
    exact r.wire_eq _
  rw [hwire, ConnectionHandler.write] at hsend
  by_cases hfits : r.wire.length ≤ s.client.connection.room
  · -- all of the frame is out, and the thread gets nothing but that
    have hheader : 0 < Constants.headerSize := by decide
    have hlen := length_wire r
    have hunread : s.server.unread = [] :=
      hroom.resolve_right fun hzero => absurd hzero (by omega)
    obtain ⟨⟨members, connection, folder, log, running⟩, ⟨unread, live, state⟩, stuck⟩ := s
    dsimp only at hunread hlive
    subst hunread hlive
    have hfeed := @feed_wire σ select r state
    obtain ⟨hlives, hdies⟩ := served_cases hpolite r state
    generalize served (select r.received.1 r.received.2 state) = result at hfeed hlives hdies
    obtain ⟨responses, server⟩ := result
    dsimp only at hlives hdies
    have hwaits := @Serving.waits_feed σ select r.wire ⟨[], true, state⟩
    have hheard : ∀ bytes, connection.incoming ++ bytes = bytes := fun bytes => by
      rw [show connection.incoming = [] from hs.heard, List.nil_append]
    rw [if_pos hfits] at hsend
    rw [@Linked.exec_sendData _ _ select _ _ _ r.wire hsend
      (by simp [List.take_of_length_le hfits])]
    rw [hfeed] at hwaits ⊢
    refine ⟨fun _ => ⟨hs.going, hwaits, fun h => ?_, fun h => ?_⟩, fun h => by cases h⟩
    · obtain ⟨hunread, hsilent, hanswer⟩ := hlives h
      refine ⟨herror, hunread, fun hcode => ?_, fun hcode => ?_⟩
      · rw [hsilent hcode]
        exact hheard _
      · obtain ⟨response, rfl, hwell⟩ := hanswer hcode
        show WellFormed (connection.incoming ++ [response].flatten)
        rwa [hheard, List.flatten_singleton]
    · rw [hdies h]
      exact hheard _
  · -- the connection breaks, and what is out is no frame
    have hlt : s.client.connection.room < r.wire.length := Nat.lt_of_not_le hfits
    rw [if_neg hfits] at hsend
    rw [@Linked.exec_sendData _ _ select _ _ _ (r.wire.take s.client.connection.room) hsend rfl]
    have hbroken : s.client.connection.room - r.wire.length = 0 := by omega
    have hwaits := @Serving.waits_feed σ select (r.wire.take s.client.connection.room) s.server
    have hfeed : (s.server.feed select (r.wire.take s.client.connection.room)).1 = [] := by
      rcases hroom with hunread | hzero
      · have hpart : Serving.Waits { s.server with
            unread := s.server.unread ++ r.wire.take s.client.connection.room } := fun _ => by
          rw [hunread]
          exact nextFrame_part hlt
        rw [Serving.feed, Serving.advance_of_waits hpart]
      · rw [hzero, List.take_zero, Serving.feed_nil hs.waits]
    rw [hfeed, List.flatten_nil, Linked.told_nil]
    exact ⟨hs.going, hs.heard, hwaits, fun _ => ⟨herror, .inr hbroken⟩⟩

/-- **Reading keeps the two in step**: the answer is read as a whole, or the end of the
connection is noticed. -/
theorem receive_inStep {code : RequestCode} (hcode : code ≠ .nValidCrc) {s : Linked K σ}
    (hs : Sent code s) :
    Program.Outcome (fun _ => InStep) (fun _ => InStep) (Linked.exec select .receiveData s) := by
  have hgoing := hs.going
  by_cases hlive : s.server.live = true
  · obtain ⟨-, hunread, -, hanswer⟩ := hs.answered hlive
    have hwell := hanswer hcode
    obtain ⟨response, hbuilt⟩ := exists_build hwell
    have hwhole : ¬ CutOff s.client.connection.incoming := by
      obtain ⟨hlen, hsize⟩ := hwell
      simp only [CutOff, hsize, Nat.not_lt]
      show 7 + _ ≤ _
      omega
    have hreceive := receiveData_of_frame hbuilt s.client.members.responsePacket
      (List.append_nil _).symm
    simp only [Linked.exec, Client.exec, hreceive, if_true]
    refine ⟨?_, rfl, hs.waits, fun _ => ⟨rfl, .inl hunread⟩⟩
    simp [hgoing, hwhole]
  · have hdead : s.server.live = false := Bool.not_eq_true _ ▸ hlive
    have hheard := hs.gone hdead
    have hreceive : ConnectionHandler.receiveData s.client.members.responsePacket
        s.client.connection = (.ok false, s.client.members.responsePacket,
          { s.client.connection with error := true }) := by
      simp [ConnectionHandler.receiveData, ConnectionHandler.read, hheard]
    simp only [Linked.exec, Client.exec, hreceive]
    exact .of_gone (by simp [hgoing, hdead]) hdead hheard

/-- `THROW_IF_NOT`, whatever the operations mean. -/
theorem triple_throwIfNot {τ : Type} {H : Handler (clientOps K) Fault τ} {P : Bool → τ → Prop}
    {E : τ → Prop} (status : Bool) (hfalse : ∀ s, P false s → E s) :
    Triple H (P status) (throwIfNot status) (fun _ => P true) fun _ => E := by
  intro s hs
  cases status with
  | true => exact hs
  | false => exact hfalse s hs

/-- **Every exchange keeps client and server in step**, however it comes out. -/
theorem sendAndRecieve_inStep (pf : Platform K) (hpolite : Polite select) (code : RequestCode) :
    Triple (Linked.exec select) InStep (sendAndRecieve pf code) (fun _ => InStep)
      fun _ => InStep := by
  -- the request is loaded
  have hload : Triple (Linked.exec select) (InStep (K := K))
      (requestSelector pf.aesEncryptBlock code)
      (fun ok s => InStep s ∧ (ok = true → ∃ r : Request, r.code = code ∧
        s.client.members.requestPacket = r.prepare s.client.members.requestPacket))
      fun _ => InStep := by
    intro s hs
    obtain ⟨hrun, hconn⟩ :=
      @run_alone K σ _ select _ (alone_requestSelector pf.aesEncryptBlock code) s
    rw [hrun]
    rcases hloaded : Program.run exec (requestSelector pf.aesEncryptBlock code) s.client with
      ⟨e | ok, c⟩
    · rw [hloaded] at hconn
      exact hs.of_alone hconn
    · rw [hloaded] at hconn
      refine ⟨hs.of_alone hconn, fun hok => ?_⟩
      subst hok
      exact requestSelector_prepares hloaded
  -- it is sent
  have hsend : Triple (Linked.exec select) (fun s : Linked K σ => InStep s ∧
        ∃ r : Request, r.code = code ∧
          s.client.members.requestPacket = r.prepare s.client.members.requestPacket) Cpp.sendData
      (fun ok t => (ok = true → Sent code t) ∧ (ok = false → InStep t)) fun _ => InStep := by
    refine Program.triple_op fun s hs => ?_
    obtain ⟨hs, r, rfl, hrequest⟩ := hs
    exact send_inStep hpolite hs hrequest
  have hreact : Triple (Linked.exec select) (InStep (K := K)) (responseSelector pf.rsa pf.longBits)
      (fun _ => InStep) fun _ => InStep := by
    refine Program.triple_of_run_snd fun s hs => ?_
    obtain ⟨hrun, hconn⟩ :=
      @run_alone K σ _ select _ (alone_responseSelector pf.rsa pf.longBits) s
    rw [hrun]
    exact hs.of_alone hconn
  refine hload.bind fun loaded => (triple_throwIfNot (P := fun ok s => InStep s ∧ (ok = true →
    ∃ r : Request, r.code = code ∧ s.client.members.requestPacket =
      r.prepare s.client.members.requestPacket)) loaded fun s hs => hs.1).bind fun _ => ?_
  refine (hsend.imp (fun s hs => ⟨hs.1, hs.2 rfl⟩) (fun _ _ hs => hs) fun _ _ hs => hs).bind
    fun sent => (triple_throwIfNot (P := fun ok t => (ok = true → Sent code t) ∧
      (ok = false → InStep t)) sent fun s hs => hs.2 rfl).bind fun _ => ?_
  split
  · -- a 901 is not answered
    next hcode =>
    intro s hs
    have hsent := hs.1 rfl
    refine ⟨hsent.going, ?_, hsent.waits, fun hlive => ?_⟩
    · by_cases hlive : s.server.live = true
      · exact (hsent.answered hlive).2.2.1 hcode
      · exact hsent.gone (Bool.not_eq_true _ ▸ hlive)
    · obtain ⟨herror, hunread, -⟩ := hsent.answered hlive
      exact ⟨herror, .inl hunread⟩
  · next hcode =>
    have hreceive : Triple (Linked.exec select) (fun s : Linked K σ => Sent code s)
        Cpp.receiveData (fun _ => InStep) fun _ => InStep :=
      Program.triple_op fun s hs => receive_inStep hcode hs
    have hkept : ∀ status, Triple (Linked.exec select) (InStep (K := K) (σ := σ))
        (throwIfNot status) (fun _ => InStep) fun _ => InStep := fun status =>
      triple_throwIfNot (P := fun _ => InStep) status fun _ hs => hs
    refine (hreceive.imp (fun s hs => hs.1 rfl) (fun _ _ hs => hs) fun _ _ hs => hs).bind
      fun received => (hkept received).bind fun _ => hreact.bind fun reacted =>
        (hkept reacted).bind fun _ s hs => hs

/-! ## Whole sessions -/

/-- An operation keeps the two in step. -/
theorem call_inStep (pf : Platform K) (hpolite : Polite select) (operation : Operation)
    {s : Linked K σ} (hs : InStep s) : InStep (Linked.call select pf operation s) := by
  have hcode : ∀ {α : Type} {p : Cpp K α}, Exchanging pf p →
      InStep (Program.run (Linked.exec select) p s).2 := by
    intro α p hp
    refine (hp.triple (sendAndRecieve_inStep pf hpolite) (fun o t ho ht => ?_)).run_snd hs
    cases o with
    | sendData => exact ho.elim
    | receiveData => exact ho.elim
    | _ => exact ht.of_alone rfl
  have hfinish : ∀ (r : Except Fault Bool) (t : Linked K σ), InStep t →
      InStep (Linked.finish (r, t)) := by
    intro r t ht
    cases r <;> exact ht.of_alone rfl
  cases operation with
  | signIn => exact hfinish _ _ (hcode (p := signIn pf) exchanging_signIn)
  | registerNewClient =>
    exact hfinish _ _ (hcode (p := registerNewClient pf) exchanging_registerNewClient)
  | uploadFile =>
    have hupload := hcode (p := uploadFile pf) exchanging_uploadFile
    rw [Linked.call]
    generalize Program.run (Linked.exec select) (uploadFile pf) s = result at hupload ⊢
    rcases result with ⟨e | _ | _, t⟩
    · exact hupload.of_alone rfl
    · exact hupload
    · exact hupload.of_alone rfl

/-- So do all that a client calls after it has connected. -/
theorem inStep_callAll (pf : Platform K) (hpolite : Polite select) (operations : List Operation)
    (c : Process K) (room : Nat) (state : σ) :
    InStep (Linked.callAll select pf operations (Linked.connect c room state)) := by
  have hstart : InStep (Linked.connect c room state) :=
    ⟨rfl, rfl, fun _ => rfl, fun _ => ⟨rfl, .inl rfl⟩⟩
  generalize Linked.connect c room state = s at hstart
  induction operations generalizing s with
  | nil => exact hstart
  | cons operation rest ih =>
    have hcall := call_inStep pf hpolite operation hstart
    rw [Linked.callAll]
    split
    · exact ih _ hcall
    · exact hcall

/-- **The system never gets stuck.** Whatever operations a client calls after it has
connected, with any server, in any world, however that world changes between two
requests, and wherever the connection breaks: no read waits for bytes that do not
come, no response is left unread, and no request is left half read on a connection
that holds. The thread is a `Serving`, which takes whole requests: this is about
transports whose `recv` returns all it is asked for, as in `session_splits`. -/
theorem never_stuck (pf : Platform K) (env : Env) (crypto : Crypto)
    (meanwhile : Nat → World → World) (operations : List Operation) (c : Process K) (room : Nat)
    (w : World) :
    let s := Linked.callAll (serveAmid env crypto meanwhile) pf operations
      (Linked.connect c room ⟨w, 0⟩)
    s.stuck = false ∧ s.client.connection.incoming = [] ∧
      (s.server.live = true → s.server.unread = [] ∨ s.client.connection.room = 0) := by
  have hs := inStep_callAll pf (polite_serveAmid env crypto meanwhile) operations c room ⟨w, 0⟩
  exact ⟨hs.going, hs.heard, fun hlive => (hs.waiting hlive).2⟩

/-- **A session is one of the client and one of `handle_client`**, joined by the bytes.
Whatever operations a client calls, as long as the connection holds: on the bytes that
the client wrote, handed over by any transport that cuts no chunk, `handle_client`
sends certain responses and ends in the world of the session; and with these responses
there from the start, the client by itself does and ends up as it did here. -/
theorem session_splits (pf : Platform K) (env : Env) (crypto : Crypto)
    {operations : List Operation} {c : Process K} {room : Nat} {w : World} {s : Linked K World}
    (hs : s = Linked.callAll (serve env crypto) pf operations (Linked.connect c room w))
    (hroom : 0 < s.client.connection.room) :
    ∃ wrote responses, s.client.connection.outgoing = wrote ∧
      (∀ cut : Nat → Nat, (∀ i, Constants.chunkSize ≤ cut i) →
        ∃ conn, handleClient (serve env crypto) ⟨wrote, cut, 0⟩ w =
          (responses, conn, s.server.state)) ∧
      Linked.callAlone pf operations
        { c with connection := ⟨responses.flatten, [], room, false⟩ } = s.client := by
  have hin := inStep_callAll pf (polite_serve env crypto) operations c room w
  rw [← hs] at hin
  have hwhole : s.server.live = true → s.server.unread = [] := fun hlive =>
    (hin.waiting hlive).2.resolve_right (Nat.ne_of_gt hroom)
  subst hs
  obtain ⟨wrote, responses, hout, hserver, hclient⟩ :=
    @Linked.session_refines K World (serve env crypto) _ pf operations w rfl hin.going hwhole
  refine ⟨wrote, responses, ?_, hserver, hclient⟩
  rw [hout]
  rfl

/-- A client that registers. -/
def toyRegistration : Linked Bytes World :=
  Linked.callAll (serve (.calm Uid.ofNat) toyCrypto) toyPlatform [.registerNewClient]
    (Linked.connect (toyProcess [1] (fun _ => none) []) 10000 (.init .bare))

theorem toyRegistration_splits :
    ∃ wrote responses, toyRegistration.client.connection.outgoing = wrote ∧
      (∀ cut : Nat → Nat, (∀ i, Constants.chunkSize ≤ cut i) →
        ∃ conn, handleClient (serve (.calm Uid.ofNat) toyCrypto) ⟨wrote, cut, 0⟩ (.init .bare) =
          (responses, conn, toyRegistration.server.state)) ∧
      Linked.callAlone toyPlatform [.registerNewClient]
        { toyProcess [1] (fun _ => none) [] with
          connection := ⟨responses.flatten, [], 10000, false⟩ } = toyRegistration.client :=
  session_splits toyPlatform (.calm Uid.ofNat) toyCrypto rfl (by
    show 0 < toyRegistration.client.connection.room
    decide +kernel)

end Invariant

end FileTransfer.EndToEnd
