import FileTransfer.EndToEnd.InStep

/-!
# One exchange of the two

What a `sendAndRecieve` comes to when client and server are connected: the request that
was loaded, what `req_select` made of it, and what the client made of the answer. Both
directions are here: when it comes to an end, and what has happened when it did.
-/

namespace FileTransfer.EndToEnd

open FileTransfer.Client FileTransfer.Server FileTransfer.Effect

variable {K σ : Type} {select : Header → Bytes → σ → Except Raised Handled × σ}
  {pf : Platform K} {code : RequestCode}

/-! ## The connection -/

/-- The connection when a frame of `wire` has been sent and its answer read. -/
def after (ch : ConnectionHandler) (wire : Bytes) : ConnectionHandler :=
  ⟨[], ch.outgoing ++ wire, ch.room - wire.length, false⟩

/-- The process that has sent its request and holds the answer. -/
def exchanged (c : Process K) (packet : ResponsePacket) (connection : ConnectionHandler) :
    Process K :=
  (c.sends connection).receives packet connection

/-- The thread waits, the client has read everything, and the connection holds for `n`
more bytes. -/
structure Ready (n : Nat) (state : σ) (s : Linked K σ) : Prop where
  going : s.stuck = false
  server : s.server = ⟨[], true, state⟩
  heard : s.client.connection.incoming = []
  error : s.client.connection.error = false
  room : n ≤ s.client.connection.room

/-! ## Steps of an exchange -/

section Steps

variable {s : Linked K σ} {c : Process K} {r : Request} {state state' : σ}

theorem run_sendData (s : Linked K σ) :
    Program.run (Linked.exec select) Cpp.sendData s = Linked.exec select .sendData s :=
  Program.run_op _ _ s

theorem run_receiveData (s : Linked K σ) :
    Program.run (Linked.exec select) Cpp.receiveData s = Linked.exec select .receiveData s :=
  Program.run_op _ _ s

theorem run_throwIfNot {τ : Type} {H : Handler (clientOps K) Fault τ} {status : Bool}
    {t t' : τ} {u : Unit} (h : Program.run H (throwIfNot status) t = (.ok u, t')) :
    status = true ∧ t' = t := by
  cases status with
  | true =>
    cases h
    exact ⟨rfl, rfl⟩
  | false => cases h

theorem run_throwIfNot_true {α τ : Type} {H : Handler (clientOps K) Fault τ}
    (f : Unit → Cpp K α) (t : τ) :
    Program.run H (throwIfNot true >>= f) t = Program.run H (f ()) t := rfl

/-- A request that fits goes out as a whole. -/
theorem exec_send_fits (hready : Ready r.wire.length state s)
    (hconn : c.connection = s.client.connection)
    (hrequest : c.members.requestPacket = r.prepare c.members.requestPacket) :
    Linked.exec select .sendData { s with client := c } =
      (.ok true, ⟨c.sends { s.client.connection with
          incoming := (served (select r.received.1 r.received.2 state)).1.flatten
          outgoing := s.client.connection.outgoing ++ r.wire
          room := s.client.connection.room - r.wire.length },
        (served (select r.received.1 r.received.2 state)).2, s.stuck⟩) := by
  have hwire : headerBytes c.members.requestPacket ++ c.members.requestPacket.payload =
      r.wire := by
    rw [hrequest]
    exact r.wire_eq _
  have hsend := sendData_eq_write c.members.requestPacket hready.error
  rw [hwire, ConnectionHandler.write, if_pos hready.room,
    List.take_of_length_le hready.room, ← hconn] at hsend
  have hexec := @Linked.exec_sendData K σ select { s with client := c } _ _ r.wire hsend rfl
  rw [hexec]
  dsimp only
  rw [hready.server, feed_wire]
  simp only [Linked.told, hears, Process.sends, hconn, hready.heard, List.nil_append]
  rfl

/-- What is sent when the thread is gone is lost. -/
theorem exec_send_gone {s' : Linked K σ} {sent : Except Fault Bool}
    (hdead : s.server.live = false)
    (hsend : Linked.exec select .sendData { s with client := c } = (sent, s')) :
    ∃ connection, s'.client = c.sends connection ∧
      connection.incoming = c.connection.incoming ∧ s'.server.state = s.server.state := by
  have hwrites := writes_sendData c.members.requestPacket c.connection
  obtain ⟨wrote, hwrote⟩ := hwrites.1
  have hexec := @Linked.exec_sendData K σ select { s with client := c } _ _ wrote
    (Prod.mk.eta (p := ConnectionHandler.sendData c.members.requestPacket c.connection)).symm
    hwrote.symm
  rw [hsend, Serving.feed_of_not_live hdead, List.flatten_nil, Linked.told_nil] at hexec
  obtain ⟨-, rfl⟩ := Prod.mk.inj hexec
  exact ⟨_, rfl, hwrites.2, rfl⟩

/-- **An exchange that is answered**, forwards: what is left to do is the reaction to
the answer. -/
theorem run_sendAndRecieve {response : Bytes} {answer : Response}
    (hready : Ready r.wire.length state s) (hcode : code ≠ .nValidCrc)
    (hload : Program.run Client.exec (requestSelector pf.aesEncryptBlock code) s.client =
      (.ok true, c))
    (hrequest : c.members.requestPacket = r.prepare c.members.requestPacket)
    (hserve : select r.received.1 r.received.2 state = (.ok (.response response), state'))
    (hbuilt : answer.build = .ok response) :
    Program.run (Linked.exec select) (sendAndRecieve pf code) s =
      Program.run (Linked.exec select) (do
          throwIfNot (← responseSelector pf.rsa pf.longBits)
          pure true)
        ⟨exchanged c answer.packet (after s.client.connection r.wire), ⟨[], true, state'⟩,
          false⟩ := by
  obtain ⟨hrun, hconn⟩ :=
    @run_alone K σ _ select _ (alone_requestSelector pf.aesEncryptBlock code) s
  rw [hload] at hrun hconn
  have hsend := @exec_send_fits K σ select s c r state hready hconn hrequest
  have hwell : WellFormed response := wellFormed_initResponse hbuilt
  obtain ⟨b, bs, rfl⟩ := List.exists_cons_of_ne_nil hwell.ne_nil
  rw [hserve] at hsend
  simp only [served, List.flatten_singleton] at hsend
  rw [sendAndRecieve, Program.run_bind, hrun]
  dsimp only
  rw [run_throwIfNot_true, Program.run_bind, run_sendData, hsend]
  dsimp only
  rw [run_throwIfNot_true, if_neg hcode, Program.run_bind, run_receiveData]
  have hwhole : ¬ CutOff (b :: bs) := by
    obtain ⟨hlen, hsize⟩ := hwell
    simp only [CutOff, hsize, Nat.not_lt]
    show 7 + _ ≤ _
    omega
  have hreceive := fun ch h => @receiveData_of_frame answer (b :: bs) [] hbuilt
    c.members.responsePacket ch h
  simp only [List.append_nil] at hreceive
  simp only [Linked.exec, Client.exec, Process.sends, hreceive, if_true, hready.going]
  simp only [hwhole, decide_false, Bool.and_false, Bool.or_false]
  rw [run_throwIfNot_true]
  rfl

end Steps

/-! ## What an exchange has done -/

/-- The exchange `s` to `s'` for `code` came to an end: `c` is the process that had
loaded the request `r`, and `answer` is what came back. -/
structure Answered (select : Header → Bytes → σ → Except Raised Handled × σ) (pf : Platform K)
    (code : RequestCode) (s s' : Linked K σ) (c : Process K) (r : Request) (answer : Response) :
    Prop where
  code_eq : r.code = code
  loaded : Program.run Client.exec (requestSelector pf.aesEncryptBlock code) s.client =
    (.ok true, c)
  request : c.members.requestPacket = r.prepare c.members.requestPacket
  ready : Ready r.wire.length s.server.state s
  served : ∃ response, select r.received.1 r.received.2 s.server.state =
      (.ok (.response response), s'.server.state) ∧ answer.build = .ok response
  reacted : Program.run Client.exec (responseSelector pf.rsa pf.longBits)
    (exchanged c answer.packet (after s.client.connection r.wire)) = (.ok true, s'.client)
  waits : Ready (s.client.connection.room - r.wire.length) s'.server.state s'

section Inversion

variable {s s' : Linked K σ}

/-- A request that was loaded and sent, on a connection that is in order. -/
theorem sent_of_ok (hs : InStep s) {loaded sent : Bool} {s₁ s₂ : Linked K σ}
    (hload : Program.run (Linked.exec select) (requestSelector pf.aesEncryptBlock code) s =
      (.ok loaded, s₁))
    (htrue : loaded = true)
    (hsend : Linked.exec select .sendData s₁ = (.ok sent, s₂)) :
    ∃ (c : Process K) (r : Request),
      Program.run Client.exec (requestSelector pf.aesEncryptBlock code) s.client =
        (.ok true, c) ∧ r.code = code ∧
      c.members.requestPacket = r.prepare c.members.requestPacket ∧
      c.connection = s.client.connection ∧ s₁ = { s with client := c } ∧
      (s.server.live = true → Ready r.wire.length s.server.state s) := by
  subst htrue
  obtain ⟨hrun, hconn⟩ :=
    @run_alone K σ _ select _ (alone_requestSelector pf.aesEncryptBlock code) s
  rw [hload] at hrun
  rcases hclient : Program.run Client.exec (requestSelector pf.aesEncryptBlock code) s.client with
    ⟨result, c⟩
  rw [hclient] at hrun hconn
  obtain ⟨rfl, rfl⟩ := Prod.mk.inj hrun
  obtain ⟨r, hcode, hrequest⟩ := requestSelector_prepares hclient
  refine ⟨c, r, rfl, hcode, hrequest, hconn, rfl, fun hlive => ?_⟩
  obtain ⟨herror, hroom⟩ := hs.waiting hlive
  -- a frame that does not fit would have broken the connection
  have hfits : r.wire.length ≤ s.client.connection.room := by
    by_contra hlong
    have hwire : headerBytes c.members.requestPacket ++ c.members.requestPacket.payload =
        r.wire := by
      rw [hrequest]
      exact r.wire_eq _
    have hdata := @sendData_eq_write c.connection c.members.requestPacket
      (by rw [hconn]; exact herror)
    rw [hwire, hconn, ConnectionHandler.write, if_neg hlong, ← hconn] at hdata
    have hexec := @Linked.exec_sendData K σ select { s with client := c } _ _ _ hdata
      (by rw [hconn])
    rw [hsend] at hexec
    cases (Prod.mk.inj hexec).1
  have hlen := length_wire r
  have hheader : 0 < Constants.headerSize := by decide
  have hunread : s.server.unread = [] := hroom.resolve_right fun hzero => by omega
  refine ⟨hs.going, ?_, hs.heard, herror, hfits⟩
  rw [← hunread, ← hlive]

/-- **An exchange that is answered**, backwards. -/
theorem answered_of_ok (hpolite : Polite select) (hs : InStep s) (hcode : code ≠ .nValidCrc)
    {b : Bool} (h : Program.run (Linked.exec select) (sendAndRecieve pf code) s = (.ok b, s')) :
    ∃ c r answer, Answered select pf code s s' c r answer := by
  have hall := h
  rw [sendAndRecieve] at h
  obtain ⟨loaded, s₁, hload, h₁⟩ := (Program.run_bind_ok _).mp h
  obtain ⟨u₁, t₁, hthrow₁, h₁'⟩ := (Program.run_bind_ok _).mp h₁
  obtain ⟨htrue, rfl⟩ := run_throwIfNot hthrow₁
  obtain ⟨sent, s₂, hsend, h₂⟩ := (Program.run_bind_ok _).mp h₁'
  rw [run_sendData] at hsend
  obtain ⟨u₂, t₂, hthrow₂, h₂'⟩ := (Program.run_bind_ok _).mp h₂
  obtain ⟨rfl, rfl⟩ := run_throwIfNot hthrow₂
  rw [if_neg hcode] at h₂'
  obtain ⟨received, s₃, hreceive, h₃⟩ := (Program.run_bind_ok _).mp h₂'
  rw [run_receiveData] at hreceive
  obtain ⟨u₃, t₃, hthrow₃, -⟩ := (Program.run_bind_ok _).mp h₃
  obtain ⟨rfl, rfl⟩ := run_throwIfNot hthrow₃
  obtain ⟨c, r, hclient, rfl, hrequest, hconn, rfl, hlives⟩ := sent_of_ok hs hload htrue hsend
  -- an answer came, so the thread was there
  have hsilence : ∀ {t : Linked K σ}, t.client.connection.incoming = [] →
      Linked.exec select .receiveData t ≠ (.ok true, t₃) := by
    intro t hnone heq
    have hnothing : ConnectionHandler.receiveData t.client.members.responsePacket
        t.client.connection = (.ok false, t.client.members.responsePacket,
          { t.client.connection with error := true }) := by
      simp [ConnectionHandler.receiveData, ConnectionHandler.read, hnone]
    simp only [Linked.exec, Client.exec, hnothing] at heq
    cases (Prod.mk.inj heq).1
  have hlive : s.server.live = true := by
    by_contra hdead
    have hdead : s.server.live = false := Bool.not_eq_true _ ▸ hdead
    obtain ⟨connection, hsends, hkept, -⟩ := exec_send_gone hdead hsend
    refine hsilence ?_ hreceive
    rw [hsends]
    exact hkept.trans ((congrArg _ hconn).trans hs.heard)
  have hready := hlives hlive
  have hfits := @exec_send_fits K σ select s c r _ hready hconn hrequest
  rw [hsend] at hfits
  obtain ⟨-, rfl⟩ := Prod.mk.inj hfits
  obtain ⟨hanswers, hdies⟩ := served_cases hpolite r s.server.state
  rcases hserve : select r.received.1 r.received.2 s.server.state with ⟨result, state'⟩
  rw [hserve] at hanswers hdies
  have hnone : (served (result, state')).1 = [] → False := by
    intro hnil
    refine hsilence ?_ hreceive
    show (served (select r.received.1 r.received.2 s.server.state)).1.flatten = []
    rw [hserve, hnil]
    rfl
  rcases result with (e | _) | (_ | ⟨byte, bytes⟩) | _
  · exact (hnone rfl).elim
  · exact (hnone rfl).elim
  · exact (hnone rfl).elim
  · obtain ⟨-, -, hanswer⟩ := hanswers rfl
    obtain ⟨response, hresponse, hwell⟩ := hanswer hcode
    obtain rfl : byte :: bytes = response := by simpa [served] using hresponse
    obtain ⟨answer, hbuilt⟩ := exists_build hwell
    have hrun := run_sendAndRecieve hready hcode hclient hrequest hserve hbuilt
    rw [hall, Program.run_bind] at hrun
    obtain ⟨hreact, -⟩ := @run_alone K σ _ select _
      (alone_responseSelector pf.rsa pf.longBits)
      ⟨exchanged c answer.packet (after s.client.connection r.wire), ⟨[], true, state'⟩, false⟩
    have hkept := (@run_alone K σ _ select _
      (alone_responseSelector pf.rsa pf.longBits)
      ⟨exchanged c answer.packet (after s.client.connection r.wire), ⟨[], true, state'⟩, false⟩).2
    rw [hreact] at hrun
    rcases hreacted : Program.run Client.exec (responseSelector pf.rsa pf.longBits)
      (exchanged c answer.packet (after s.client.connection r.wire)) with ⟨e | _ | _, c'⟩
    · rw [hreacted] at hrun
      cases (Prod.mk.inj hrun).1
    · rw [hreacted] at hrun
      cases (Prod.mk.inj hrun).1
    · rw [hreacted] at hrun hkept
      obtain ⟨-, rfl⟩ := Prod.mk.inj hrun
      refine ⟨c, r, answer, rfl, hclient, hrequest, hready, ⟨_, hserve, hbuilt⟩, hreacted,
        rfl, rfl, ?_, ?_, ?_⟩
      · exact congrArg ConnectionHandler.incoming hkept
      · exact congrArg ConnectionHandler.error hkept
      · exact Nat.le_of_eq (congrArg ConnectionHandler.room hkept).symm
  · exact (hnone rfl).elim

/-- A 901 that went out: nothing is awaited, so the thread may be gone. -/
theorem resent_of_ok (hs : InStep s) {b : Bool}
    (h : Program.run (Linked.exec select) (sendAndRecieve pf .nValidCrc) s = (.ok b, s')) :
    ∃ (c : Process K) (r : Request) (connection : ConnectionHandler),
      Program.run Client.exec (requestSelector pf.aesEncryptBlock .nValidCrc) s.client =
        (.ok true, c) ∧ r.code = .nValidCrc ∧
      c.members.requestPacket = r.prepare c.members.requestPacket ∧
      s'.client = c.sends connection ∧
      (s'.server.state = s.server.state ∨
        s'.server = (served (select r.received.1 r.received.2 s.server.state)).2) := by
  rw [sendAndRecieve] at h
  obtain ⟨loaded, s₁, hload, h₁⟩ := (Program.run_bind_ok _).mp h
  obtain ⟨u₁, t₁, hthrow₁, h₁'⟩ := (Program.run_bind_ok _).mp h₁
  obtain ⟨htrue, rfl⟩ := run_throwIfNot hthrow₁
  obtain ⟨sent, s₂, hsend, h₂⟩ := (Program.run_bind_ok _).mp h₁'
  rw [run_sendData] at hsend
  obtain ⟨u₂, t₂, hthrow₂, h₂'⟩ := (Program.run_bind_ok _).mp h₂
  obtain ⟨rfl, rfl⟩ := run_throwIfNot hthrow₂
  rw [if_pos rfl] at h₂'
  obtain ⟨-, rfl⟩ := Prod.mk.inj h₂'
  obtain ⟨c, r, hclient, hcode, hrequest, hconn, rfl, hlives⟩ := sent_of_ok hs hload htrue hsend
  by_cases hlive : s.server.live = true
  · have hfits := @exec_send_fits K σ select s c r _ (hlives hlive) hconn hrequest
    rw [hsend] at hfits
    obtain ⟨-, rfl⟩ := Prod.mk.inj hfits
    exact ⟨c, r, _, hclient, hcode, hrequest, rfl, .inr rfl⟩
  · have hdead : s.server.live = false := Bool.not_eq_true _ ▸ hlive
    obtain ⟨connection, hsends, -, hstate⟩ := exec_send_gone hdead hsend
    exact ⟨c, r, connection, hclient, hcode, hrequest, hsends, .inl hstate⟩

end Inversion

/-! ## What the client makes of an answer -/

section Reaction

variable {c c' : Process K} {w : Nat} {rsa : Rsa K}

/-- A response is told by its bytes. -/
theorem build_injective {answer answer' : Response} {frame : Bytes}
    (h : answer.build = .ok frame) (h' : answer'.build = .ok frame) : answer = answer' := by
  obtain ⟨hv, hc, hn, rfl⟩ := Response.build_ok h
  obtain ⟨hv', hc', hn', heq⟩ := Response.build_ok h'
  obtain ⟨heq, hpayload⟩ := List.append_inj heq (by simp)
  obtain ⟨heq, hlength⟩ := List.append_inj heq (by simp)
  obtain ⟨hversion, hcode⟩ := List.append_inj heq (by simp)
  obtain ⟨version, code, payload⟩ := answer
  obtain ⟨version', code', payload'⟩ := answer'
  dsimp only at *
  have hversions := congrArg fromLE hversion
  have hcodes := congrArg fromLE hcode
  rw [fromLE_toLE hv, fromLE_toLE hv'] at hversions
  rw [fromLE_toLE hc, fromLE_toLE hc'] at hcodes
  rw [hversions, hcodes, hpayload]

/-- A response that is only noted changes nothing. -/
theorem run_responseSelector_noted {label : ResponseCode}
    (hcode : ResponseCode.ofValue c.members.responsePacket.code = some label)
    (hlabel : label = .generalErr ∨ label = .regFailed ∨ label = .reconnectFailed ∨
      label = .msgRecieved) :
    Program.run Client.exec (responseSelector rsa w) c = (.ok true, c) := by
  simp only [responseSelector, Program.run_bind, Cpp.run_members, hcode]
  rcases hlabel with rfl | rfl | rfl | rfl <;> rfl

/-- A 1603 sets the flag. -/
theorem run_responseSelector_crc
    (hcode : ResponseCode.ofValue c.members.responsePacket.code = some .validCrcFile)
    (h : Program.run Client.exec (responseSelector rsa w) c = (.ok true, c')) :
    ∃ crcValid, checkSum w c.members.requestHandler.transferInfo c.folder.file
        c.members.responsePacket.payload = .ok (true, crcValid) ∧
      c' = { c with members := { c.members with crcValid := crcValid } } := by
  simp only [responseSelector, receiveChecksum, Program.run_bind, Cpp.run_members, hcode,
    Cpp.run_lookup, Cpp.run_lift] at h
  have hdisk : checkSum w c.members.requestHandler.transferInfo
      (fun _ => c.folder.file c.members.requestHandler.transferInfo.path)
      c.members.responsePacket.payload =
    checkSum w c.members.requestHandler.transferInfo c.folder.file
      c.members.responsePacket.payload := rfl
  rw [hdisk] at h
  rcases hsum : checkSum w c.members.requestHandler.transferInfo c.folder.file
    c.members.responsePacket.payload with e | ⟨status, crcValid⟩
  · rw [hsum] at h
    cases h
  · obtain rfl := (checkSum_ok hsum).1
    rw [hsum] at h
    simp only [Cpp.run_assign, Program.pure_eq, Program.run_ret] at h
    cases h
    exact ⟨crcValid, rfl, rfl⟩

end Reaction

end FileTransfer.EndToEnd
