import FileTransfer.Client.ConnectionHandler
import FileTransfer.Client.RequestHandler
import FileTransfer.Server.Framing

/-!
# Requests across the wire

What `sendData` writes for a prepared request is one frame of the server's
framing. A session of requests is then a stream of frames, and successive calls
of `handle_request` take it apart again.
-/

namespace FileTransfer.EndToEnd

open FileTransfer.Client FileTransfer.Server

/-! ## One frame -/

/-- The 23 header bytes as the client lays them out. -/
def headerBytes (packet : RequestPacket) : Bytes :=
  packet.clientID.bytes ++ toLE 1 packet.version.toNat ++ toLE 2 packet.code.toNat ++
    toLE 4 packet.payloadSize.toNat

theorem length_headerBytes (packet : RequestPacket) :
    (headerBytes packet).length = Constants.headerSize := by
  simp [headerBytes, packet.clientID.length_eq]

/-- The four `memcpy` calls overwrite all of the header buffer. -/
theorem setReqHeaderBinaryData_eq (packet : RequestPacket) {header : Bytes}
    (h : header.length = fixedReqHeaderSize) :
    ConnectionHandler.setReqHeaderBinaryData packet header = some (headerBytes packet) := by
  have hlen : header.length = 23 := h
  have huid := packet.clientID.length_eq
  have h1 : blit header 0 packet.clientID.bytes =
      some (packet.clientID.bytes ++ header.drop 16) := by
    have hwrite : blit ([] ++ header) 0 packet.clientID.bytes = _ :=
      blit_append rfl (by omega)
    rwa [huid] at hwrite
  have h2 : blit (packet.clientID.bytes ++ header.drop 16) 16 (toLE 1 packet.version.toNat) =
      some (packet.clientID.bytes ++ toLE 1 packet.version.toNat ++ header.drop 17) := by
    rw [blit_append huid (by simp [hlen]), length_toLE, List.drop_drop]
  have h3 : blit (packet.clientID.bytes ++ toLE 1 packet.version.toNat ++ header.drop 17) 17
      (toLE 2 packet.code.toNat) =
      some (packet.clientID.bytes ++ toLE 1 packet.version.toNat ++ toLE 2 packet.code.toNat ++
        header.drop 19) := by
    rw [blit_append (by simp [huid]) (by simp [hlen]), length_toLE, List.drop_drop]
  have h4 : blit (packet.clientID.bytes ++ toLE 1 packet.version.toNat ++
      toLE 2 packet.code.toNat ++ header.drop 19) 19 (toLE 4 packet.payloadSize.toNat) =
      some (headerBytes packet) := by
    have hend : header.drop 23 = [] := List.drop_eq_nil_of_le (by omega)
    rw [blit_append (by simp [huid]) (by simp [hlen]), length_toLE, List.drop_drop, hend,
      List.append_nil, headerBytes]
  simp only [ConnectionHandler.setReqHeaderBinaryData, h1, h2, h3, h4, Option.bind_eq_bind,
    Option.bind_some]

/-- Both sides agree on where the header fields are. -/
theorem unpackHeader_headerBytes (packet : RequestPacket) :
    unpackHeader (headerBytes packet) =
      some ⟨packet.clientID, packet.version.toNat, packet.code.toNat,
        packet.payloadSize.toNat⟩ := by
  have huid := packet.clientID.length_eq
  have hversion : packet.version.toNat < 256 ^ 1 := packet.version.toNat_lt
  have hcode : packet.code.toNat < 256 ^ 2 := packet.code.toNat_lt
  have hsize : packet.payloadSize.toNat < 256 ^ 4 := packet.payloadSize.toNat_lt
  have hlen : (headerBytes packet).length = 23 := length_headerBytes packet
  have h0 : (headerBytes packet).take 16 = packet.clientID.bytes := by
    simp only [headerBytes, List.append_assoc, List.take_left' huid]
  have h1 : slice (headerBytes packet) 16 17 = toLE 1 packet.version.toNat := by
    rw [headerBytes, List.append_assoc]
    exact slice_append huid (by simp)
  have h2 : slice (headerBytes packet) 17 19 = toLE 2 packet.code.toNat :=
    slice_append (by simp [huid]) (by simp)
  have h3 : slice (headerBytes packet) 19 23 = toLE 4 packet.payloadSize.toNat := by
    rw [headerBytes, ← List.append_nil (_ ++ toLE 4 _)]
    exact slice_append (by simp [huid]) (by simp)
  rw [unpackHeader, dif_pos hlen]
  simp only [h0, h1, h2, h3, fromLE_toLE hversion, fromLE_toLE hcode, fromLE_toLE hsize]

/-- A packet whose size field is right is one complete frame. -/
theorem nextFrame_wire {packet : RequestPacket}
    (h : packet.payloadSize.toNat = packet.payload.length) (rest : Bytes) :
    Conn.nextFrame (headerBytes packet ++ packet.payload ++ rest) =
      some (⟨packet.clientID, packet.version.toNat, packet.code.toNat, packet.payload.length⟩,
        packet.payload, rest) := by
  have hlen := length_headerBytes packet
  have htake : (headerBytes packet ++ packet.payload ++ rest).take Constants.headerSize =
      headerBytes packet := by
    rw [List.append_assoc, List.take_left' hlen]
  have hdrop : (headerBytes packet ++ packet.payload ++ rest).drop Constants.headerSize =
      packet.payload ++ rest := by
    rw [List.append_assoc, List.drop_left' hlen]
  have hle : Constants.headerSize + packet.payload.length ≤
      (headerBytes packet ++ packet.payload ++ rest).length := by
    simp only [List.length_append, hlen]
    omega
  rw [Conn.nextFrame, htake, unpackHeader_headerBytes, h]
  simp only [if_pos hle, ← List.drop_drop, hdrop, List.take_left, List.drop_left]

/-! ## Sending -/

/-- A write that succeeds appends all of the data. -/
theorem write_ok {ch ch' : ConnectionHandler} {data : Bytes} {n : Nat}
    (h : ch.write data = (.ok n, ch')) : ch'.outgoing = ch.outgoing ++ data := by
  simp only [ConnectionHandler.write] at h
  split at h
  · next hle =>
    obtain ⟨-, rfl⟩ := Prod.mk.inj h
    simp only [List.take_of_length_le hle]
  · cases (Prod.mk.inj h).1

/-- The chunk loop, when it returns true, has written what was left of the
payload. -/
theorem sendLoop_ok {payload : Bytes} {size offset : Nat} {ch ch' : ConnectionHandler}
    (hsize : offset + size = payload.length)
    (h : ConnectionHandler.sendLoop payload size offset ch = (.ok true, ch')) :
    ch'.outgoing = ch.outgoing ++ payload.drop offset := by
  induction size using Nat.strong_induction_on generalizing offset ch with
  | _ size ih =>
    rw [ConnectionHandler.sendLoop] at h
    split at h
    · next hpos =>
      have hchunk : 0 < chunkSize := by decide
      have hbound : offset + min size chunkSize ≤ payload.length := by omega
      simp only [peek, if_pos hbound] at h
      split at h
      · cases (Prod.mk.inj h).1
      · next n ch₁ hwrite =>
        split at h
        · cases (Prod.mk.inj h).1
        · split at h
          · cases (Prod.mk.inj h).1
          · -- the chunk is out, and the loop goes on behind it
            have hrest := ih _ (by omega) (by omega) h
            rw [hrest, write_ok hwrite, List.append_assoc, ← List.drop_drop,
              List.take_append_drop]
    · next hzero =>
      obtain ⟨-, rfl⟩ := Prod.mk.inj h
      rw [List.drop_eq_nil_of_le (by omega), List.append_nil]

/-- **One send is one frame**: `sendData` that returns true has written the
header and the payload. -/
theorem sendData_ok {packet : RequestPacket} {ch ch' : ConnectionHandler}
    (h : ConnectionHandler.sendData packet ch = (.ok true, ch')) :
    ch'.outgoing = ch.outgoing ++ (headerBytes packet ++ packet.payload) := by
  rw [ConnectionHandler.sendData,
    setReqHeaderBinaryData_eq packet (List.length_replicate ..)] at h
  simp only at h
  split at h
  · cases (Prod.mk.inj h).1
  · next n ch₁ hwrite =>
    split at h
    · cases (Prod.mk.inj h).1
    · rw [sendLoop_ok (Nat.zero_add _) h, write_ok hwrite, List.drop_zero, List.append_assoc]

/-- A connection in good order with room for `n` more bytes. -/
def Takes (ch : ConnectionHandler) (n : Nat) : Prop := ch.error = false ∧ n ≤ ch.room

theorem write_of_takes {ch : ConnectionHandler} {data : Bytes} {n : Nat}
    (h : Takes ch (data.length + n)) :
    ∃ ch', ch.write data = (.ok data.length, ch') ∧ Takes ch' n := by
  obtain ⟨herror, hroom⟩ := h
  have hle : data.length ≤ ch.room := by omega
  refine ⟨{ ch with
    outgoing := ch.outgoing ++ data.take ch.room, room := ch.room - data.length }, ?_, herror, ?_⟩
  · simp only [ConnectionHandler.write, if_pos hle]
  · show n ≤ ch.room - data.length
    omega

theorem sendLoop_of_takes {payload : Bytes} {size offset n : Nat} {ch : ConnectionHandler}
    (hsize : offset + size = payload.length) (h : Takes ch (size + n)) :
    ∃ ch', ConnectionHandler.sendLoop payload size offset ch = (.ok true, ch') ∧ Takes ch' n := by
  induction size using Nat.strong_induction_on generalizing offset ch with
  | _ size ih =>
    rw [ConnectionHandler.sendLoop]
    by_cases hpos : 0 < size
    · have hchunk : 0 < chunkSize := by decide
      have hbound : offset + min size chunkSize ≤ payload.length := by omega
      have hlen : ((payload.drop offset).take (min size chunkSize)).length =
          min size chunkSize := by
        rw [List.length_take, List.length_drop]
        omega
      have hroom : Takes ch (((payload.drop offset).take (min size chunkSize)).length +
          (size - min size chunkSize + n)) := ⟨h.1, by have := h.2; omega⟩
      obtain ⟨ch₁, hwrite, htakes⟩ := write_of_takes hroom
      have hnext : offset + min size chunkSize + (size - min size chunkSize) =
          payload.length := by omega
      obtain ⟨ch₂, hloop, hrest⟩ := ih _ (by omega) hnext htakes
      refine ⟨ch₂, ?_, hrest⟩
      have herror : ch₁.error = false := htakes.1
      rw [dif_pos hpos]
      simp only [peek, if_pos hbound, hwrite, hlen, ne_eq, not_true_eq_false, if_false, herror,
        Bool.false_eq_true, hloop]
    · obtain rfl : size = 0 := by omega
      exact ⟨ch, dif_neg hpos, by simpa using h⟩

/-- A connection that takes the whole frame makes `sendData` return true. -/
theorem sendData_of_takes {packet : RequestPacket} {ch : ConnectionHandler} {n : Nat}
    (h : Takes ch ((headerBytes packet ++ packet.payload).length + n)) :
    ∃ ch', ConnectionHandler.sendData packet ch = (.ok true, ch') ∧ Takes ch' n := by
  rw [List.length_append, Nat.add_assoc] at h
  obtain ⟨ch₁, hwrite, htakes⟩ := write_of_takes h
  obtain ⟨ch₂, hloop, hrest⟩ := sendLoop_of_takes (Nat.zero_add packet.payload.length) htakes
  refine ⟨ch₂, ?_, hrest⟩
  have hlen : (headerBytes packet).length = fixedReqHeaderSize := length_headerBytes packet
  rw [ConnectionHandler.sendData,
    setReqHeaderBinaryData_eq packet (List.length_replicate ..)]
  simp only [hwrite, hlen, ne_eq, not_true_eq_false, if_false, ConnectionHandler.sendInChunks,
    hloop]

/-! ## Sessions -/

/-- What a caller of `initRequest` decides. -/
structure Request where
  clientID : Uid
  code : RequestCode
  payload : Bytes
  length_lt : payload.length < 2 ^ 32

namespace Request

/-- Prepare the packet: `initRequest`, then the client ID and the payload. -/
def prepare (r : Request) (packet : RequestPacket) : RequestPacket :=
  { initRequest packet r.code (UInt32.ofNat r.payload.length) with
    clientID := r.clientID
    payload := r.payload }

/-- The bytes of a request on the wire. -/
def wire (r : Request) : Bytes :=
  r.clientID.bytes ++ toLE 1 3 ++ toLE 2 r.code.value.toNat ++ toLE 4 r.payload.length ++
    r.payload

/-- What `req_select` should be called with. -/
def received (r : Request) : Header × Bytes :=
  (⟨r.clientID, 3, r.code.value.toNat, r.payload.length⟩, r.payload)

/-- Send requests one after another through one packet object. -/
def sendAll : List Request → RequestPacket → ConnectionHandler →
    Except Fault Bool × ConnectionHandler
  | [], _, ch => (.ok true, ch)
  | r :: rs, packet, ch =>
    match ConnectionHandler.sendData (r.prepare packet) ch with
    | (.ok true, ch') => sendAll rs (r.prepare packet) ch'
    | failed => failed

theorem prepare_payloadSize (r : Request) (packet : RequestPacket) :
    (r.prepare packet).payloadSize.toNat = r.payload.length :=
  UInt32.toNat_ofNat_of_lt r.length_lt

theorem wire_eq (r : Request) (packet : RequestPacket) :
    headerBytes (r.prepare packet) ++ (r.prepare packet).payload = r.wire := by
  rw [headerBytes, prepare_payloadSize]
  rfl

/-- The wire form of a request is the next frame of the stream. -/
theorem nextFrame_wire (r : Request) (rest : Bytes) :
    Conn.nextFrame (r.wire ++ rest) = some (r.received.1, r.received.2, rest) := by
  have packet : RequestPacket := ⟨r.clientID, 0, 0, 0, []⟩
  rw [← r.wire_eq packet, EndToEnd.nextFrame_wire (r.prepare_payloadSize packet)]
  rfl

theorem sendAll_ok {rs : List Request} {packet : RequestPacket} {ch ch' : ConnectionHandler}
    (h : sendAll rs packet ch = (.ok true, ch')) :
    ch'.outgoing = ch.outgoing ++ (rs.map wire).flatten := by
  induction rs generalizing packet ch with
  | nil =>
    obtain ⟨-, rfl⟩ := Prod.mk.inj h
    simp
  | cons r rs ih =>
    simp only [sendAll] at h
    split at h
    · next ch₁ hsend =>
      rw [ih h, sendData_ok hsend, wire_eq, List.map_cons, List.flatten_cons, List.append_assoc]
    · next hfailed => exact absurd h (hfailed _)

theorem sendAll_of_takes {rs : List Request} {packet : RequestPacket} {ch : ConnectionHandler}
    (h : Takes ch (rs.map wire).flatten.length) : (sendAll rs packet ch).1 = .ok true := by
  induction rs generalizing packet ch with
  | nil => rfl
  | cons r rs ih =>
    rw [List.map_cons, List.flatten_cons, List.length_append, ← wire_eq r packet] at h
    obtain ⟨ch₁, hsend, hrest⟩ := sendData_of_takes h
    simp only [sendAll, hsend]
    exact ih hrest

end Request

/-- The connection after `n` successive calls that get as far as `req_select`. -/
def afterRequests : Nat → Conn → Conn
  | 0, c => c
  | n + 1, c => afterRequests n (c.receiveRequest).2

/-- One frame, read in full. -/
theorem receiveRequest_wire {r : Request} {rest : Bytes} {c : Conn}
    (hstream : c.stream = r.wire ++ rest) (hfull : c.FullReads) :
    (c.receiveRequest).1 = some r.received ∧ (c.receiveRequest).2.stream = rest := by
  have hwell := (Conn.wellFramed_iff c).mpr hfull
  rw [Conn.WellFramed, hstream, r.nextFrame_wire rest] at hwell
  exact hwell

/-- Full reads take a stream of requests apart, and each call leaves the stream
at the beginning of the next request. -/
theorem requests_of_wire {rs : List Request} {c : Conn} {rest : Bytes}
    (hstream : c.stream = (rs.map Request.wire).flatten ++ rest)
    (hfull : Conn.AtEachCall Conn.FullReads rs.length c) :
    Conn.requests rs.length c = rs.map Request.received ∧
      ∀ k ≤ rs.length, (afterRequests k c).stream =
        ((rs.drop k).map Request.wire).flatten ++ rest := by
  induction rs generalizing c with
  | nil =>
    refine ⟨rfl, fun k hk => ?_⟩
    obtain rfl : k = 0 := Nat.le_zero.mp hk
    exact hstream
  | cons r rs ih =>
    rw [List.map_cons, List.flatten_cons, List.append_assoc] at hstream
    obtain ⟨hreq, hrest⟩ := receiveRequest_wire hstream hfull.1
    obtain ⟨hrs, hafter⟩ := ih hrest (hfull.2 (by rw [hreq]; rfl))
    refine ⟨?_, fun k hk => ?_⟩
    · show Conn.requests (rs.length + 1) c = _
      simp only [Conn.requests, hreq, hrs, List.map_cons]
    · cases k with
      | zero =>
        rw [List.drop_zero, List.map_cons, List.flatten_cons, List.append_assoc]
        exact hstream
      | succ k => exact hafter k (by simpa using hk)

/-- **Requests arrive as they were prepared.** Any list of requests can be sent
over a connection with room for it; and when it has been sent and the server's
reads are full, successive calls of `handle_request` pass exactly these requests
to `req_select`, in order, each leaving the stream at the next one. -/
theorem requests_roundtrip (rs : List Request) (packet : RequestPacket)
    (ch : ConnectionHandler) :
    (Takes ch (rs.map Request.wire).flatten.length →
        (Request.sendAll rs packet ch).1 = .ok true) ∧
      ∀ ch', Request.sendAll rs packet ch = (.ok true, ch') →
        ∃ sent, ch'.outgoing = ch.outgoing ++ sent ∧
          ∀ (c : Conn) (rest : Bytes), c.stream = sent ++ rest →
            Conn.AtEachCall Conn.FullReads rs.length c →
            Conn.requests rs.length c = rs.map Request.received ∧
              ∀ k ≤ rs.length, (afterRequests k c).stream =
                ((rs.drop k).map Request.wire).flatten ++ rest :=
  ⟨Request.sendAll_of_takes, fun _ hsent =>
    ⟨_, Request.sendAll_ok hsent, fun _ _ hstream hfull => requests_of_wire hstream hfull⟩⟩

/-! ## Transports that never cut a chunk short -/

theorem recvAll_cut (ns : List Nat) (c : Conn) : (Conn.recvAll ns c).2.cut = c.cut := by
  induction ns generalizing c with
  | nil => rfl
  | cons n ns ih => exact ih _

/-- Reading leaves the transport as it is. -/
theorem receiveRequest_cut (c : Conn) : (c.receiveRequest).2.cut = c.cut := by
  simp only [Conn.receiveRequest]
  split
  · rfl
  · split
    · rfl
    · rw [Conn.receivePayload_eq, recvAll_cut, Conn.recv_cut]

theorem grants_of_uncut {cut : Nat → Nat} (hcut : ∀ i, Constants.chunkSize ≤ cut i)
    {ns : List Nat} (hns : ∀ n ∈ ns, n ≤ Constants.chunkSize) (i : Nat) :
    Conn.Grants cut i ns := by
  induction ns generalizing i with
  | nil => trivial
  | cons n ns ih =>
    have hn := hns n (List.mem_cons_self ..)
    have hi := hcut i
    exact ⟨by omega, ih (fun m hm => hns m (List.mem_cons_of_mem n hm)) (i + 1)⟩

/-- A transport that returns all it is asked for, up to a chunk, reads every
request of a session in full. -/
theorem atEachCall_of_uncut {rs : List Request} {rest : Bytes} {c : Conn}
    (hstream : c.stream = (rs.map Request.wire).flatten ++ rest)
    (hcut : ∀ i, Constants.chunkSize ≤ c.cut i) :
    Conn.AtEachCall Conn.FullReads rs.length c := by
  induction rs generalizing c with
  | nil => trivial
  | cons r rs ih =>
    rw [List.map_cons, List.flatten_cons, List.append_assoc] at hstream
    have hfull : c.FullReads := by
      rw [Conn.FullReads, hstream, r.nextFrame_wire _]
      refine grants_of_uncut hcut (fun n hn => ?_) _
      rcases List.mem_cons.mp hn with rfl | hn
      · decide
      · exact (pos_of_mem_chunkSizes (by decide) hn).2
    refine ⟨hfull, fun _ => ih (receiveRequest_wire hstream hfull).2 ?_⟩
    rw [receiveRequest_cut]
    exact hcut

/-- A sign-in of the user `"a"`, then a key exchange without a payload. -/
def twoRequests : List Request :=
  [⟨⟨List.replicate 16 7, rfl⟩, .reconnect, [0x61, 0], by decide⟩,
    ⟨⟨List.replicate 16 7, rfl⟩, .sPublicKey, [], by decide⟩]

/-- The client before its first request. -/
def beforeTwo : RequestPacket × ConnectionHandler :=
  (⟨⟨List.replicate 16 0, rfl⟩, 0, 0, 0, []⟩, ⟨[], [], 4096, false⟩)

theorem twoRequests_arrive :
    Conn.requests 2 ⟨(twoRequests.map Request.wire).flatten, fun _ => 1024, 0⟩ =
      twoRequests.map Request.received := by
  obtain ⟨hsends, harrive⟩ := requests_roundtrip twoRequests beforeTwo.1 beforeTwo.2
  have hok := hsends ⟨rfl, by decide⟩
  obtain ⟨sent, hout, hreceive⟩ := harrive _ (Prod.ext hok rfl)
  have hsent : sent = (twoRequests.map Request.wire).flatten := by
    have hall := Request.sendAll_ok (Prod.ext hok rfl)
    exact List.append_cancel_left (hout.symm.trans hall)
  subst hsent
  have hstream := (List.append_nil (twoRequests.map Request.wire).flatten).symm
  exact (hreceive _ [] hstream (atEachCall_of_uncut hstream fun _ => Nat.le_refl _)).1

end FileTransfer.EndToEnd
