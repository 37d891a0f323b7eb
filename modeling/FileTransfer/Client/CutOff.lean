import FileTransfer.Client.Identity

/-!
# Responses that are cut off

The stream ends before the frame does: in the header, between two chunks of the
payload, or inside one. Only the first of these is reported; `receiveInChunks` throws
the error code itself, which is no `std::exception`.
-/

namespace FileTransfer.Client

open FileTransfer.Effect

/-- The stream ends before the frame that it begins with: with the header, or with the
payload whose size is in the last four bytes of the header. -/
def CutOff (incoming : Bytes) : Prop :=
  incoming.length < fixedRespHeaderSize + fromLE (slice incoming 3 7)

instance (incoming : Bytes) : Decidable (CutOff incoming) :=
  inferInstanceAs (Decidable (_ < _))

/-! ## One response -/

/-- A loop that has to read more than there is throws the error code. -/
theorem receiveLoop_cut {payloadSize : Nat} {packet : ResponsePacket} {ch : ConnectionHandler}
    (h : ch.incoming.length < payloadSize) :
    (ConnectionHandler.receiveLoop payloadSize (min payloadSize chunkSize) packet ch).1 =
      .error .errorCode := by
  induction payloadSize using Nat.strong_induction_on generalizing packet ch with
  | _ payloadSize ih =>
    have hchunk : 0 < chunkSize := by decide
    rw [ConnectionHandler.receiveLoop, dif_pos (by omega)]
    by_cases hshort : ch.incoming.length < min payloadSize chunkSize
    · -- the stream ends in this chunk
      have herror : (ch.read (min payloadSize chunkSize)).2.error = true := decide_eq_true hshort
      simp only [herror, if_true]
    · -- a full chunk, and too little behind it
      have herror : (ch.read (min payloadSize chunkSize)).2.error = false :=
        decide_eq_false hshort
      have hread : (ch.read (min payloadSize chunkSize)).1.length = min payloadSize chunkSize := by
        simp only [ConnectionHandler.read, List.length_take]
        omega
      have hrest : (ch.read (min payloadSize chunkSize)).2.incoming.length <
          payloadSize - min payloadSize chunkSize := by
        simp only [ConnectionHandler.read, List.length_drop]
        omega
      simp only [herror, Bool.false_eq_true, if_false]
      rw [dif_neg (by omega)]
      exact ih _ (by omega) hrest

/-- Less than a header is reported. -/
theorem receiveData_headless (packet : ResponsePacket) {ch : ConnectionHandler}
    (h : ch.incoming.length < fixedRespHeaderSize) :
    (ConnectionHandler.receiveData packet ch).1 = .ok false := by
  have hread : (ch.read fixedRespHeaderSize).1.length ≠ fixedRespHeaderSize := by
    simp only [ConnectionHandler.read, List.length_take]
    omega
  simp only [ConnectionHandler.receiveData, if_pos hread]

/-- The payload size is in the last four bytes of a whole header. -/
theorem setRespHeaderBinaryData_size (packet : ResponsePacket) {header : Bytes}
    (h : header.length = fixedRespHeaderSize) :
    ∃ packet', ConnectionHandler.setRespHeaderBinaryData packet header = some packet' ∧
      packet'.payloadSize.toNat = fromLE (header.drop 3) := by
  have h : header.length = 7 := h
  have hversion : peek header 0 1 = some ((header.drop 0).take 1) := if_pos (by omega)
  have hcode : peek header 1 2 = some ((header.drop 1).take 2) := if_pos (by omega)
  have hsize : peek header 3 4 = some (header.drop 3) := by
    rw [peek, if_pos (by omega), List.take_of_length_le]
    rw [List.length_drop, h]
  have hlt : fromLE (header.drop 3) < 2 ^ 32 := by
    have hbound := fromLE_lt (header.drop 3)
    rw [List.length_drop, h] at hbound
    exact hbound
  simp only [ConnectionHandler.setRespHeaderBinaryData, hversion, hcode, hsize]
  exact ⟨_, rfl, UInt32.toNat_ofNat_of_lt hlt⟩

/-- A header without its whole payload is not. -/
theorem receiveData_cut (packet : ResponsePacket) {ch : ConnectionHandler}
    (hcut : CutOff ch.incoming) (h : fixedRespHeaderSize ≤ ch.incoming.length) :
    (ConnectionHandler.receiveData packet ch).1 = .error .errorCode := by
  have hheader : (ch.read fixedRespHeaderSize).1.length = fixedRespHeaderSize :=
    List.length_take_of_le h
  obtain ⟨packet', hset, hsize⟩ := setRespHeaderBinaryData_size packet hheader
  have hrest : (ch.read fixedRespHeaderSize).2.incoming.length < packet'.payloadSize.toNat := by
    have hslice : (ch.read fixedRespHeaderSize).1.drop 3 = slice ch.incoming 3 7 := rfl
    rw [hsize, hslice]
    simp only [CutOff] at hcut
    simp only [ConnectionHandler.read, List.length_drop]
    omega
  simp only [ConnectionHandler.receiveData, hheader, ne_eq, not_true_eq_false, if_false, hset,
    ConnectionHandler.receiveInChunks, Nat.min_comm chunkSize]
  exact receiveLoop_cut hrest

/-! ## In an exchange -/

variable {K : Type} (pf : Platform K)

/-- The request for `code` has been built and sent, and the process waits in `t` for the
response. -/
def Awaits (code : RequestCode) (s t : Process K) : Prop :=
  Program.run exec (do
    throwIfNot (← requestSelector pf.aesEncryptBlock code)
    throwIfNot (← Cpp.sendData)) s = (.ok (), t)

variable {pf}

/-- What is left of `sendAndRecieve` when the response is awaited. -/
theorem Awaits.run_sendAndRecieve {code : RequestCode} {s t : Process K}
    (h : Awaits pf code s t) (hcode : code ≠ .nValidCrc) :
    Program.run exec (sendAndRecieve pf code) s = Program.run exec (do
      throwIfNot (← Cpp.receiveData)
      throwIfNot (← responseSelector pf.rsa pf.longBits)
      pure true) t := by
  have hsplit : sendAndRecieve pf code = (do
      throwIfNot (← requestSelector pf.aesEncryptBlock code)
      throwIfNot (← Cpp.sendData)) >>= fun _ => (do
        throwIfNot (← Cpp.receiveData)
        throwIfNot (← responseSelector pf.rsa pf.longBits)
        pure true) := by
    simp only [sendAndRecieve, Program.bind_assoc, if_neg hcode]
  rw [hsplit, Program.run_bind, show Program.run exec _ s = _ from h]

/-- An exception that the first part of a `try` throws is caught. -/
theorem run_catchException_bind {α β : Type} {first : Cpp K α} {rest : α → Cpp K β}
    {otherwise : β} {s : Process K} (h : (Program.run exec first s).1 = .error .exception) :
    (Program.run exec (Cpp.catchException otherwise (first >>= rest)) s).1 = .ok otherwise := by
  rw [Cpp.run_catchException, Program.run_bind]
  generalize Program.run exec first s = result at h
  obtain ⟨r, s'⟩ := result
  obtain rfl : r = .error .exception := h
  rfl

/-- So is one of the exchange, where a client is registered. -/
theorem run_registerNewClient_of_exception {s : Process K}
    (h : (Program.run exec (sendAndRecieve pf .register) s).1 = .error .exception) :
    (Program.run exec (registerNewClient pf) s).1 = .ok false :=
  run_catchException_bind h

/-- And where it signs in. -/
theorem run_signIn_of_exception {s : Process K}
    (h : (Program.run exec (sendAndRecieve pf .reconnect) s).1 = .error .exception) :
    (Program.run exec (signIn pf) s).1 = .ok false :=
  run_catchException_bind h

variable (pf)

/-- A response that is cut off is reported: by `receiveData`, by an exception of the
exchange that awaits it, and by the operation that catches this. -/
structure ReportsCutOff (packet : ResponsePacket) (ch : ConnectionHandler) : Prop where
  receiveData : (ConnectionHandler.receiveData packet ch).1 = .ok false
  sendAndRecieve : ∀ code s t, code ≠ .nValidCrc → Awaits pf code s t →
    t.members.responsePacket = packet → t.connection = ch →
      (Program.run exec (sendAndRecieve pf code) s).1 = .error .exception
  registerNewClient : ∀ s t, Awaits pf .register s t →
    t.members.responsePacket = packet → t.connection = ch →
      (Program.run exec (registerNewClient pf) s).1 = .ok false
  signIn : ∀ s t, Awaits pf .reconnect s t →
    t.members.responsePacket = packet → t.connection = ch →
      (Program.run exec (signIn pf) s).1 = .ok false

variable {pf}

/-- **A cut-off response is reported** where it is cut off in its header, and only
there. -/
theorem reportsCutOff_iff {packet : ResponsePacket} {ch : ConnectionHandler}
    (hcut : CutOff ch.incoming) :
    ReportsCutOff pf packet ch ↔ ch.incoming.length < fixedRespHeaderSize := by
  constructor
  · intro h
    by_contra hlong
    have hthrown := receiveData_cut packet hcut (Nat.le_of_not_lt hlong)
    rw [h.receiveData] at hthrown
    cases hthrown
  · intro hshort
    have hfalse := receiveData_headless packet hshort
    have hexchange : ∀ code s t, code ≠ .nValidCrc → Awaits pf code s t →
        t.members.responsePacket = packet → t.connection = ch →
          (Program.run exec (sendAndRecieve pf code) s).1 = .error .exception := by
      intro code s t hcode hawaits hpacket hconnection
      rw [hawaits.run_sendAndRecieve hcode, Program.run_bind, Cpp.run_receiveData, exec]
      simp only [hpacket, hconnection, hfalse]
      rfl
    refine ⟨hfalse, hexchange, ?_, ?_⟩
    · intro s t hawaits hpacket hconnection
      exact run_registerNewClient_of_exception
        (hexchange .register s t (by decide) hawaits hpacket hconnection)
    · intro s t hawaits hpacket hconnection
      exact run_signIn_of_exception
        (hexchange .reconnect s t (by decide) hawaits hpacket hconnection)

/-- A registration whose response ends after three bytes returns `false`. -/
theorem headless_registration_reported :
    (Program.run exec (registerNewClient toyPlatform)
      (toyProcess [1] (fun _ => none) [3, 0x40, 6])).1 = .ok false := by
  obtain ⟨t, ht⟩ : ∃ t, t = (Program.run exec (do
    throwIfNot (← requestSelector toyPlatform.aesEncryptBlock .register)
    throwIfNot (← Cpp.sendData)) (toyProcess [1] (fun _ => none) [3, 0x40, 6])).2 := ⟨_, rfl⟩
  have hawaits : Awaits toyPlatform .register (toyProcess [1] (fun _ => none) [3, 0x40, 6]) t := by
    rw [ht, Awaits]
    exact Prod.ext (by decide +kernel) rfl
  have hincoming : t.connection.incoming = [3, 0x40, 6] := by
    rw [ht]
    decide +kernel
  have hcut : CutOff t.connection.incoming := by
    rw [hincoming]
    decide
  have hshort : t.connection.incoming.length < fixedRespHeaderSize := by
    rw [hincoming]
    decide
  exact ((@reportsCutOff_iff Bytes toyPlatform _ _ hcut).mpr hshort).registerNewClient _ t hawaits
    rfl rfl

/-- A 1600 with two bytes of its sixteen. -/
def cutPayload : Bytes := [3, 0x40, 6, 16, 0, 0, 0, 9, 9]

/-- It is not reported, and the registration does not return. -/
theorem cut_payload_escapes :
    CutOff cutPayload ∧ ¬ ReportsCutOff toyPlatform ⟨0, 0, 0, []⟩ ⟨cutPayload, [], 0, false⟩ ∧
      (Program.run exec (registerNewClient toyPlatform)
        (toyProcess [1] (fun _ => none) cutPayload)).1 = .error .errorCode := by
  have hcut : CutOff cutPayload := by decide
  refine ⟨hcut, ?_, by decide +kernel⟩
  intro h
  have hthrown := @receiveData_cut ⟨0, 0, 0, []⟩ ⟨cutPayload, [], 0, false⟩ hcut (by decide)
  rw [h.receiveData] at hthrown
  cases hthrown

end FileTransfer.Client
