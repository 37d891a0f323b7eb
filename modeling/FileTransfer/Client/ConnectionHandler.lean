import FileTransfer.Client.Protocol

/-!
# The client's `connectionHandler.cpp`

A `ConnectionHandler` is the state the methods share: both directions of the
socket, and the member `_error` that every read sets. `boost::asio::write` takes
all bytes or throws; `boost::asio::read` fills its buffer or sets the error.
Console messages are left out.
-/

namespace FileTransfer.Client

/-- `incoming` is what the server will have sent before it closes; `outgoing` is
what the client has written; `room` is how many more bytes the connection takes
before it breaks. -/
structure ConnectionHandler where
  incoming : Bytes
  outgoing : Bytes
  room : Nat
  error : Bool

namespace ConnectionHandler

/-- `boost::asio::write(_socket, buffer)`. -/
def write (ch : ConnectionHandler) (data : Bytes) : Except Fault Nat × ConnectionHandler :=
  let ch' := { ch with
    outgoing := ch.outgoing ++ data.take ch.room
    room := ch.room - data.length }
  if data.length ≤ ch.room then (.ok data.length, ch') else (.error .exception, ch')

/-- `boost::asio::read(_socket, buffer, _error)` with a buffer of `n` bytes. -/
def read (ch : ConnectionHandler) (n : Nat) : Bytes × ConnectionHandler :=
  (ch.incoming.take n,
    { ch with
      incoming := ch.incoming.drop n
      error := decide (ch.incoming.length < n) })

/-! ## Sending -/

/-- `setReqHeaderBinaryData`: four `memcpy` calls into `header`. -/
def setReqHeaderBinaryData (packet : RequestPacket) (header : Bytes) : Option Bytes := do
  let header ← blit header 0 packet.clientID.bytes
  let header ← blit header 16 (toLE 1 packet.version.toNat)
  let header ← blit header 17 (toLE 2 packet.code.toNat)
  blit header 19 (toLE 4 packet.payloadSize.toNat)

/-- The loop of `sendInChunks`; `toSend` is `min(size, CHUNK_SIZE)` whenever the
loop is entered. -/
def sendLoop (payload : Bytes) (size offset : Nat) (ch : ConnectionHandler) :
    Except Fault Bool × ConnectionHandler :=
  if _h : 0 < size then
    let toSend := min size chunkSize
    match peek payload offset toSend with
    | none => (.error .outOfBounds, ch)
    | some data =>
      match ch.write data with
      | (.error e, ch') => (.error e, ch')
      | (.ok bytesSent, ch') =>
        if bytesSent ≠ toSend then (.ok false, ch')
        else if ch'.error then (.ok false, ch')
        else sendLoop payload (size - toSend) (offset + toSend) ch'
  else (.ok true, ch)
termination_by size
decreasing_by
  have hchunk : 0 < chunkSize := by decide
  omega

def sendInChunks (payload : Bytes) (ch : ConnectionHandler) :
    Except Fault Bool × ConnectionHandler :=
  sendLoop payload payload.length 0 ch

/-- `sendData`. The header buffer is not initialised; `setReqHeaderBinaryData_eq`
says that nothing of it is left. -/
def sendData (packet : RequestPacket) (ch : ConnectionHandler) :
    Except Fault Bool × ConnectionHandler :=
  match setReqHeaderBinaryData packet (List.replicate fixedReqHeaderSize 0) with
  | none => (.error .outOfBounds, ch)
  | some fixedHeader =>
    match ch.write fixedHeader with
    | (.error e, ch') => (.error e, ch')
    | (.ok bytesSent, ch') =>
      if bytesSent ≠ fixedReqHeaderSize then (.ok false, ch')
      else sendInChunks packet.payload ch'

/-! ## Receiving -/

/-- `setRespHeaderBinaryData`. -/
def setRespHeaderBinaryData (packet : ResponsePacket) (header : Bytes) :
    Option ResponsePacket := do
  let version ← peek header 0 1
  let code ← peek header 1 2
  let payloadSize ← peek header 3 4
  pure { packet with
    version := UInt8.ofNat (fromLE version)
    code := UInt16.ofNat (fromLE code)
    payloadSize := UInt32.ofNat (fromLE payloadSize) }

/-- The loop of `receiveInChunks`. A read that stops short sets `_error`, so the
buffer that is appended is always a full one. -/
def receiveLoop (payloadSize toGet : Nat) (packet : ResponsePacket) (ch : ConnectionHandler) :
    Except Fault Bool × ResponsePacket × ConnectionHandler :=
  if _hpos : 0 < payloadSize then
    let received := ch.read toGet
    if received.2.error then (.error .errorCode, packet, received.2)
    else if _h : received.1.length = 0 then (.ok false, packet, received.2)
    else
      let payloadSize' := payloadSize - toGet
      receiveLoop payloadSize' (min payloadSize' chunkSize)
        { packet with payload := packet.payload ++ received.1 } received.2
  else (.ok true, packet, ch)
termination_by payloadSize
decreasing_by
  have hle : received.1.length ≤ toGet := List.length_take_le _ _
  omega

def receiveInChunks (packet : ResponsePacket) (ch : ConnectionHandler) :
    Except Fault Bool × ResponsePacket × ConnectionHandler :=
  let payloadSize := packet.payloadSize.toNat
  receiveLoop payloadSize (min chunkSize payloadSize) { packet with payload := [] } ch

/-- `receiveData`. Its `catch` clause is for `system_error`, which nothing in it
throws; the `error_code` of `receiveInChunks` passes through. -/
def receiveData (packet : ResponsePacket) (ch : ConnectionHandler) :
    Except Fault Bool × ResponsePacket × ConnectionHandler :=
  let received := ch.read fixedRespHeaderSize
  if received.1.length ≠ fixedRespHeaderSize then (.ok false, packet, received.2)
  else
    match setRespHeaderBinaryData packet received.1 with
    | none => (.error .outOfBounds, packet, received.2)
    | some packet' => receiveInChunks packet' received.2

end ConnectionHandler

/-! ## What writing leaves -/

/-- Writing adds to what was written, and takes nothing from what there is to read. -/
def Writes (ch ch' : ConnectionHandler) : Prop :=
  ch.outgoing <+: ch'.outgoing ∧ ch'.incoming = ch.incoming

theorem Writes.refl (ch : ConnectionHandler) : Writes ch ch := ⟨List.prefix_refl _, rfl⟩

theorem Writes.trans {ch ch' ch'' : ConnectionHandler} (h : Writes ch ch')
    (h' : Writes ch' ch'') : Writes ch ch'' :=
  ⟨h.1.trans h'.1, h'.2.trans h.2⟩

theorem writes_write (ch : ConnectionHandler) (data : Bytes) : Writes ch (ch.write data).2 := by
  by_cases hle : data.length ≤ ch.room <;> simp [Writes, ConnectionHandler.write, hle]

theorem writes_sendLoop (payload : Bytes) (size offset : Nat) (ch : ConnectionHandler) :
    Writes ch (ConnectionHandler.sendLoop payload size offset ch).2 := by
  induction size using Nat.strong_induction_on generalizing offset ch with
  | _ size ih =>
    rw [ConnectionHandler.sendLoop]
    by_cases hpos : 0 < size
    swap
    · rw [dif_neg hpos]
      exact .refl ch
    have hchunk : 0 < chunkSize := by decide
    rw [dif_pos hpos]
    dsimp only
    cases peek payload offset (min size chunkSize) with
    | none => exact .refl ch
    | some data =>
      have hwrite := writes_write ch data
      dsimp only
      generalize ch.write data = result at hwrite ⊢
      rcases result with ⟨e | n, ch₁⟩
      · exact hwrite
      dsimp only
      split
      · exact hwrite
      · split
        · exact hwrite
        · exact hwrite.trans (ih _ (by omega) _ _)

theorem writes_sendData (packet : RequestPacket) (ch : ConnectionHandler) :
    Writes ch (ConnectionHandler.sendData packet ch).2 := by
  rw [ConnectionHandler.sendData]
  split
  · exact .refl ch
  · next fixedHeader _ =>
    have hwrite := writes_write ch fixedHeader
    generalize ch.write fixedHeader = result at hwrite ⊢
    rcases result with ⟨e | n, ch₁⟩
    · exact hwrite
    dsimp only
    split
    · exact hwrite
    · exact hwrite.trans (writes_sendLoop _ _ _ _)

/-! ## What reading takes -/

/-- A read the stream can fill takes exactly its bytes and clears the error. -/
theorem read_append (ch : ConnectionHandler) {data rest : Bytes} {n : Nat}
    (hn : data.length = n) (h : ch.incoming = data ++ rest) :
    ch.read n = (data, { ch with incoming := rest, error := false }) := by
  have hle : ¬ ch.incoming.length < n := by
    rw [h, List.length_append]
    omega
  simp only [ConnectionHandler.read, h, List.take_left' hn, List.drop_left' hn] at hle ⊢
  rw [decide_eq_false hle]

/-- The chunk loop appends what is left of the payload and stops behind it. -/
theorem receiveLoop_append {data rest : Bytes} {packet : ResponsePacket}
    {ch : ConnectionHandler} (h : ch.incoming = data ++ rest) (herror : ch.error = false) :
    ConnectionHandler.receiveLoop data.length (min data.length chunkSize) packet ch =
      (.ok true, { packet with payload := packet.payload ++ data },
        { ch with incoming := rest }) := by
  induction hsize : data.length using Nat.strong_induction_on generalizing data packet ch with
  | _ size ih =>
    rw [ConnectionHandler.receiveLoop]
    by_cases hpos : 0 < size
    · -- one round: a full chunk is read, and the loop goes on with what is behind it
      have hchunk : 0 < chunkSize := by decide
      have hlen : (data.take (min size chunkSize)).length = min size chunkSize := by
        rw [List.length_take]
        omega
      have hsplit : ch.incoming =
          data.take (min size chunkSize) ++ (data.drop (min size chunkSize) ++ rest) := by
        rw [← List.append_assoc, List.take_append_drop, h]
      have hne : ¬ (data.take (min size chunkSize)).length = 0 := by omega
      have hdrop : (data.drop (min size chunkSize)).length = size - min size chunkSize := by
        rw [List.length_drop, hsize]
      rw [dif_pos hpos]
      simp only [read_append ch hlen hsplit, Bool.false_eq_true, if_false, dif_neg hne]
      rw [ih _ (by omega) rfl rfl hdrop, List.append_assoc, List.take_append_drop]
      simp only [herror]
    · obtain rfl : size = 0 := by omega
      obtain rfl : data = [] := List.eq_nil_of_length_eq_zero hsize
      rw [dif_neg hpos, List.append_nil]
      simp only [List.nil_append] at h
      rw [← h]

end FileTransfer.Client
