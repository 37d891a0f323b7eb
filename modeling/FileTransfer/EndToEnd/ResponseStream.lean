import FileTransfer.Client.ConnectionHandler
import FileTransfer.Server.RequestHandler

/-!
# Responses across the wire

What `init_response` builds and `send_response` puts on the wire is taken apart
by `receiveData`, response by response, through one packet object that keeps
nothing of what it held before.
-/

namespace FileTransfer.EndToEnd

open FileTransfer.Client FileTransfer.Server

/-! ## One response -/

/-- What a caller of `init_response` decides. -/
structure Response where
  version : Nat
  code : Nat
  payload : Bytes

/-- What one `receiveData` left behind: what it returned, the packet, and what
is still to be read. -/
structure Received where
  returned : Except Fault Bool
  packet : ResponsePacket
  incoming : Bytes

namespace Response

/-- `init_response` with the payload's own length. -/
def build (r : Response) : Except Exn Bytes :=
  initResponse r.version r.code r.payload.length r.payload

/-- The packet that holds a response. -/
def packet (r : Response) : ResponsePacket :=
  ⟨UInt8.ofNat r.version, UInt16.ofNat r.code, UInt32.ofNat r.payload.length, r.payload⟩

/-- `receiveData` returns true, and version, code, size and payload are those
of the response. -/
def Arrives (r : Response) (got : Received) : Prop :=
  got.returned = .ok true ∧ got.packet.version.toNat = r.version ∧
    got.packet.code.toNat = r.code ∧ got.packet.payloadSize.toNat = r.payload.length ∧
    got.packet.payload = r.payload

/-- A response that could be built has numbers that fit their fields. -/
theorem build_ok {r : Response} {frame : Bytes} (h : r.build = .ok frame) :
    r.version < 256 ^ 1 ∧ r.code < 256 ^ 2 ∧ r.payload.length < 256 ^ 4 ∧
      frame = toLE 1 r.version ++ toLE 2 r.code ++ toLE 4 r.payload.length ++ r.payload := by
  simp only [build, initResponse, packHeader] at h
  split at h
  · cases h
  · next header hheader =>
    cases h
    split at hheader
    · next hfits =>
      cases hheader
      exact ⟨hfits.1, hfits.2.1, hfits.2.2, rfl⟩
    · cases hheader

end Response

/-- Both sides agree on where the header fields are. -/
theorem setRespHeaderBinaryData_eq (packet : ResponsePacket) (v c n : Nat) :
    ConnectionHandler.setRespHeaderBinaryData packet (toLE 1 v ++ toLE 2 c ++ toLE 4 n) =
      some { packet with
        version := UInt8.ofNat (fromLE (toLE 1 v))
        code := UInt16.ofNat (fromLE (toLE 2 c))
        payloadSize := UInt32.ofNat (fromLE (toLE 4 n)) } := by
  simp [ConnectionHandler.setRespHeaderBinaryData, peek, toLE]

/-- **One response, one call**: `receiveData` reads a frame that
`init_response` built, and stops behind it. -/
theorem receiveData_of_frame {r : Response} {frame rest : Bytes} (hbuilt : r.build = .ok frame)
    (packet : ResponsePacket) {ch : ConnectionHandler} (hstream : ch.incoming = frame ++ rest) :
    ConnectionHandler.receiveData packet ch =
      (.ok true, r.packet, { ch with incoming := rest, error := false }) := by
  obtain ⟨hv, hc, hn, rfl⟩ := Response.build_ok hbuilt
  have hheader : (toLE 1 r.version ++ toLE 2 r.code ++ toLE 4 r.payload.length).length =
      fixedRespHeaderSize := by simp
  have hsize : (UInt32.ofNat r.payload.length).toNat = r.payload.length :=
    UInt32.toNat_ofNat_of_lt hn
  rw [List.append_assoc _ r.payload] at hstream
  simp only [ConnectionHandler.receiveData, read_append ch hheader hstream, hheader, ne_eq,
    not_true_eq_false, if_false, setRespHeaderBinaryData_eq, fromLE_toLE hv, fromLE_toLE hc,
    fromLE_toLE hn, ConnectionHandler.receiveInChunks, hsize, Nat.min_comm chunkSize]
  rw [receiveLoop_append rfl rfl]
  rfl

theorem packet_arrives {r : Response} {frame : Bytes} (hbuilt : r.build = .ok frame)
    (rest : Bytes) : r.Arrives ⟨.ok true, r.packet, rest⟩ := by
  obtain ⟨hv, hc, hn, -⟩ := Response.build_ok hbuilt
  exact ⟨rfl, UInt8.toNat_ofNat_of_lt hv, UInt16.toNat_ofNat_of_lt hc,
    UInt32.toNat_ofNat_of_lt hn, rfl⟩

/-! ## Sessions -/

/-- Successive calls of `receiveData` on one packet object. -/
def receiveAll : Nat → ResponsePacket → ConnectionHandler → List Received
  | 0, _, _ => []
  | n + 1, packet, ch =>
    let r := ConnectionHandler.receiveData packet ch
    ⟨r.1, r.2.1, r.2.2.incoming⟩ :: receiveAll n r.2.1 r.2.2

/-- **Responses arrive as they were built.** Whatever list of responses
`init_response` built, successive calls of `receiveData` yield them in order,
whatever the packet held before, and after each call the stream stands at the
beginning of the next frame. -/
theorem responses_roundtrip {rs : List Response} {frames : List Bytes}
    (hbuilt : List.Forall₂ (fun r frame => r.build = .ok frame) rs frames)
    (packet : ResponsePacket)
    {ch : ConnectionHandler} {rest : Bytes} (hstream : ch.incoming = frames.flatten ++ rest) :
    List.Forall₂ Response.Arrives rs (receiveAll rs.length packet ch) ∧
      (receiveAll rs.length packet ch).map Received.incoming =
        frames.tails.tail.map (·.flatten ++ rest) := by
  induction hbuilt generalizing packet ch with
  | nil => exact ⟨.nil, rfl⟩
  | @cons r frame rs frames hframe _ ih =>
    rw [List.flatten_cons, List.append_assoc] at hstream
    have hcall := receiveData_of_frame hframe packet hstream
    obtain ⟨harrive, hincoming⟩ := ih r.packet (show ConnectionHandler.incoming
      { ch with incoming := frames.flatten ++ rest, error := false } = _ from rfl)
    simp only [List.length_cons, receiveAll, hcall]
    refine ⟨.cons (packet_arrives hframe _) harrive, ?_⟩
    rw [List.map_cons, hincoming]
    cases frames <;> rfl

/-- Two responses of the server, the second without a payload. -/
def twoResponses : List Response := [⟨3, 1601, [1, 2, 3]⟩, ⟨3, 1607, []⟩]

theorem twoResponses_arrive :
    List.Forall₂ Response.Arrives twoResponses
      (receiveAll 2 ⟨9, 9, 9, [9]⟩
        ⟨[3, 0x41, 0x06, 3, 0, 0, 0, 1, 2, 3, 3, 0x47, 0x06, 0, 0, 0, 0], [], 0, false⟩) := by
  have hbuilt : List.Forall₂ (fun r frame => Response.build r = .ok frame) twoResponses
      [[3, 0x41, 0x06, 3, 0, 0, 0, 1, 2, 3], [3, 0x47, 0x06, 0, 0, 0, 0]] :=
    .cons rfl (.cons rfl .nil)
  exact (responses_roundtrip hbuilt ⟨9, 9, 9, [9]⟩ (List.append_nil _).symm).1

end FileTransfer.EndToEnd
