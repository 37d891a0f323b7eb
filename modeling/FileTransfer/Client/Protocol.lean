import FileTransfer.Server.Constants

/-!
# The client's `protocol.h`

The packets with the field types of the source. The host is little-endian, as
the client's use of `memcpy` on its header fields assumes.
-/

namespace FileTransfer.Client

open FileTransfer.Server (Uid)

abbrev uidSize : Nat := 16
abbrev nameSize : Nat := 255
abbrev fixedReqHeaderSize : Nat := 23
abbrev fixedRespHeaderSize : Nat := 7
abbrev chunkSize : Nat := 1024
abbrev version : UInt8 := 3
abbrev fixedEncryptionPayload : Nat := 267

/-- `enum requestCodes`. -/
inductive RequestCode where
  | register
  | sPublicKey
  | reconnect
  | sendFile
  | validCrc
  | nValidCrc
  | exitCrc
deriving DecidableEq

/-- The value of the enumerator, as `(uint16_t)code`. -/
def RequestCode.value : RequestCode → UInt16
  | .register => 825
  | .sPublicKey => 826
  | .reconnect => 827
  | .sendFile => 828
  | .validCrc => 900
  | .nValidCrc => 901
  | .exitCrc => 902

/-- `enum responseCodes`. -/
inductive ResponseCode where
  | regSuccessful
  | regFailed
  | inPublicOutCrypted
  | validCrcFile
  | msgRecieved
  | okReconnOutAes
  | reconnectFailed
  | generalErr
deriving DecidableEq

/-- The value of the enumerator. -/
def ResponseCode.value : ResponseCode → UInt16
  | .regSuccessful => 1600
  | .regFailed => 1601
  | .inPublicOutCrypted => 1602
  | .validCrcFile => 1603
  | .msgRecieved => 1604
  | .okReconnOutAes => 1605
  | .reconnectFailed => 1606
  | .generalErr => 1607

/-- The case label a `switch` over a received code jumps to. -/
def ResponseCode.ofValue (code : UInt16) : Option ResponseCode :=
  [.regSuccessful, .regFailed, .inPublicOutCrypted, .validCrcFile, .msgRecieved,
    .okReconnOutAes, .reconnectFailed, .generalErr].find? fun label => label.value == code

theorem ResponseCode.ofValue_eq_some {code : UInt16} {label : ResponseCode} :
    ResponseCode.ofValue code = some label ↔ label.value = code := by
  constructor
  · intro h
    simpa using List.find?_some h
  · rintro rfl
    cases label <;> decide

structure RequestPacket where
  clientID : Uid
  version : UInt8
  code : UInt16
  payloadSize : UInt32
  payload : Bytes

structure ResponsePacket where
  version : UInt8
  code : UInt16
  payloadSize : UInt32
  payload : Bytes
deriving DecidableEq

/-- How a function of the client ends when it does not return: with a
`std::exception`, with the `boost::system::error_code` that the connection
handler throws as an object, or (undefined behaviour) by reading or writing
outside a buffer. -/
inductive Fault where
  | exception
  | errorCode
  | outOfBounds
deriving DecidableEq

/-- A read or a write of a buffer that must stay inside it. -/
def inBounds {α : Type} : Option α → Except Fault α
  | some a => .ok a
  | none => .error .outOfBounds

@[simp] theorem inBounds_some {α : Type} (a : α) : inBounds (some a) = .ok a := rfl

@[simp] theorem inBounds_eq_ok {α : Type} {x : Option α} {a : α} :
    inBounds x = .ok a ↔ x = some a := by
  cases x <;> simp [inBounds]

/-- A sequence returns when both of its parts do. -/
theorem bind_eq_ok {α β : Type} {x : Except Fault α} {f : α → Except Fault β} {b : β} :
    (x >>= f) = .ok b ↔ ∃ a, x = .ok a ∧ f a = .ok b := by
  cases x <;> simp [bind, Except.bind]

end FileTransfer.Client
