import FileTransfer.Lib.Bytes

/-!
# The server's constants

`constants.py`, as far as the server's logic reads it, and the two header
formats of `struct`: `'<16sBHI'` for requests and `'< BHI'` for responses.
-/

namespace FileTransfer.Server

namespace Constants

abbrev headerSize : Nat := 23
abbrev chunkSize : Nat := 1024
abbrev version : Nat := 3
abbrev fileNameSize : Nat := 255
abbrev uint32T : Nat := 4

/-! Response codes. -/

abbrev initRegistrationSucc : Nat := 1600
abbrev registrationFail : Nat := 1601
abbrev inPublicKeyOutAes : Nat := 1602
abbrev validFileCrc : Nat := 1603
abbrev fileApproval : Nat := 1604
abbrev recconectApproved : Nat := 1605
abbrev recconetDenied : Nat := 1606
abbrev generalError : Nat := 1607

/-! Request codes. -/

abbrev register : Nat := 825
abbrev sPublicKey : Nat := 826
abbrev reconnect : Nat := 827
abbrev sendFile : Nat := 828
abbrev validCrc : Nat := 900
abbrev nValidCrc : Nat := 901
abbrev exitCrc : Nat := 902

/-! Encryption. -/

abbrev aesKeySize : Nat := 32
abbrev publicKey : Nat := 160
abbrev contentIndex : Nat := 267
abbrev nameIndex : Nat := 12

/-- `IV`: sixteen zero bytes. -/
def iv : Bytes := List.replicate 16 0

end Constants

/-- A client identifier: the 16 bytes of a UUID. -/
structure Uid where
  bytes : Bytes
  length_eq : bytes.length = 16
deriving DecidableEq

/-- A request header as `struct.unpack('<16sBHI', data)` returns it. -/
structure Header where
  uid : Uid
  version : Nat
  code : Nat
  size : Nat
deriving DecidableEq

/-- `struct.unpack('<16sBHI', data)`; `none` is `struct.error`, raised unless
there are exactly 23 bytes. -/
def unpackHeader (data : Bytes) : Option Header :=
  if h : data.length = 23 then
    some
      { uid := ⟨data.take 16, by simp [h]⟩
        version := fromLE (slice data 16 17)
        code := fromLE (slice data 17 19)
        size := fromLE (slice data 19 23) }
  else none

/-- `struct.pack('< BHI', version, code, payload_size)`; `none` is
`struct.error`, raised for a number that does not fit its field. -/
def packHeader (version code payloadSize : Nat) : Option Bytes :=
  if version < 2 ^ 8 ∧ code < 2 ^ 16 ∧ payloadSize < 2 ^ 32 then
    some (toLE 1 version ++ toLE 2 code ++ toLE 4 payloadSize)
  else none

end FileTransfer.Server
