import FileTransfer.Client.Cksum
import FileTransfer.Client.TransferInfo

/-!
# The client's `responseHandler.cpp`

The parts that touch nothing but the payload and a file: the hexadecimal text of
1600, and the checksum of 1603.
-/

namespace FileTransfer.Client

/-- A digit of `std::hex`. -/
def hexChar (n : Nat) : UInt8 := UInt8.ofNat (if n < 10 then 0x30 + n else 0x57 + n)

/-- `toHex`: two lower-case digits a byte. -/
def toHex (payload : Bytes) : Bytes :=
  payload.flatMap fun byte => [hexChar (byte.toNat / 16), hexChar (byte.toNat % 16)]

/-! ## 1603: the checksum

What the server computed is in the last four bytes of the payload. -/

/-- `std::vector<unsigned char> crc(payload.end() - sizeof(uint32_t), payload.end())`. -/
def crcOfPayload (payload : Bytes) : Option Bytes :=
  if 4 ≤ payload.length then some (payload.drop (payload.length - 4)) else none

/-- `checkSum`: what it returns, and the value it leaves in `*_validCrc`. The
width of `unsigned long` is `w`. -/
def checkSum (w : Nat) (ti : TransferInfo) (disk : Bytes → Option Bytes) (payload : Bytes) :
    Except Fault (Bool × Bool) := do
  let crcClient ← inBounds (readfile w (disk ti.path))
  let crc ← inBounds (crcOfPayload payload)
  let crcServer := BitVec.ofNat w (fromLE crc)
  pure (true, crcClient == crcServer)

end FileTransfer.Client
