import FileTransfer.Lib.Text
import FileTransfer.Client.EncryptionHandler
import FileTransfer.Client.TransferInfo

/-!
# The client's `requestHandler.cpp`

`initRequest`, which every request goes through, and the requests themselves. A
file of the client's disk is its bytes, or nothing when it cannot be opened.
Console messages are left out.
-/

namespace FileTransfer.Client

open FileTransfer.Server (Uid)

/-- `initRequest`: the header fields of the protocol, and a payload of zeros. -/
def initRequest (packet : RequestPacket) (code : RequestCode) (length : UInt32) :
    RequestPacket :=
  { packet with
    version := version
    code := code.value
    payloadSize := length
    payload := List.replicate length.toNat 0 }

/-! ## 825: registration -/

/-- `char ignore[]`: fifteen letters and the zero byte behind them. -/
def ignore : Uid := ⟨utf8Encode "ignoreignoreign".toList ++ [0], by decide⟩

/-- `registreationRequest`: the user name and its zero byte, under the client ID
`ignore`. -/
def registreationRequest (userName : Bytes) (packet : RequestPacket) :
    Except Fault RequestPacket := do
  let packet := initRequest { packet with clientID := ignore } .register
    (UInt32.ofNat (userName.length + 1))
  let payload ← inBounds (blit packet.payload 0 (userName ++ [0]))
  pure { packet with payload := payload }

/-! ## 826: the public key -/

/-- `sendPublicKey`: the user name, its zero byte and the public key. -/
def sendPublicKey (userName publicKey : Bytes) (packet : RequestPacket) :
    Except Fault RequestPacket := do
  let packet := initRequest packet .sPublicKey
    (UInt32.ofNat (userName.length + publicKey.length + 1))
  let payload ← inBounds (blit packet.payload 0 (userName ++ [0]))
  let payload ← inBounds (blit payload (userName.length + 1) publicKey)
  pure { packet with payload := payload }

/-! ## 828: upload -/

/-- `while (tmp % UID_SIZE) tmp++`. -/
def roundUp (tmp : UInt32) : UInt32 :=
  if _h : tmp.toNat % uidSize = 0 then tmp else roundUp (tmp + 1)
termination_by (uidSize - tmp.toNat % uidSize) % uidSize
decreasing_by
  have hadd : (tmp + 1).toNat = (tmp.toNat + 1) % 2 ^ 32 := UInt32.toNat_add tmp 1
  simp only [uidSize] at _h ⊢
  omega

/-- `totalEncryptedPacket`: the number of 16-byte packets, if 16 bits hold it. -/
def totalEncryptedPacket (origSize : UInt32) : Except Fault UInt16 :=
  let tmp := if origSize.toNat % uidSize = 0 then origSize else roundUp origSize
  if 65535 < tmp.toNat / uidSize then .error .exception
  else .ok (UInt16.ofNat (tmp.toNat / uidSize))

/-- `getFileSizes`: the number of packets and the size of the file. -/
def getFileSizes (file : Bytes) : Except Fault (UInt16 × UInt32) := do
  if 2 ^ 32 - 1 < file.length then throw .exception
  let originalSize := UInt32.ofNat file.length
  let totalpackets ← totalEncryptedPacket originalSize
  pure (totalpackets, originalSize)

section Upload

variable (aesEncryptBlock : Bytes → Bytes → Bytes)

/-- The members of `requestHandler` that the upload uses. -/
structure RequestHandler where
  filename : Bytes
  eh : EncryptionHandler
  transferInfo : TransferInfo

namespace RequestHandler

/-- `getEncryptedData`. A zero byte is put behind the data and left out of the
length that `encryptMsg` gets. -/
def getEncryptedData (rh : RequestHandler) (file : Bytes) (origSize : UInt32) :
    Except Fault Bytes := do
  if file.length < origSize.toNat then throw .exception
  let binaryData := file.take origSize.toNat
  let encryptedData ←
    rh.eh.encryptMsg aesEncryptBlock (binaryData ++ [0]) (UInt32.ofNat binaryData.length)
  if 2 ^ 32 - 1 < encryptedData.length then throw .exception
  pure encryptedData

/-- `setEncryptionPayload`: the four numbers, the padded file name and the
encrypted file, each at its offset. -/
def setEncryptionPayload (rh : RequestHandler) (origSize : UInt32)
    (packetNumber totalPackets : UInt16) (encryptedfile : Bytes) (packet : RequestPacket) :
    Except Fault (RequestHandler × RequestPacket) := do
  let filename := rh.transferInfo.getFileName
  let payload ← inBounds (blit packet.payload 0 (toLE 4 encryptedfile.length))
  let payload ← inBounds (blit payload 4 (toLE 4 origSize.toNat))
  let payload ← inBounds (blit payload 8 (toLE 2 packetNumber.toNat))
  let payload ← inBounds (blit payload 10 (toLE 2 totalPackets.toNat))
  let name ← inBounds (peek filename 0 nameSize)
  let payload ← inBounds (blit payload 12 name)
  let payload ← inBounds (blit payload fixedEncryptionPayload encryptedfile)
  pure ({ rh with filename := filename }, { packet with payload := payload })

/-- The body of the `try` of `encryptFile`. -/
def encryptOpened (rh : RequestHandler) (file : Bytes) (packet : RequestPacket) :
    Except Fault (RequestHandler × RequestPacket) := do
  let (totalpackets, origSize) ← getFileSizes file
  let encryptedfile ← rh.getEncryptedData aesEncryptBlock file origSize
  let length := UInt32.ofNat fixedEncryptionPayload + UInt32.ofNat encryptedfile.length
  rh.setEncryptionPayload origSize 1 totalpackets encryptedfile
    (initRequest packet .sendFile length)

/-- `encryptFile`. An exception is thrown only before the packet is touched. -/
def encryptFile (rh : RequestHandler) (disk : Bytes → Option Bytes) (packet : RequestPacket) :
    Except Fault (Bool × RequestHandler × RequestPacket) :=
  match disk rh.transferInfo.path with
  | none => .ok (false, rh, packet)
  | some file =>
    match rh.encryptOpened aesEncryptBlock file packet with
    | .ok (rh', packet') => .ok (true, rh', packet')
    | .error .exception => .ok (false, rh, packet)
    | .error e => .error e

end RequestHandler

end Upload

/-! ## 900, 901 and 902: the outcome of the checksum -/

/-- A request whose payload is the padded name of the last file that was
encrypted. -/
def crcRequest (code : RequestCode) (filename : Bytes) (packet : RequestPacket) :
    Except Fault RequestPacket := do
  let packet := initRequest packet code (UInt32.ofNat nameSize)
  let name ← inBounds (peek filename 0 nameSize)
  let payload ← inBounds (blit packet.payload 0 name)
  pure { packet with payload := payload }

def validCrc : Bytes → RequestPacket → Except Fault RequestPacket := crcRequest .validCrc

def invalidCrcReSend : Bytes → RequestPacket → Except Fault RequestPacket :=
  crcRequest .nValidCrc

def invalidCrcExit : Bytes → RequestPacket → Except Fault RequestPacket :=
  crcRequest .exitCrc

/-! ## 827: sign-in -/

/-- `isspace`, in the C locale. -/
def isSpace (b : UInt8) : Bool := b == 0x20 || (0x09 ≤ b && b ≤ 0x0d)

/-- The value of a hexadecimal digit of either case. -/
def hexDigit (b : UInt8) : Option Nat :=
  if 0x30 ≤ b && b ≤ 0x39 then some (b.toNat - 0x30)
  else if 0x61 ≤ b && b ≤ 0x66 then some (b.toNat - 0x57)
  else if 0x41 ≤ b && b ≤ 0x46 then some (b.toNat - 0x37)
  else none

/-- `std::stoi(s, nullptr, 16)`: blanks, a sign and `0x` are skipped, and what
stands behind the digits is ignored. -/
def stoi (s : Bytes) : Except Fault Int :=
  let s := s.dropWhile isSpace
  let (negative, s) := match s with
    | 0x2d :: rest => (true, rest)
    | 0x2b :: rest => (false, rest)
    | _ => (false, s)
  let s := match s with
    | 0x30 :: x :: d :: rest =>
      if (x == 0x78 || x == 0x58) && (hexDigit d).isSome then d :: rest else s
    | _ => s
  match (s.map hexDigit).takeWhile Option.isSome with
  | [] => .error .exception
  | digits =>
    let magnitude : Nat := digits.foldl (fun n d => 16 * n + d.getD 0) 0
    let value : Int := if negative then -magnitude else magnitude
    if -2 ^ 31 ≤ value ∧ value < 2 ^ 31 then .ok value else .error .exception

/-- `uuidToBinary`: two characters a byte, and a zero byte at the end. -/
def uuidToBinary : Bytes → Except Fault Bytes
  | [] => .ok [0]
  | [a] => do
    let byte ← stoi [a]
    pure [UInt8.ofInt byte, 0]
  | a :: b :: rest => do
    let byte ← stoi [a, b]
    let binaryData ← uuidToBinary rest
    pure (UInt8.ofInt byte :: binaryData)

/-- `std::getline`: the line, and what is left to read. -/
def getline (s : Bytes) : Bytes × Bytes :=
  (s.takeWhile (· ≠ 0x0a), (s.dropWhile (· ≠ 0x0a)).drop 1)

/-- The literal that `UID.size()` is added to. -/
def uidMessage : String :=
  "Invalid user details: Hex UUID must contain exactly 32 chars this instance conatins "

/-- `getUUIDandUserName` on what `me.info` holds: the user name with a zero byte,
and the UUID line. The size of a wrong line moves the pointer to the message, and
past its end for a long one. -/
def getUUIDandUserName (me : Option Bytes) : Except Fault (Bytes × Bytes) :=
  match me with
  | none => .error .exception
  | some content =>
    let (username, rest) := getline content
    if nameSize < username.length then .error .exception
    else if username.isEmpty then .error .exception
    else
      let (uid, _) := getline rest
      if uid.length ≠ uidSize * 2 ∨ uid.length % 2 ≠ 0 then
        if uid.length ≤ uidMessage.length then .error .exception else .error .outOfBounds
      else .ok (username ++ [0], uid)

/-- The bytes that `memcpy(clientID, data, UID_SIZE)` takes. -/
def uidOf (data : Bytes) : Option Uid :=
  if h : uidSize ≤ data.length then some ⟨data.take uidSize, List.length_take_of_le h⟩
  else none

/-- The body of the `try` of `clientSignIn`. -/
def signInRequest (me : Option Bytes) (packet : RequestPacket) : Except Fault RequestPacket := do
  let (username, uid) ← getUUIDandUserName me
  let uuid ← uuidToBinary uid
  let clientID ← inBounds (uidOf uuid)
  let packet := initRequest { packet with clientID := clientID } .reconnect
    (UInt32.ofNat username.length)
  let payload ← inBounds (blit packet.payload 0 username)
  pure { packet with payload := payload }

/-- `clientSignIn`. An exception is thrown only before the packet is touched. -/
def clientSignIn (me : Option Bytes) (packet : RequestPacket) :
    Except Fault (Bool × RequestPacket) :=
  match signInRequest me packet with
  | .ok packet' => .ok (true, packet')
  | .error .exception => .ok (false, packet)
  | .error e => .error e

end FileTransfer.Client
