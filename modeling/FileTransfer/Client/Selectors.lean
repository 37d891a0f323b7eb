import FileTransfer.Client.Process
import FileTransfer.Client.ResponseHandler

/-!
# The two selectors

`requestSelector` fills the request packet, `responseSelector` acts on the
response packet; with them come the functions of the handlers that use files or
members. Console messages are left out.
-/

namespace FileTransfer.Client

open FileTransfer.Effect

variable {K : Type} (rsa : Rsa K) (aesEncryptBlock : Bytes → Bytes → Bytes)

/-! ## Requests -/

/-- A request function that always returns `true`. -/
def loadRequest (request : Members K → Except Fault RequestPacket) : Cpp K Bool := do
  let c ← Cpp.members
  let packet ← Cpp.lift (request c)
  Cpp.assign { c with requestPacket := packet }
  pure true

/-- `encryptFile`, reading the file at the path of `transfer.info`. -/
def loadUpload : Cpp K Bool := do
  let c ← Cpp.members
  let file ← Cpp.ifstream c.requestHandler.transferInfo.path
  let (status, requestHandler, packet) ←
    Cpp.lift (c.requestHandler.encryptFile aesEncryptBlock (fun _ => file) c.requestPacket)
  Cpp.assign { c with requestHandler := requestHandler, requestPacket := packet }
  pure status

/-- `clientSignIn`, reading `me.info`. -/
def loadSignIn : Cpp K Bool := do
  let c ← Cpp.members
  let me ← Cpp.ifstream meInfo
  let (status, packet) ← Cpp.lift (clientSignIn me c.requestPacket)
  Cpp.assign { c with requestPacket := packet }
  pure status

def requestSelector : RequestCode → Cpp K Bool
  | .register => loadRequest fun c => registreationRequest c.userName c.requestPacket
  | .sPublicKey => loadRequest fun c => sendPublicKey c.userName c.publicKey c.requestPacket
  | .sendFile => loadUpload aesEncryptBlock
  | .validCrc => loadRequest fun c => validCrc c.requestHandler.filename c.requestPacket
  | .reconnect => loadSignIn
  | .nValidCrc => loadRequest fun c => invalidCrcReSend c.requestHandler.filename c.requestPacket
  | .exitCrc => loadRequest fun c => invalidCrcExit c.requestHandler.filename c.requestPacket

/-! ## Responses -/

/-- `saveEncodedPrivateKey`: `key.priv` is written only if there is none. -/
def saveEncodedPrivateKey : Cpp K Bool := do
  if (← Cpp.lookup keyPriv).isSome then
    pure false
  else
    let c ← Cpp.members
    Cpp.ofstream keyPriv (rsa.encodedPrivateKey c.privateKey)

/-- `createNewClientFile`. -/
def createNewClientFile (payload : Bytes) : Cpp K Bool := do
  if !(← saveEncodedPrivateKey rsa) then
    pure false
  else if (← Cpp.lookup meInfo).isSome then
    pure false
  else
    match ← Cpp.ifstream keyPriv with
    | none => pure false
    | some key =>
      let c ← Cpp.members
      Cpp.ofstream meInfo (c.userName ++ [0x0a] ++ toHex payload ++ [0x0a] ++ key)

/-- `readPrivateRsaKey`. -/
def readPrivateRsaKey : Cpp K Bytes := do
  match ← Cpp.ifstream keyPriv with
  | none => throw .exception
  | some key => pure key

/-- `&payload[UID_SIZE]` and the `payload.size() - UID_SIZE` bytes from there on. On a
payload shorter than the client ID that size wraps around and they are not in the payload. -/
def cipherOfPayload (payload : Bytes) : Option Bytes :=
  if uidSize ≤ payload.length then some (payload.drop uidSize) else none

/-- `decryptAESKey`. The key from the file replaces the member, then decrypts: the cipher
is looked at when the key is loaded. -/
def decryptAESKey (cipher : Option Bytes) : Cpp K Bool := do
  match rsa.loadPrivateKeyFromBase64 (← readPrivateRsaKey) with
  | none => throw .exception
  | some privateKey =>
    let c ← Cpp.members
    Cpp.assign { c with privateKey := privateKey }
    let cipher ← Cpp.lift (inBounds cipher)
    match rsa.oaepDecrypt privateKey cipher with
    | none => throw .exception
    | some decrypted =>
      if h : decrypted.length = 32 then
        let c ← Cpp.members
        Cpp.assign { c with
          requestHandler := { c.requestHandler with eh := ⟨decrypted, h⟩ } }
        pure true
      else throw .exception

/-- `recieveAesKey`. The size it tests has no sign, so the test finds nothing wrong with a
payload shorter than the client ID. -/
def recieveAesKey (payload : Bytes) : Cpp K Bool :=
  Cpp.catchException false
    (if payload.length = uidSize then throw .exception
    else decryptAESKey rsa (cipherOfPayload payload))

/-- `checkSum` on the local file, `unsigned long` being `w` bits wide. -/
def receiveChecksum (w : Nat) (payload : Bytes) : Cpp K Bool := do
  let c ← Cpp.members
  let file ← Cpp.lookup c.requestHandler.transferInfo.path
  let (status, crcValid) ←
    Cpp.lift (checkSum w c.requestHandler.transferInfo (fun _ => file) payload)
  Cpp.assign { c with crcValid := crcValid }
  pure status

/-- `endMessage`: a message on the console. -/
def endMessage : Cpp K Bool := pure true

def responseSelector (w : Nat) : Cpp K Bool := do
  let c ← Cpp.members
  let payload := c.responsePacket.payload
  match ResponseCode.ofValue c.responsePacket.code with
  | some .generalErr => pure true
  | some .regFailed => pure true
  | some .regSuccessful => createNewClientFile rsa payload
  | some .inPublicOutCrypted => recieveAesKey rsa payload
  | some .validCrcFile => receiveChecksum w payload
  | some .okReconnOutAes => recieveAesKey rsa payload
  | some .reconnectFailed => pure true
  | some .msgRecieved => endMessage
  | none => pure false

end FileTransfer.Client
