import FileTransfer.Client.Selectors

/-!
# The client's `Client.cpp`

`sendAndRecieve` and the operations built on it. `exit` ends the process, as an
exception does that nobody catches; a `catch (const std::exception&)` lets the
`error_code` of the connection handler pass.
-/

namespace FileTransfer.Client

open FileTransfer.Effect

/-- What the client is built with: Crypto++, and the width of an `unsigned long`. -/
structure Platform (K : Type) where
  rsa : Rsa K
  aesEncryptBlock : Bytes → Bytes → Bytes
  longBits : Nat

variable {K : Type} (pf : Platform K)

/-- `Client::Client`, with the key pair that it generates and what `transfer.info`
says. A member that it does not set is what was in the memory before. -/
def construct (privateKey : K) (transferInfo : TransferInfo) (userName : Bytes)
    (memory : Members K) : Members K :=
  { memory with
    requestHandler := { memory.requestHandler with transferInfo := transferInfo }
    publicKey := pf.rsa.derPublic privateKey
    userName := userName
    privateKey := privateKey
    crcValid := true
    registeredClient := false }

/-- `THROW_IF_NOT(status)`. -/
def throwIfNot (status : Bool) : Cpp K Unit :=
  if status then pure () else throw .exception

/-- `sendAndRecieve(&_requestPacket, &_responsePacket, code)`. -/
def sendAndRecieve (code : RequestCode) : Cpp K Bool := do
  throwIfNot (← requestSelector pf.aesEncryptBlock code)
  throwIfNot (← Cpp.sendData)
  -- a 901 gets no response
  if code = .nValidCrc then
    pure true
  else
    throwIfNot (← Cpp.receiveData)
    throwIfNot (← responseSelector pf.rsa pf.longBits)
    pure true

/-- `_responsePacket.code`, as the label of a `switch`. -/
def responseCode : Cpp K (Option ResponseCode) := do
  let c ← Cpp.members
  pure (ResponseCode.ofValue c.responsePacket.code)

/-! ## Resending -/

/-- The loop of `errorResend` with `rounds` rounds to go. -/
def errorResendLoop (toDo : RequestCode) : Nat → Cpp K Unit
  | 0 => pure ()
  | rounds + 1 => do
    -- the next round does not ask what came back
    let _ ← sendAndRecieve pf toDo
    errorResendLoop toDo rounds

/-- `errorResend(true, toDo)`. -/
def errorResend (toDo : RequestCode) : Cpp K Bool := do
  errorResendLoop pf toDo 2
  pure ((← responseCode) != some .generalErr)

/-- `RESEND_IF_SERVER_ERROR(_responsePacket.code, toDo)`; `false` where it returns
from the function it stands in. -/
def resendIfServerError (toDo : RequestCode) : Cpp K Bool := do
  if (← responseCode) = some .generalErr then errorResend pf toDo else pure true

/-- The loop of `resendEncryptedMessage` with `rounds` rounds to go. -/
def resendLoop : Nat → Cpp K Unit
  | 0 => pure ()
  | rounds + 1 => do
    if (← Cpp.members).crcValid then
      pure ()
    else
      let _ ← sendAndRecieve pf .nValidCrc
      let _ ← sendAndRecieve pf .sendFile
      resendLoop rounds

/-- `resendEncryptedMessage`. -/
def resendEncryptedMessage : Cpp K Bool := do
  resendLoop pf 2
  if (← Cpp.members).crcValid then
    pure true
  else
    let _ ← sendAndRecieve pf .exitCrc
    pure false

/-- `VALID_CRC(_crcValid)`; `false` where it returns from `uploadFile`. -/
def checkCrcValid : Cpp K Bool := do
  if (← Cpp.members).crcValid then pure true else resendEncryptedMessage pf

/-! ## Uploading -/

/-- How `uploadFile` ends when nothing is thrown. -/
inductive Upload where
  | returned
  | exited
deriving DecidableEq

/-- The key exchange of a client that did not sign in. -/
def exchangeKeys : Cpp K Bool := do
  if (← Cpp.members).registeredClient then
    pure true
  else
    let _ ← sendAndRecieve pf .sPublicKey
    resendIfServerError pf .sPublicKey

/-- `uploadFile` up to `VALID_CRC(_crcValid)`; `false` where it returns earlier. -/
def sendFile : Cpp K Bool := do
  if ← exchangeKeys pf then
    let _ ← sendAndRecieve pf .sendFile
    resendIfServerError pf .sendFile
  else
    pure false

/-- `uploadFile` behind `VALID_CRC(_crcValid)`. -/
def confirmFile : Cpp K Unit := do
  let _ ← sendAndRecieve pf .validCrc
  let _ ← resendIfServerError pf .validCrc

/-- The body of the `try` of `uploadFile`. -/
def uploadTry : Cpp K Unit := do
  if ← sendFile pf then
    if ← checkCrcValid pf then
      confirmFile pf

def uploadFile : Cpp K Upload :=
  Cpp.catchException .exited (do
    uploadTry pf
    pure .returned)

/-! ## Registration and sign-in -/

/-- `registerNewClient`; `ABORT_OPERATION` returns `false`. -/
def registerNewClient : Cpp K Bool :=
  Cpp.catchException false (do
    let _ ← sendAndRecieve pf .register
    match ← responseCode with
    | some .regSuccessful => do
      let c ← Cpp.members
      let clientID ← Cpp.lift (inBounds (uidOf c.responsePacket.payload))
      Cpp.assign { c with requestPacket := { c.requestPacket with clientID := clientID } }
      pure true
    | _ => pure false)

/-- `signIn`. -/
def signIn : Cpp K Bool :=
  Cpp.catchException false (do
    let _ ← sendAndRecieve pf .reconnect
    match ← responseCode with
    | some .reconnectFailed => registerNewClient pf
    | some .okReconnOutAes => do
      let c ← Cpp.members
      Cpp.assign { c with registeredClient := true }
      pure true
    | _ => pure false)

end FileTransfer.Client
