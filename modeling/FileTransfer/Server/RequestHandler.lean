import FileTransfer.Server.Cksum
import FileTransfer.Server.CryptoHandler

/-!
# The server's request handlers

`requestHandler.py` from `init_response` down: one program for each request
code, and `req_select`, which picks one. Messages printed on the way are left
out.
-/

namespace FileTransfer.Server

open FileTransfer.Effect

/-- `init_response`; `struct.error` when a number does not fit its field. -/
def initResponse (version code payloadSize : Nat) (payload : Bytes) : Except Exn Bytes :=
  match packHeader version code payloadSize with
  | none => .error .structError
  | some header => .ok (header ++ payload)

section Handlers

variable (env : Env) (crypto : Crypto)

/-! ## 825: registration -/

def addNewClientToDb (name : Str) : Py Uid := do
  let clientId ← uuid4
  addNewClientDb clientId name
  pure clientId

def registerNewClient (_uid : Uid) (version : Nat) (payload : Bytes) : Py Bytes :=
  tryExcept
    (do
      match asciiDecode payload with
      | none => raise .unicodeDecodeError
      | some name =>
        let (clientId, code) ← findUsername name
        -- the name is taken: the answer carries the uuid of its owner
        if code = Constants.registrationFail then
          ofExcept (initResponse Constants.version code clientId.length clientId)
        else
          -- the name may have been taken since: lookup and insert are separate queries
          let clientId ← addNewClientToDb name
          ofExcept (initResponse version code clientId.bytes.length clientId.bytes))
    registerNewClientExceptions

/-! ## 826 and 827: keys -/

/-- The payload is a user name followed by the 160 bytes of the key. -/
def setPublicKey (uid : Uid) (payload : Bytes) : Py Unit := do
  validatePublicKeyPayload payload
  let publicKey := payload.drop (payload.length - Constants.publicKey)
  updateEntry (.client .publicKey publicKey) uid false []

def handlePublicKey (uid : Uid) (version : Nat) (payload : Bytes) : Py Bytes :=
  tryExcept
    (do
      -- stored here, and looked at only when `generate_aes_key` reads it back
      setPublicKey uid payload
      let aes ← generateAesKey crypto uid
      let pay := uid.bytes ++ aes
      ofExcept (initResponse version Constants.inPublicKeyOutAes pay.length pay))
    fun _ => pure errorResponse

/-- A failure is answered with 1606 and the uid. -/
def handleSignInReqeust (uid : Uid) (_version : Nat) (_payload : Bytes) : Py Bytes :=
  tryExcept
    (do
      let aes ← generateAesKey crypto uid
      let payload := uid.bytes ++ aes
      ofExcept
        (initResponse Constants.version Constants.recconectApproved payload.length payload))
    fun _ =>
      ofExcept
        (initResponse Constants.version Constants.recconetDenied uid.bytes.length uid.bytes)

/-! ## 828: upload -/

/-- `payload[start:end].decode('utf-8').replace('|', '')`. -/
def removePipePadding (payload : Bytes) (start stop : Nat) : Py Str :=
  match utf8Decode (slice payload start stop) with
  | none => removePipePaddingExceptions .unicodeDecodeError
  | some name => pure (name.filter (· ≠ '|'))

/-- `cksum.readfile`: any exception ends in `exit(-1)`. -/
def readfile (path : PurePath) : Py Nat :=
  tryExcept
    (do
      let buffer ← readFile path
      match memcrc buffer with
      | none => raise .indexError
      | some crc => pure crc)
    fun _ => throw .systemExit

def saveFile (uid : Uid) (filename : Str) (decryptedFile : Bytes) : Py Unit :=
  tryExcept
    (do
      let username ← getData .userName uid
      let path := userDir env username
      mkdir path
      writeFile (path.join filename) decryptedFile
      addNewFileDb env uid filename 0)
    saveFileExceptions

/-- `struct.pack('<I', crc)`. -/
def packCrc (crc : Nat) : Except Exn Bytes :=
  if crc < 2 ^ 32 then .ok (toLE 4 crc) else .error .structError

def buildDecryptedFilePayload (uid : Uid) (filename : Str) (payload : Bytes) : Py Bytes := do
  let contentSize := payload.take Constants.uint32T
  let username ← getData .userName uid
  let crc ← readfile ((userDir env username).join filename)
  let crcBytes ← ofExcept (packCrc crc)
  pure (uid.bytes ++ contentSize ++ utf8Encode filename ++ crcBytes)

def handleEncryptedFile (uid : Uid) (_version : Nat) (payload : Bytes) : Py Bytes :=
  tryExcept
    (do
      let name ← removePipePadding payload Constants.nameIndex Constants.contentIndex
      let decryptedFile ← decryptFile crypto uid payload
      -- from here on a failure finds the file changed
      saveFile env uid name decryptedFile
      let pay ← buildDecryptedFilePayload env uid name payload
      ofExcept (initResponse Constants.version Constants.validFileCrc pay.length pay))
    fun _ => pure errorResponse

/-! ## 900 and 902: the end of an upload -/

/-- The error response of a failed removal is what the method returns; its
caller drops it. -/
def deleteFromBackup (uid : Uid) (filename : Str) : Py (Option Bytes) :=
  tryExcept
    (do
      let username ← getData .userName uid
      let path := (userDir env username).join filename
      remove path
      pure none)
    fun _ => pure (some errorResponse)

def validOrAbort (uid : Uid) (code : Nat) (payload : Bytes) : Py Bytes :=
  tryExcept
    (do
      let unpaddedFilename ← removePipePadding payload 0 Constants.fileNameSize
      if code = Constants.validCrc then
        updateEntry (.verified 1) uid true unpaddedFilename
      else if code = Constants.exitCrc then
        let _ ← deleteFromBackup env uid unpaddedFilename
        deleteUnverified uid unpaddedFilename
      ofExcept
        (initResponse Constants.version Constants.fileApproval uid.bytes.length uid.bytes))
    fun _ => pure errorResponse

/-! ## Selection -/

/-- How a handler ends: with a response, or (`resend_crc`) by calling
`handle_request` again and returning whatever that returns. -/
inductive Handled where
  | response (bytes : Bytes)
  | handleRequest
deriving DecidableEq

/-- `resend_crc` (901). Its `except` clause is never entered: `handle_request`
catches every `Exception` itself. -/
def resendCrc (_uid : Uid) (_version : Nat) (_payload : Bytes) : Py Handled :=
  pure .handleRequest

/-- A handler that answers by itself. -/
def respond (handler : Uid → Nat → Bytes → Py Bytes) (uid : Uid) (arg : Nat)
    (payload : Bytes) : Py Handled := do
  let response ← handler uid arg payload
  pure (.response response)

/-- `create_operations_map`. -/
def responseMap (code : Nat) : Option (Uid → Nat → Bytes → Py Handled) :=
  if code = Constants.register then some (respond registerNewClient)
  else if code = Constants.sPublicKey then some (respond (handlePublicKey crypto))
  else if code = Constants.sendFile then some (respond (handleEncryptedFile env crypto))
  else if code = Constants.reconnect then some (respond (handleSignInReqeust crypto))
  else if code = Constants.nValidCrc then some resendCrc
  else if code = Constants.exitCrc then some (respond (validOrAbort env))
  else if code = Constants.validCrc then some (respond (validOrAbort env))
  else none

/-- The handler is called before it is tested, so an unknown code raises the
`TypeError` of calling `None`. -/
def reqSelect (header : Header) (payload : Bytes) : Py Handled :=
  if header.version ≠ Constants.version then pure (.response errorResponse)
  else
    -- `valid_or_abort` gets the code where the others get the version
    let arg :=
      if header.code = Constants.exitCrc ∨ header.code = Constants.validCrc then header.code
      else header.version
    match responseMap env crypto header.code with
    | none => raise .typeError
    | some func => func header.uid arg payload

end Handlers

end FileTransfer.Server
