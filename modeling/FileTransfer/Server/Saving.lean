import FileTransfer.Server.Registration

/-!
# Uploads, stage by stage

An 828 is decrypted with the key in the row, written to the path that the row
and the payload name, recorded, and read back for its checksum. The row is asked
for the user name three times on the way. What is sent as the checksum is that
of the file as it is read back, not of the bytes that were written.
-/

namespace FileTransfer.Server

open FileTransfer.Effect

namespace Saving

/-! ## The stages -/

section Stages

variable (env : Env) (crypto : Crypto) (uid : Uid) (payload : Bytes) (name : Str)

/-- The 1603. -/
def checked (crc : Nat) : Except Exn Bytes := do
  let crcBytes ← packCrc crc
  let pay := uid.bytes ++ payload.take Constants.uint32T ++ utf8Encode name ++ crcBytes
  initResponse Constants.version Constants.validFileCrc pay.length pay

/-- Go on with what was read, or end the thread. -/
def orExit (k : Bytes → Py Handled) : Except Raised Bytes → Py Handled
  | .ok buffer => k buffer
  | .error _ => .throw .systemExit

/-- What becomes of the bytes that were read back. -/
def answer (buffer : Bytes) : Py Handled :=
  match memcrc buffer with
  | none => .throw .systemExit
  | some crc => orRefusal errorResponse (checked uid payload name crc)

def readBack (user : Str) : Py Handled :=
  .perform (.readFile ((userDir env user).join name)) (orExit (answer uid payload name))

/-- Ask the row for the user name, and go on with it. -/
def owner (next : Str → Py Handled) : Py Handled :=
  .perform (.query (.selectClient .userName uid)) (orRefuse errorResponse fun
    | none => .ret (.response errorResponse)
    | some (user : Str) => next user)

def addRow (user : Str) : Py Handled :=
  .perform (.query (.insertFile ⟨uid, name, (userDir env user).str, 0⟩))
    (orRefuse errorResponse fun (_ : Nat) => owner uid (readBack env uid payload name))

def write (file : Bytes) (user : Str) : Py Handled :=
  .perform (.writeFile ((userDir env user).join name) file)
    (orRefuse errorResponse fun (_ : Unit) => owner uid (addRow env uid payload name))

def makeDir (file : Bytes) (user : Str) : Py Handled :=
  .perform (.mkdir (userDir env user))
    (orRefuse errorResponse fun (_ : Unit) => write env uid payload name file user)

def decrypt : Py Handled :=
  .perform (.query (.selectClient .aesKey uid)) (orRefuse errorResponse fun
    | none => .ret (.response errorResponse)
    | some (key : Bytes) =>
      match decryptedWith crypto payload key with
      | .ok file => owner uid (makeDir env uid payload name file)
      | .error _ => .ret (.response errorResponse))

end Stages

/-! ## The stages are the handler -/

section Handler

variable {env : Env} {crypto : Crypto} {uid : Uid} {payload : Bytes} {name : Str}

theorem guarded_getUserName {k : Str → Py Bytes} {next : Str → Py Handled}
    (h : ∀ user, guarded errorResponse (k user) = next user) :
    guarded errorResponse (getData .userName uid >>= k) = owner uid next := by
  refine guarded_perform (fun found => ?_) fun e => by cases e <;> rfl
  cases found with
  | none => rfl
  | some user => exact h user

theorem guarded_readBack :
    guarded errorResponse (do
      let pay ← buildDecryptedFilePayload env uid name payload
      ofExcept (initResponse Constants.version Constants.validFileCrc pay.length pay)) =
      owner uid (readBack env uid payload name) := by
  rw [buildDecryptedFilePayload, Program.bind_assoc]
  refine guarded_getUserName fun user => ?_
  refine congrArg (@Program.perform sig Raised Handled (.readFile _)) ?_
  funext r
  rcases r with e | buffer
  · cases e <;> rfl
  · -- the checksum is computed inside the `try` of `readfile`
    show guarded errorResponse ((tryExcept (match memcrc buffer with
        | none => raise .indexError
        | some crc => pure crc) (fun _ => throw .systemExit) >>= fun crc => do
          let crcBytes ← ofExcept (packCrc crc)
          pure (uid.bytes ++ payload.take Constants.uint32T ++ utf8Encode name ++ crcBytes)) >>=
        fun pay => ofExcept
          (initResponse Constants.version Constants.validFileCrc pay.length pay)) =
      answer uid payload name buffer
    rw [answer]
    cases memcrc buffer with
    | none => rfl
    | some crc =>
      show guarded errorResponse ((ofExcept (packCrc crc) >>= _) >>= _) =
        orRefusal errorResponse (checked uid payload name crc)
      rw [checked]
      cases packCrc crc with
      | error e => rfl
      | ok crcBytes => exact guarded_ofExcept _ _

theorem guarded_saveFile (file : Bytes) :
    guarded errorResponse (do
      saveFile env uid name file
      let pay ← buildDecryptedFilePayload env uid name payload
      ofExcept (initResponse Constants.version Constants.validFileCrc pay.length pay)) =
      owner uid (makeDir env uid payload name file) := by
  refine guarded_perform (fun found => ?_) fun e => by cases e <;> rfl
  cases found with
  | none => rfl
  | some user =>
    refine guarded_perform (fun _ => ?_) fun e => by cases e <;> rfl
    refine guarded_perform (fun _ => ?_) fun e => by cases e <;> rfl
    refine guarded_perform (fun found => ?_) fun e => by cases e <;> rfl
    cases found with
    | none => rfl
    | some user =>
      refine guarded_perform (fun _ => ?_) fun e => by cases e <;> rfl
      exact guarded_readBack

/-- **The stages are the handler**: an upload with a readable name is the chain
that starts with the key. -/
theorem reqSelect_sendFile {j : Header × Bytes} (hversion : j.1.version = Constants.version)
    (hcode : j.1.code = Constants.sendFile) (hname : uploadName j.2 = some name) :
    reqSelect env crypto j.1 j.2 = decrypt env crypto j.1.uid j.2 name := by
  have hmap : responseMap env crypto j.1.code =
      some (respond (handleEncryptedFile env crypto)) := by
    rw [hcode]
    rfl
  have hparse : (removePipePadding j.2 Constants.nameIndex Constants.contentIndex : Py Str) =
      pure name := by
    rw [removePipePadding]
    rw [uploadName, unpaddedName] at hname
    cases hdecode : utf8Decode (slice j.2 Constants.nameIndex Constants.contentIndex) with
    | none =>
      rw [hdecode] at hname
      cases hname
    | some decoded =>
      rw [hdecode] at hname
      obtain rfl := Option.some.inj hname
      rfl
  rw [reqSelect_respond hversion hmap, respond, handleEncryptedFile, hparse]
  show guarded errorResponse (decryptFile crypto j.1.uid j.2 >>= fun file => do
    saveFile env j.1.uid name file
    let pay ← buildDecryptedFilePayload env j.1.uid name j.2
    ofExcept (initResponse Constants.version Constants.validFileCrc pay.length pay)) = _
  refine guarded_perform (fun found => ?_) fun e => by cases e <;> rfl
  cases found with
  | none => rfl
  | some key =>
    show guarded errorResponse ((tryExcept (do
        let padded ← ofExcept (aesCbcDecrypt crypto key (j.2.drop Constants.contentIndex))
        ofExcept (unpadAes padded)) fun _ => raise .decryptionError) >>= _) =
      match decryptedWith crypto j.2 key with
      | .ok file => owner j.1.uid (makeDir env j.1.uid j.2 name file)
      | .error _ => .ret (.response errorResponse)
    rw [decryptedWith]
    cases aesCbcDecrypt crypto key (j.2.drop Constants.contentIndex) with
    | error e => rfl
    | ok padded =>
      show guarded errorResponse ((tryExcept (ofExcept (unpadAes padded))
          fun _ => raise .decryptionError) >>= _) =
        match unpadAes padded with
        | .ok file => owner j.1.uid (makeDir env j.1.uid j.2 name file)
        | .error _ => .ret (.response errorResponse)
      cases unpadAes padded with
      | error e => rfl
      | ok file => exact guarded_saveFile file

/-- Any other 828 is answered at once, with the error response. -/
theorem reqSelect_not_sendFile {j : Header × Bytes} (hcode : j.1.code = Constants.sendFile)
    (h : j.1.version ≠ Constants.version ∨ uploadName j.2 = none) :
    reqSelect env crypto j.1 j.2 = .ret (.response errorResponse) := by
  by_cases hversion : j.1.version = Constants.version
  · have hname := h.resolve_left (not_not.mpr hversion)
    have hmap : responseMap env crypto j.1.code =
        some (respond (handleEncryptedFile env crypto)) := by
      rw [hcode]
      rfl
    have hparse : (removePipePadding j.2 Constants.nameIndex Constants.contentIndex : Py Str) =
        raise .parsingData := by
      rw [removePipePadding]
      rw [uploadName, unpaddedName, Option.map_eq_none_iff] at hname
      rw [hname]
      rfl
    rw [reqSelect_respond hversion hmap, respond, handleEncryptedFile, hparse]
    rfl
  · rw [reqSelect, if_pos hversion]
    rfl

end Handler

/-! ## Uploads of a known name

The name of a packed upload is known, so its padding need not be decoded to see
what becomes of it. -/

section Packed

variable (env : Env) (crypto : Crypto) (uid : Uid) {name : Str} {bytes : Bytes}
  (hname : utf8Encode name = bytes) (hpipe : '|' ∉ name) (hlen : bytes.length ≤ 255)
include hname hpipe hlen

theorem reqSelect_uploadRequest :
    reqSelect env crypto (uploadRequest uid bytes).1 (uploadRequest uid bytes).2 =
      decrypt env crypto uid (uploadRequest uid bytes).2 name :=
  reqSelect_sendFile rfl rfl (uploadName_uploadRequest uid hname hpipe hlen)

theorem serve_uploadRequest (w : World) :
    serve env crypto (uploadRequest uid bytes).1 (uploadRequest uid bytes).2 w =
      Program.run (exec env) (decrypt env crypto uid (uploadRequest uid bytes).2 name) w := by
  rw [serve, reqSelect_uploadRequest env crypto uid hname hpipe hlen]

theorem handleAll_uploadRequest (w : World) (requests : List (Header × Bytes)) :
    handleAll env crypto w (requests ++ [uploadRequest uid bytes]) =
      (Program.run (exec env) (decrypt env crypto uid (uploadRequest uid bytes).2 name)
        (handleAll env crypto w requests)).2 := by
  rw [handleAll_concat, serve_uploadRequest env crypto uid hname hpipe hlen]

end Packed

end Saving

end FileTransfer.Server
