import FileTransfer.Lib.BlockMode
import FileTransfer.Server.DefensiveDB

/-!
# The server's `CryptoHandler.py`

The algorithms come from pycryptodome and stay parameters. What its wrappers
check before an algorithm runs (key size, whole blocks, the padding) is
written out. A `try` that only raises its exception again is left out.
-/

namespace FileTransfer.Server

open FileTransfer.Effect
open FileTransfer.BlockMode

/-- The algorithms of pycryptodome. OAEP is randomised; its second argument is
the seed it draws. -/
structure Crypto where
  RsaKey : Type
  importKey : Bytes → Except Exn (Option RsaKey)
  hasPrivate : RsaKey → Bool
  oaepEncrypt : RsaKey → Bytes → Bytes → Except Exn Bytes
  aesDecryptBlock : Bytes → Bytes → Bytes

variable (crypto : Crypto)

/-- `Exceptions.recover_public_key_exceptions`. -/
def recoverPublicKeyExceptions (rsaKey : Option crypto.RsaKey) : Py crypto.RsaKey :=
  match rsaKey with
  | none => raise .invalidPublicKey
  | some key => if crypto.hasPrivate key then raise .invalidPublicKey else pure key

def recoverPublicKey (uid : Uid) : Py crypto.RsaKey := do
  let binaryPublicKey ← getData .publicKey uid
  if binaryPublicKey = publicKeyPlaceholder then raise .invalidPublicKey
  else
    let rsaKey ← ofExcept (crypto.importKey binaryPublicKey)
    recoverPublicKeyExceptions crypto rsaKey

/-- `get_random_bytes(n)`. -/
def getRandomBytes (n : Nat) : Py Bytes := Program.op (S := sig) (.randomBytes n)

/-- `PKCS1_OAEP.new(rsa_key).encrypt(message)`, with a seed as long as a SHA-1
digest. -/
def oaepEncrypt (rsaKey : crypto.RsaKey) (message : Bytes) : Py Bytes := do
  let seed ← getRandomBytes 20
  ofExcept (crypto.oaepEncrypt rsaKey seed message)

def generateAesKey (uid : Uid) : Py Bytes := do
  let rsaKey ← recoverPublicKey crypto uid
  let aesKey ← getRandomBytes Constants.aesKeySize
  updateEntry (.client .aesKey aesKey) uid false []
  oaepEncrypt crypto rsaKey aesKey

/-- `AES.new(key, AES.MODE_CBC, IV).decrypt(data)`: only the three AES key sizes
and only whole blocks. -/
def aesCbcDecrypt (key data : Bytes) : Except Exn Bytes :=
  if key.length ≠ 16 ∧ key.length ≠ 24 ∧ key.length ≠ 32 then .error .valueError
  else if data.length % 16 ≠ 0 then .error .valueError
  else .ok (cbcDecrypt (crypto.aesDecryptBlock key) Constants.iv (blocks 16 data)).flatten

/-- `unpad(data, AES.block_size)`. -/
def unpadAes (data : Bytes) : Except Exn Bytes :=
  match unpad 16 data with
  | none => .error .valueError
  | some m => .ok m

def decryptFile (uid : Uid) (payload : Bytes) : Py Bytes :=
  tryExcept
    (do
      let restoredAesKey ← getData .aesKey uid
      let padded ← ofExcept
        (aesCbcDecrypt crypto restoredAesKey (payload.drop Constants.contentIndex))
      ofExcept (unpadAes padded))
    fun _ => raise .decryptionError

end FileTransfer.Server
