import FileTransfer.Lib.BlockMode
import FileTransfer.Client.Protocol

/-!
# The client's `EncryptionHandler.cpp`

RSA is Crypto++'s and taken as it comes; `K` is its type of private keys.
`encryptMsg` feeds a Crypto++ filter sixteen bytes at a time. The filter is the
streaming encryptor of `FileTransfer.Lib.BlockMode` over the block cipher of
the key, with the zero IV and the PKCS#7 padding that Crypto++ applies to CBC.
-/

namespace FileTransfer.Client

open FileTransfer.BlockMode

abbrev blockSize : Nat := 16

/-- The AES key the handler holds. -/
structure EncryptionHandler where
  key : Bytes
  key_length : key.length = 32

/-- What Crypto++ does with a key pair, which the private key stands for. Decoding
and decrypting throw where there is no result. -/
structure Rsa (K : Type) where
  derPrivate : K → Bytes
  derPublic : K → Bytes
  base64Encode : Bytes → Bytes
  base64Decode : Bytes → Bytes
  berDecode : Bytes → Option K
  oaepDecrypt : K → Bytes → Option Bytes

/-- `loadPrivateKeyFromBase64`. -/
def Rsa.loadPrivateKeyFromBase64 {K : Type} (rsa : Rsa K) (encodedKey : Bytes) : Option K :=
  rsa.berDecode (rsa.base64Decode encodedKey)

/-- What `saveEncodedPrivateKey` writes into `key.priv`. -/
def Rsa.encodedPrivateKey {K : Type} (rsa : Rsa K) (privateKey : K) : Bytes :=
  rsa.base64Encode (rsa.derPrivate privateKey)

variable (aesEncryptBlock : Bytes → Bytes → Bytes)

/-- The loop of `encryptMsg` from `offset` on. -/
def encryptLoop (E : Bytes → Bytes) (plain : Bytes) (length offset : Nat) (filter : Stream) :
    Except Fault Stream :=
  if _h : offset < length then
    let chunkSize := min blockSize (length - offset)
    match peek plain offset chunkSize with
    | none => .error .outOfBounds
    | some data => encryptLoop E plain length (offset + chunkSize) (filter.put blockSize E data)
  else .ok filter
termination_by length - offset
decreasing_by
  have hblock : 0 < blockSize := by decide
  omega

/-- `encryptMsg(plain, length)`; `length` is an `unsigned int`. -/
def EncryptionHandler.encryptMsg (eh : EncryptionHandler) (plain : Bytes) (length : UInt32) :
    Except Fault Bytes := do
  let E := aesEncryptBlock eh.key
  let iv := List.replicate blockSize 0
  let filter ← encryptLoop E plain length.toNat 0 ⟨iv, [], []⟩
  pure (filter.messageEnd blockSize E)

/-- The loop feeds the message from `offset` on. -/
theorem encryptLoop_fed {E : Bytes → Bytes} {plain iv m : Bytes} {length offset : Nat}
    {filter : Stream} (hlen : length ≤ plain.length) (hle : offset ≤ length)
    (hfed : filter.Fed blockSize E iv m) :
    ∃ filter', encryptLoop E plain length offset filter = .ok filter' ∧
      filter'.Fed blockSize E iv (m ++ slice plain offset length) := by
  have hblock : 0 < blockSize := by decide
  induction hrest : length - offset using Nat.strong_induction_on
    generalizing offset filter m with
  | _ k ih =>
    rw [encryptLoop]
    by_cases hlt : offset < length
    · -- one chunk goes in, and the rest of the message is what is behind it
      have hbound : offset + min blockSize (length - offset) ≤ plain.length := by omega
      have hput := hfed.put hblock ((plain.drop offset).take (min blockSize (length - offset)))
      have hshort : length - (offset + min blockSize (length - offset)) < k := by omega
      obtain ⟨filter', hloop, hfed'⟩ := ih _ hshort (by omega) hput rfl
      refine ⟨filter', ?_, ?_⟩
      · simp only [dif_pos hlt, peek, if_pos hbound]
        exact hloop
      · have hnext : offset + min blockSize (length - offset) ≤ length := by omega
        rw [slice_split plain hnext, ← List.append_assoc]
        exact hfed'
    · obtain rfl : offset = length := by omega
      refine ⟨filter, dif_neg hlt, ?_⟩
      have hnil : slice plain offset offset = [] :=
        List.drop_eq_nil_of_le (List.length_take_le _ _)
      rwa [hnil, List.append_nil]

/-- **`encryptMsg` is CBC over the padded message**, however it is fed. -/
theorem encryptMsg_eq (eh : EncryptionHandler) {plain : Bytes} {length : UInt32}
    (hlen : length.toNat ≤ plain.length) :
    eh.encryptMsg aesEncryptBlock plain length =
      .ok (cbcEncrypt (aesEncryptBlock eh.key) (List.replicate blockSize 0)
        (blocks blockSize (pad blockSize (plain.take length.toNat)))).flatten := by
  have hblock : 0 < blockSize := by decide
  obtain ⟨filter, hloop, hfed⟩ := encryptLoop_fed hlen (Nat.zero_le _)
    (Stream.fed_init (aesEncryptBlock eh.key) (List.replicate blockSize 0) hblock)
  simp only [EncryptionHandler.encryptMsg, hloop]
  show Except.ok (filter.messageEnd blockSize (aesEncryptBlock eh.key)) = _
  rw [hfed.messageEnd hblock]
  rfl

end FileTransfer.Client
