import FileTransfer.Client.RequestHandler
import FileTransfer.Client.ResponseHandler
import FileTransfer.Server.Footprint

/-!
# An upload from end to end

The payload that `encryptFile` builds, what `handle_encrypted_file` makes of
it, and what `checkSum` says about the answer. AES is any block cipher on
blocks of 16 bytes; the two sides hold the two directions of it.
-/

namespace FileTransfer.EndToEnd

open FileTransfer.Client FileTransfer.Server FileTransfer.BlockMode FileTransfer.Effect

/-! ## What the client sends -/

/-- CBC over the padded file. -/
def ciphertext (E : Bytes → Bytes → Bytes) (key file : Bytes) : Bytes :=
  (cbcEncrypt (E key) Constants.iv (blocks 16 (pad 16 file))).flatten

/-- The loop ends at the next multiple of 16, modulo the range of its counter. -/
theorem toNat_roundUp (tmp : UInt32) :
    (roundUp tmp).toNat = 16 * ((tmp.toNat + 15) / 16) % 2 ^ 32 := by
  induction hk : (uidSize - tmp.toNat % uidSize) % uidSize using Nat.strong_induction_on
    generalizing tmp with
  | _ k ih =>
    have hlt := tmp.toNat_lt
    simp only [uidSize] at hk
    rw [roundUp]
    by_cases hmod : tmp.toNat % uidSize = 0
    · rw [dif_pos hmod]
      simp only [uidSize] at hmod
      omega
    · rw [dif_neg hmod]
      have hadd : (tmp + 1).toNat = (tmp.toNat + 1) % 2 ^ 32 := UInt32.toNat_add tmp 1
      simp only [uidSize] at hmod
      rw [ih ((16 - (tmp + 1).toNat % 16) % 16) (by omega) (tmp + 1) rfl]
      omega

/-- Rounding up gives a multiple of 16 that is not smaller, as long as it does
not wrap. -/
theorem roundUp_spec {tmp : UInt32} (h : tmp.toNat ≤ 2 ^ 32 - 16) :
    tmp.toNat ≤ (roundUp tmp).toNat ∧ (roundUp tmp).toNat % uidSize = 0 := by
  have hround := toNat_roundUp tmp
  simp only [uidSize]
  omega

/-- A packet count that is not refused bounds the size. -/
theorem totalEncryptedPacket_ok {origSize : UInt32} {packs : UInt16}
    (h : totalEncryptedPacket origSize = .ok packs) (hsmall : origSize.toNat ≤ 2 ^ 32 - 16) :
    origSize.toNat ≤ 65535 * 16 := by
  obtain ⟨tmp, htmp, hle, hmod⟩ : ∃ tmp : UInt32,
      (if origSize.toNat % uidSize = 0 then origSize else roundUp origSize) = tmp ∧
        origSize.toNat ≤ tmp.toNat ∧ tmp.toNat % uidSize = 0 := by
    refine ⟨_, rfl, ?_⟩
    split
    · next hmod => exact ⟨Nat.le_refl _, hmod⟩
    · exact roundUp_spec hsmall
  simp only [totalEncryptedPacket, htmp] at h
  split at h
  · cases h
  · next hfits =>
    simp only [uidSize] at hfits hmod
    omega

theorem getFileSizes_ok {file : Bytes} {packs : UInt16} {orig : UInt32}
    (h : getFileSizes file = .ok (packs, orig)) :
    orig.toNat = file.length ∧ (file.length ≤ 2 ^ 32 - 16 → file.length ≤ 65535 * 16) := by
  simp only [getFileSizes] at h
  split at h
  · cases h
  · next hlen =>
    obtain ⟨n, hpacks, hn⟩ := bind_eq_ok.mp h
    cases hn
    have horig : (UInt32.ofNat file.length).toNat = file.length :=
      UInt32.toNat_ofNat_of_lt (show file.length < 2 ^ 32 by omega)
    refine ⟨horig, fun hsmall => ?_⟩
    rw [← horig] at hsmall ⊢
    exact totalEncryptedPacket_ok hpacks hsmall

section Block

variable {E D : Bytes → Bytes → Bytes}

theorem length_ciphertext {key : Bytes} (hE : Inverts 16 (E key) (D key)) (file : Bytes) :
    (ciphertext E key file).length = (file.length / 16 + 1) * 16 :=
  length_encrypt_pad hE (by decide) (by decide) file

/-- The encrypted data is the ciphertext of the whole file, if 32 bits hold its size. -/
theorem getEncryptedData_eq (rh : RequestHandler) {file : Bytes} {orig : UInt32}
    (horig : orig.toNat = file.length) :
    rh.getEncryptedData E file orig =
      if 2 ^ 32 - 1 < (ciphertext E rh.eh.key file).length then .error .exception
      else .ok (ciphertext E rh.eh.key file) := by
  have hlt : file.length < 2 ^ 32 := horig ▸ orig.toNat_lt
  have hlen : (UInt32.ofNat file.length).toNat = file.length := UInt32.toNat_ofNat_of_lt hlt
  have htake : file.take orig.toNat = file := List.take_of_length_le (by omega)
  have hmsg : rh.eh.encryptMsg E (file ++ [0]) (UInt32.ofNat file.length) =
      .ok (ciphertext E rh.eh.key file) := by
    rw [encryptMsg_eq E rh.eh (by rw [hlen]; simp), hlen, List.take_left]
    rfl
  have hread : ¬ file.length < orig.toNat := by omega
  simp only [RequestHandler.getEncryptedData, htake, hmsg, if_neg hread]
  rfl

theorem getEncryptedData_ok {rh : RequestHandler} {file enc : Bytes} {orig : UInt32}
    (h : rh.getEncryptedData E file orig = .ok enc) (horig : orig.toNat = file.length) :
    enc = ciphertext E rh.eh.key file ∧ enc.length < 2 ^ 32 := by
  rw [getEncryptedData_eq rh horig] at h
  split at h
  · cases h
  · next hsize =>
    cases h
    exact ⟨rfl, by omega⟩

/-- The 267 bytes before the encrypted file. -/
def uploadHeader (size orig : Nat) (packs : UInt16) (name : Bytes) : Bytes :=
  toLE 4 size ++ toLE 4 orig ++ toLE 2 1 ++ toLE 2 packs.toNat ++ name

/-- Every write of `setEncryptionPayload` stays inside the payload and behind
the one before it. -/
theorem setEncryptionPayload_ok {rh rh' : RequestHandler} {orig : UInt32} {packs : UInt16}
    {enc : Bytes} {packet packet' : RequestPacket}
    (h : rh.setEncryptionPayload orig 1 packs enc packet = .ok (rh', packet')) :
    267 + enc.length ≤ packet.payload.length ∧
      packet'.payload =
        uploadHeader enc.length orig.toNat packs (rh.transferInfo.getFileName.take 255) ++ enc ++
          packet.payload.drop (267 + enc.length) := by
  have hpadded : 255 ≤ rh.transferInfo.getFileName.length := by
    simp only [TransferInfo.getFileName, nameSize, List.length_append, List.length_replicate]
    omega
  simp only [RequestHandler.setEncryptionPayload, bind_eq_ok, inBounds_eq_ok] at h
  obtain ⟨p₁, h₁, p₂, h₂, p₃, h₃, p₄, h₄, name, hpeek, p₅, h₅, p₆, h₆, hend⟩ := h
  cases hend
  have hname : name = rh.transferInfo.getFileName.take 255 := by
    simp only [peek, nameSize, Nat.zero_add, if_pos hpadded] at hpeek
    exact (Option.some.inj hpeek).symm
  have hnamelen : name.length = 255 := by rw [hname, List.length_take]; omega
  -- no write changes the length, so the last one bounds the whole payload
  have hfits := blit_eq_some h₆
  rw [length_blit h₅, length_blit h₄, length_blit h₃, length_blit h₂, length_blit h₁] at hfits
  refine ⟨hfits, ?_⟩
  rw [← List.nil_append packet.payload] at h₁
  obtain rfl := eq_of_blit_append h₁ rfl
  obtain rfl := eq_of_blit_append h₂ (by simp)
  obtain rfl := eq_of_blit_append h₃ (by simp)
  obtain rfl := eq_of_blit_append h₄ (by simp)
  obtain rfl := eq_of_blit_append h₅ (by simp)
  obtain rfl := eq_of_blit_append h₆ (by simp [hnamelen])
  rw [← hname]
  simp [uploadHeader, hnamelen]

/-- **The upload payload**: a packet that `encryptFile` accepts holds the header
and the ciphertext of the file, and nothing else. -/
theorem encryptFile_ok {rh rh' : RequestHandler} {disk : Bytes → Option Bytes}
    {packet packet' : RequestPacket} {file : Bytes}
    (hE : Inverts 16 (E rh.eh.key) (D rh.eh.key)) (hfile : disk rh.transferInfo.path = some file)
    (h : rh.encryptFile E disk packet = .ok (true, rh', packet')) :
    file.length ≤ 65535 * 16 ∧ ∃ packs, packet'.payload =
      uploadHeader (ciphertext E rh.eh.key file).length file.length packs
        (rh.transferInfo.getFileName.take 255) ++ ciphertext E rh.eh.key file := by
  simp only [RequestHandler.encryptFile, hfile] at h
  split at h
  · next rh₁ packet₁ hopened =>
    cases h
    simp only [RequestHandler.encryptOpened, bind_eq_ok] at hopened
    obtain ⟨⟨packs, orig⟩, hsizes, enc, henc, hset⟩ := hopened
    obtain ⟨horig, hsmall⟩ := getFileSizes_ok hsizes
    obtain ⟨rfl, hlt⟩ := getEncryptedData_ok henc horig
    obtain ⟨hfits, hpayload⟩ := setEncryptionPayload_ok hset
    have hlen := length_ciphertext hE file
    have hsize : (UInt32.ofNat (ciphertext E rh.eh.key file).length).toNat =
        (ciphertext E rh.eh.key file).length := UInt32.toNat_ofNat_of_lt hlt
    -- the sum wraps; that the payload fits says that it did not
    have hadd : (UInt32.ofNat fixedEncryptionPayload +
        UInt32.ofNat (ciphertext E rh.eh.key file).length).toNat =
        (267 + (ciphertext E rh.eh.key file).length) % 2 ^ 32 := by
      rw [UInt32.toNat_add, hsize]
      rfl
    simp only [initRequest, List.length_replicate, hadd] at hfits
    refine ⟨hsmall (by omega), packs, ?_⟩
    rw [hpayload, horig, List.drop_eq_nil_of_le, List.append_nil]
    simp only [initRequest, List.length_replicate, hadd]
    omega
  · cases h
  · cases h

end Block

/-! ## What the server makes of it -/

/-- The name field of the payload: the name and pipes up to 255 bytes. -/
theorem getFileName_eq {ti : TransferInfo} {name : Str}
    (hname : filename ti.path = utf8Encode name) (hlen : (utf8Encode name).length ≤ 255) :
    ti.getFileName.take 255 =
      utf8Encode (name ++ List.replicate (255 - (utf8Encode name).length) '|') := by
  have htotal : ti.getFileName.length = 255 := by
    simp only [TransferInfo.getFileName, hname, nameSize, List.length_append,
      List.length_replicate]
    omega
  rw [List.take_of_length_le (by omega), utf8Encode_append, utf8Encode_replicate_pipe,
    TransferInfo.getFileName, hname]

section Server

variable {E : Bytes → Bytes → Bytes} {env : Env} {crypto : Crypto} {w : World} {uid : Uid}
  {row : ClientRow} {name : Str} {payload file : Bytes}

/-- The server finds the name the client padded. -/
theorem run_removePipePadding
    (hslice : slice payload Constants.nameIndex Constants.contentIndex =
      utf8Encode (name ++ List.replicate (255 - (utf8Encode name).length) '|'))
    (hpipe : '|' ∉ name) :
    Py.run env (removePipePadding payload Constants.nameIndex Constants.contentIndex) w =
      (.ok name, w) := by
  rw [Py.run, Server.run_removePipePadding, unpaddedName_of_padded hslice hpipe]

/-- Decryption with the stored key undoes the client's encryption. -/
theorem run_decryptFile (henv : env.Reliable)
    (hrow : w.clients.find? (·.uuid = uid) = some row) (hkey : row.aesKey.length = 32)
    (hE : Inverts 16 (E row.aesKey) (crypto.aesDecryptBlock row.aesKey))
    (hcontent : payload.drop Constants.contentIndex = ciphertext E row.aesKey file) :
    Py.run env (decryptFile crypto uid payload) w = (.ok file, w.ticked) := by
  have hlen := length_ciphertext hE file
  have hdecrypt : aesCbcDecrypt crypto row.aesKey (ciphertext E row.aesKey file) =
      .ok (pad 16 file) := by
    have hwhole : ¬ (ciphertext E row.aesKey file).length % 16 ≠ 0 := by omega
    have hsize : ¬ (row.aesKey.length ≠ 16 ∧ row.aesKey.length ≠ 24 ∧ row.aesKey.length ≠ 32) := by
      omega
    rw [aesCbcDecrypt, if_neg hsize, if_neg hwhole]
    exact congrArg _ (decrypt_pad hE (by decide) (by decide) file)
  have hunpad : unpadAes (pad 16 file) = .ok file := by
    rw [unpadAes, unpad_pad (by decide) (by decide)]
  have hget : Program.run (exec env) (getData .aesKey uid) w = (.ok row.aesKey, w.ticked) := by
    simp only [run_getData env .aesKey, henv.query, Bool.false_eq_true, if_false, hrow,
      ClientRow.get]
  simp only [decryptFile, Py.run, run_tryExcept, Program.run_bind, hget, hcontent, hdecrypt,
    run_ofExcept, hunpad, Except.mapError]

/-- With the disk and the database at work, the file is written and a row is
offered to the files table. -/
theorem run_saveFile {d d' : Disk} (henv : env.Reliable)
    (hrow : w.clients.find? (·.uuid = uid) = some row)
    (hmkdir : w.disk.mkdirs (userDir env row.userName) = (.ok (), d))
    (hwrite : d.write ((userDir env row.userName).join name) file = .ok d') :
    ∃ w', Py.run env (saveFile env uid name file) w = (.ok (), w') ∧ w'.disk = d' ∧
      w'.clients = w.clients := by
  have hget : Program.run (exec env) (getData .userName uid) w = (.ok row.userName, w.ticked) := by
    simp only [run_getData env .userName, henv.query, Bool.false_eq_true, if_false, hrow,
      ClientRow.get]
  have hmkdir' : exec env (.mkdir (userDir env row.userName)) w.ticked =
      (.ok (), ⟨w.clients, w.files, d, w.tick + 2⟩) := by
    simp only [Server.exec, henv.disk, World.ticked, hmkdir]
    rfl
  have hwrite' : exec env (.writeFile ((userDir env row.userName).join name) file)
      ⟨w.clients, w.files, d, w.tick + 2⟩ =
        (.ok (), ⟨w.clients, w.files, d', w.tick + 3⟩) := by
    simp only [Server.exec, henv.disk, hwrite]
    rfl
  simp only [saveFile, Py.run, run_tryExcept, Program.run_bind, hget, run_mkdir, hmkdir',
    run_writeFile, hwrite', run_addNewFileDb, henv.query, Bool.false_eq_true, if_false, hrow]
  exact ⟨_, rfl, rfl, rfl⟩

/-- The answer carries the checksum of what is now in the file. -/
theorem run_buildDecryptedFilePayload {crc : Nat} (payload : Bytes) (henv : env.Reliable)
    (hrow : w.clients.find? (·.uuid = uid) = some row)
    (hread : w.disk.read ((userDir env row.userName).join name) = .ok file)
    (hcrc : Server.memcrc file = some crc) (hfits : crc < 2 ^ 32) :
    ∃ w', Py.run env (buildDecryptedFilePayload env uid name payload) w =
      (.ok (uid.bytes ++ payload.take 4 ++ utf8Encode name ++ toLE 4 crc), w') ∧
        w'.disk = w.disk := by
  have hget : Program.run (exec env) (getData .userName uid) w = (.ok row.userName, w.ticked) := by
    simp only [run_getData env .userName, henv.query, Bool.false_eq_true, if_false, hrow,
      ClientRow.get]
  have hreadfile : Program.run (exec env)
      (Server.readfile ((userDir env row.userName).join name)) w.ticked =
        (.ok crc, w.ticked.ticked) := by
    have hop : exec env (.readFile ((userDir env row.userName).join name)) w.ticked =
        (.ok file, w.ticked.ticked) := by
      simp only [Server.exec, henv.disk, World.ticked_disk, hread]
      rfl
    simp only [Server.readfile, run_tryExcept, Program.run_bind, run_readFile, hop, hcrc,
      Program.pure_eq, Program.run_ret]
  refine ⟨w.ticked.ticked, ?_, rfl⟩
  simp only [buildDecryptedFilePayload, Py.run, Program.run_bind, hget, hreadfile, packCrc,
    if_pos hfits, run_ofExcept, Except.mapError, Program.pure_eq, Program.run_ret]

/-- The payload of response 1603. -/
def crcPayload (uid : Uid) (payload : Bytes) (name : Str) (crc : Nat) : Bytes :=
  uid.bytes ++ payload.take 4 ++ utf8Encode name ++ toLE 4 crc

/-- **The upload handler on a well-formed upload**: the file is saved and its
checksum is in the answer. -/
theorem run_handleEncryptedFile {d d' : Disk} {version crc : Nat} (henv : env.Reliable)
    (hrow : w.clients.find? (·.uuid = uid) = some row) (hkey : row.aesKey.length = 32)
    (hE : Inverts 16 (E row.aesKey) (crypto.aesDecryptBlock row.aesKey))
    (hname : slice payload Constants.nameIndex Constants.contentIndex =
      utf8Encode (name ++ List.replicate (255 - (utf8Encode name).length) '|'))
    (hpipe : '|' ∉ name) (hlen : (utf8Encode name).length ≤ 255)
    (hcontent : payload.drop Constants.contentIndex = ciphertext E row.aesKey file)
    (hcrc : Server.memcrc file = some crc) (hfits : crc < 2 ^ 32)
    (hmkdir : w.disk.mkdirs (userDir env row.userName) = (.ok (), d))
    (hwrite : d.write ((userDir env row.userName).join name) file = .ok d') :
    ∃ response w', Py.run env (handleEncryptedFile env crypto uid version payload) w =
        (.ok response, w') ∧ w'.disk = d' ∧
      initResponse 3 1603 (crcPayload uid payload name crc).length
        (crcPayload uid payload name crc) = .ok response := by
  obtain ⟨w₁, hsave, hdisk₁, hclients₁⟩ := run_saveFile (w := w.ticked) henv hrow hmkdir hwrite
  have hread : w₁.disk.read ((userDir env row.userName).join name) = .ok file :=
    hdisk₁ ▸ Disk.read_of_write hwrite
  have hrow₁ : w₁.clients.find? (·.uuid = uid) = some row := hclients₁ ▸ hrow
  obtain ⟨w₂, hbuild, hdisk₂⟩ :=
    run_buildDecryptedFilePayload payload henv hrow₁ hread hcrc hfits
  have hsmall : (crcPayload uid payload name crc).length < 2 ^ 32 := by
    simp only [crcPayload, List.length_append, uid.length_eq, length_toLE, List.length_take]
    omega
  obtain ⟨response, hresponse⟩ : ∃ response,
      initResponse 3 1603 (crcPayload uid payload name crc).length
        (crcPayload uid payload name crc) = .ok response := by
    have hnumbers : 3 < 2 ^ 8 ∧ 1603 < 2 ^ 16 ∧
        (crcPayload uid payload name crc).length < 2 ^ 32 := ⟨by decide, by decide, hsmall⟩
    simp only [initResponse, packHeader, if_pos hnumbers]
    exact ⟨_, rfl⟩
  refine ⟨response, w₂, ?_, hdisk₂.trans hdisk₁, hresponse⟩
  have hpad : Py.run env (removePipePadding payload Constants.nameIndex Constants.contentIndex) w =
      (.ok name, w) := run_removePipePadding hname hpipe
  have hdecrypt := run_decryptFile henv hrow hkey hE hcontent
  simp only [Py.run] at hpad hdecrypt hsave hbuild
  have hanswer : initResponse Constants.version Constants.validFileCrc
      (uid.bytes ++ payload.take 4 ++ utf8Encode name ++ toLE 4 crc).length
      (uid.bytes ++ payload.take 4 ++ utf8Encode name ++ toLE 4 crc) = .ok response := hresponse
  simp only [handleEncryptedFile, Py.run, run_tryExcept, Program.run_bind, hpad, hdecrypt, hsave,
    hbuild, run_ofExcept, hanswer, Except.mapError]

end Server

/-! ## What the client makes of the answer -/

/-- `checkSum` compares the local file's checksum with the last four bytes of
the payload. -/
theorem checkSum_of_crc {w : Nat} {ti : TransferInfo} {disk : Bytes → Option Bytes}
    {file front : Bytes} {crc : BitVec w} (hfile : disk ti.path = some file)
    (hcrc : Client.memcrc w file = some crc) (hfits : crc.toNat < 2 ^ 32) :
    checkSum w ti disk (front ++ toLE 4 crc.toNat) = .ok (true, true) := by
  have hlast : crcOfPayload (front ++ toLE 4 crc.toNat) = some (toLE 4 crc.toNat) := by
    have hlen : 4 ≤ (front ++ toLE 4 crc.toNat).length := by simp
    rw [crcOfPayload, if_pos hlen, List.length_append, length_toLE, Nat.add_sub_cancel,
      List.drop_left]
  have hvalue : BitVec.ofNat w (fromLE (toLE 4 crc.toNat)) = crc := by
    rw [fromLE_toLE hfits, BitVec.ofNat_toNat, BitVec.setWidth_eq]
  simp only [checkSum, Client.readfile, hfile, hcrc, hlast, inBounds_some]
  show Except.ok (true, crc == BitVec.ofNat w (fromLE (toLE 4 crc.toNat))) = _
  rw [hvalue, beq_self_eq_true]

/-! ## Together -/

/-- **An upload is lossless.** Whatever file `encryptFile` accepts, the server
saves exactly its bytes under exactly its name, and the checksum in the answer
satisfies the client. -/
theorem upload_lossless {E : Bytes → Bytes → Bytes} {env : Env} {crypto : Crypto}
    {rh rh' : RequestHandler} {disk : Bytes → Option Bytes} {packet packet' : RequestPacket}
    {file : Bytes} {name : Str} {w : World} {row : ClientRow} {d : Disk}
    (hAES : ∀ key : Bytes, key.length = 32 → Inverts 16 (E key) (crypto.aesDecryptBlock key))
    (hlocal : disk rh.transferInfo.path = some file)
    (hencrypt : rh.encryptFile E disk packet = .ok (true, rh', packet'))
    (hname : filename rh.transferInfo.path = utf8Encode name) (hplain : PurePath.Plain name)
    (hpipe : '|' ∉ name) (hlen : (utf8Encode name).length ≤ 255)
    (hrow : row ∈ w.clients) (hkey : row.aesKey = rh.eh.key)
    (huser : PurePath.Plain row.userName.dropLast) (henv : env.Reliable)
    (hmkdir : w.disk.mkdirs (userDir env row.userName) = (.ok (), d))
    (hfree : ¬ d.IsDir (env.backupPath.path.resolve ++ [row.userName.dropLast, name]))
    (version : Nat) :
    ∃ response pay w',
      Py.run env (handleEncryptedFile env crypto row.uuid version packet'.payload) w =
        (.ok response, w') ∧
      w'.disk.fileAt (env.backupPath.path.resolve ++ [row.userName.dropLast, name]) = some file ∧
      initResponse 3 1603 pay.length pay = .ok response ∧
      ∀ width, 32 ≤ width →
        checkSum width rh.transferInfo disk pay = .ok (true, true) := by
  have hkeylen : row.aesKey.length = 32 := hkey ▸ rh.eh.key_length
  have hE := hAES row.aesKey hkeylen
  obtain ⟨hsize, packs, hpayload⟩ := encryptFile_ok (hkey ▸ hE) hlocal hencrypt
  rw [getFileName_eq hname hlen, ← hkey] at hpayload
  -- where the server looks for the name and for the content
  have hnamelen : (utf8Encode (name ++ List.replicate (255 - (utf8Encode name).length) '|')).length
      = 255 := by
    rw [utf8Encode_append, utf8Encode_replicate_pipe, List.length_append, List.length_replicate]
    omega
  have hslice : slice packet'.payload Constants.nameIndex Constants.contentIndex =
      utf8Encode (name ++ List.replicate (255 - (utf8Encode name).length) '|') := by
    rw [hpayload, uploadHeader]
    exact slice_append (by simp) (by rw [hnamelen])
  have hcontent : packet'.payload.drop Constants.contentIndex = ciphertext E row.aesKey file := by
    rw [hpayload]
    refine List.drop_left' ?_
    simp only [uploadHeader, List.length_append, length_toLE, hnamelen]
  have hfile : file.length < 2 ^ 31 := by omega
  obtain ⟨crc, -, hserver, hfits⟩ := memcrc_agrees (Nat.le_refl 32) hfile
  have hfind : w.clients.find? (·.uuid = row.uuid) = some row := Table.find?_key hrow
  -- a plain file name in a plain directory is two levels below the backup path
  have hresolve : ((userDir env row.userName).join name).resolve =
      env.backupPath.path.resolve ++ [row.userName.dropLast, name] := by
    rw [PurePath.resolve_join_plain _ hplain, userDir, PurePath.resolve_join_plain _ huser,
      List.append_assoc]
    rfl
  obtain ⟨d', hwrite⟩ := Disk.write_of_mkdirs hmkdir hplain (hresolve ▸ hfree) file
  obtain ⟨response, w', hrun, hdisk, hresponse⟩ := run_handleEncryptedFile henv hfind hkeylen hE
    hslice hpipe hlen hcontent hserver hfits hmkdir hwrite
  refine ⟨response, _, w', hrun, ?_, hresponse, fun width hwidth => ?_⟩
  · rw [hdisk, ← hresolve, Disk.fileAt, (Disk.write_ok hwrite).2, Function.update_self]
  · obtain ⟨crc', hclient, hserver', hfits'⟩ := memcrc_agrees hwidth hfile
    have hsame : crc.toNat = crc'.toNat := Option.some.inj (hserver.symm.trans hserver')
    rw [crcPayload, hsame]
    exact checkSum_of_crc hlocal hclient hfits'

theorem swapBlock_inverts : Inverts 16 swapBlock swapBlock where
  length_enc b hb := by
    unfold swapBlock
    split
    · rfl
    · split
      · rfl
      · exact hb
  dec_enc b _ := by
    have hne : cipherBlock ≠ plainBlock := by decide
    by_cases hplain : b = plainBlock
    · simp [swapBlock, hplain, hne]
    · by_cases hcipher : b = cipherBlock
      · simp [swapBlock, hcipher, hne]
      · simp [swapBlock, hplain, hcipher]

/-- A client about to send the file `v1`, called `f`. -/
def sender : RequestHandler := ⟨[], ⟨List.replicate 32 0, rfl⟩, ⟨[0x66]⟩⟩

def senderDisk (path : Bytes) : Option Bytes := if path = [0x66] then some [0x76, 0x31] else none

/-- The row of that client, whose user name is `u`. -/
def senderRow : ClientRow := ⟨Uid.ofNat 1, ['u', '\x00'], [], [], List.replicate 32 0⟩

def receiverWorld : World := ⟨⟨[senderRow], by decide⟩, .empty, .bare, 0⟩

def emptyPacket : RequestPacket := ⟨Uid.ofNat 1, 0, 0, 0, []⟩

theorem sender_upload_lossless :
    ∃ rh' packet', sender.encryptFile (fun _ => swapBlock) senderDisk emptyPacket =
        .ok (true, rh', packet') ∧
      ∃ response pay w', Py.run (.calm Uid.ofNat)
          (handleEncryptedFile (.calm Uid.ofNat) toyCrypto (Uid.ofNat 1) 3 packet'.payload)
          receiverWorld = (.ok response, w') ∧
        w'.disk.fileAt [['b'], ['u'], ['f']] = some [0x76, 0x31] ∧
        initResponse 3 1603 pay.length pay = .ok response ∧
        ∀ width, 32 ≤ width → checkSum width ⟨[0x66]⟩ senderDisk pay = .ok (true, true) := by
  have hsucceeds : (match sender.encryptFile (fun _ => swapBlock) senderDisk emptyPacket with
      | .ok (b, _, _) => b
      | .error _ => false) = true := by decide +kernel
  rcases hencrypt : sender.encryptFile (fun _ => swapBlock) senderDisk emptyPacket with
    _ | ⟨b, rh', packet'⟩
  · rw [hencrypt] at hsucceeds
    cases hsucceeds
  · rw [hencrypt] at hsucceeds
    obtain rfl : b = true := hsucceeds
    have hname : filename sender.transferInfo.path = utf8Encode ['f'] := by decide +kernel
    have hrow : senderRow ∈ receiverWorld.clients := List.mem_singleton.mpr rfl
    have hmkdir : receiverWorld.disk.mkdirs (userDir (.calm Uid.ofNat) senderRow.userName) =
        (.ok (), (receiverWorld.disk.mkdirs (userDir (.calm Uid.ofNat) senderRow.userName)).2) :=
      Prod.ext (by decide +kernel) rfl
    have hfree : ¬ Disk.IsDir
        (receiverWorld.disk.mkdirs (userDir (.calm Uid.ofNat) senderRow.userName)).2
        [['b'], ['u'], ['f']] := by decide +kernel
    have hAES : ∀ key : Bytes, key.length = 32 →
        Inverts 16 ((fun _ => swapBlock : Bytes → Bytes → Bytes) key)
          (toyCrypto.aesDecryptBlock key) := fun _ _ => swapBlock_inverts
    have hlocal : senderDisk sender.transferInfo.path = some [0x76, 0x31] := rfl
    have hlossless := upload_lossless hAES hlocal hencrypt hname (by decide) (by decide)
      (by decide) hrow rfl (by decide) (Env.calm_reliable Uid.ofNat) hmkdir hfree 3
    exact ⟨rh', packet', rfl, hlossless⟩

end FileTransfer.EndToEnd
