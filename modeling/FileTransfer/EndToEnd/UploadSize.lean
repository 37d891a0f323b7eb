import FileTransfer.EndToEnd.Upload

/-!
# The numbers of an upload

The size of a file goes through 64, 32 and 16 bits before it is in the payload of
828. First the packet count, whose rounding loop wraps around at the top of the
32-bit range; then the sizes of a packet that `encryptFile` accepts, where it is
the ciphertext that stops such a file.
-/

namespace FileTransfer.EndToEnd

open FileTransfer.Client FileTransfer.Server FileTransfer.BlockMode

/-! ## The packet count -/

/-- `totalEncryptedPacket` as a formula; both branches of the source round up. -/
theorem totalEncryptedPacket_eq (origSize : UInt32) :
    totalEncryptedPacket origSize =
      if 65535 < 16 * ((origSize.toNat + 15) / 16) % 2 ^ 32 / 16 then .error .exception
      else .ok (UInt16.ofNat (16 * ((origSize.toNat + 15) / 16) % 2 ^ 32 / 16)) := by
  have htmp : (if origSize.toNat % uidSize = 0 then origSize else roundUp origSize).toNat =
      16 * ((origSize.toNat + 15) / 16) % 2 ^ 32 := by
    have hlt := origSize.toNat_lt
    split
    · next hmod =>
      simp only [uidSize] at hmod
      omega
    · exact toNat_roundUp origSize
  simp only [totalEncryptedPacket, htmp, uidSize]

/-- The packet count of a size is exact or refused, and the loop ends at the least
multiple of 16 that is not below the size. -/
structure CountsExactly (origSize : UInt32) : Prop where
  exact : origSize.toNat ⌈/⌉ 16 ≤ 65535 →
    totalEncryptedPacket origSize = .ok (UInt16.ofNat (origSize.toNat ⌈/⌉ 16))
  refused : 65535 < origSize.toNat ⌈/⌉ 16 → totalEncryptedPacket origSize = .error .exception
  least : IsLeast {n : Nat | 16 ∣ n ∧ origSize.toNat ≤ n} (roundUp origSize).toNat

/-- The count of a size in the last block of the range comes out as zero. -/
theorem totalEncryptedPacket_wraps {origSize : UInt32} (h : 2 ^ 32 - 16 < origSize.toNat) :
    totalEncryptedPacket origSize = .ok 0 := by
  have hlt := origSize.toNat_lt
  have hwrap : 16 * ((origSize.toNat + 15) / 16) % 2 ^ 32 = 0 := by omega
  rw [totalEncryptedPacket_eq, hwrap]
  rfl

/-- **The packet count is exact below the last block** of the 32-bit range, and in
that block it is neither exact nor refused. -/
theorem countsExactly_iff (origSize : UInt32) :
    CountsExactly origSize ↔ origSize.toNat ≤ 2 ^ 32 - 16 := by
  have hceil : origSize.toNat ⌈/⌉ 16 = (origSize.toNat + 15) / 16 := rfl
  constructor
  · intro h
    -- a loop that wrapped around ends below the size
    have hle := h.least.1.2
    have hround := toNat_roundUp origSize
    have hlt := origSize.toNat_lt
    omega
  · intro h
    have hfits : 16 * ((origSize.toNat + 15) / 16) % 2 ^ 32 =
        16 * ((origSize.toNat + 15) / 16) := by omega
    have hcount : 16 * ((origSize.toNat + 15) / 16) / 16 = (origSize.toNat + 15) / 16 := by omega
    refine ⟨?_, ?_, ?_, ?_⟩
    · intro hsmall
      rw [hceil] at hsmall ⊢
      rw [totalEncryptedPacket_eq, hfits, hcount, if_neg (by omega)]
    · intro hlarge
      rw [hceil] at hlarge
      rw [totalEncryptedPacket_eq, hfits, hcount, if_pos hlarge]
    · have hround := toNat_roundUp origSize
      exact ⟨by omega, by omega⟩
    · intro n hn
      obtain ⟨hdvd, hle⟩ := hn
      have hround := toNat_roundUp origSize
      omega

/-- A file of `2 ^ 32 - 1` bytes has no packets. -/
theorem largest_not_counted :
    ¬ CountsExactly 4294967295 ∧ totalEncryptedPacket 4294967295 = .ok 0 := by
  have hlast : (2 : Nat) ^ 32 - 16 < (4294967295 : UInt32).toNat := by decide
  refine ⟨?_, totalEncryptedPacket_wraps hlast⟩
  intro h
  have hle := h.least.1.2
  have hround := toNat_roundUp 4294967295
  omega

/-! ## The writes -/

/-- The writes of `setEncryptionPayload` for the first packet, in its order. -/
def payloadWrites (rh : RequestHandler) (origSize : UInt32) (totalPackets : UInt16)
    (encryptedfile : Bytes) : List (Nat × Bytes) :=
  [(0, toLE 4 encryptedfile.length), (4, toLE 4 origSize.toNat), (8, toLE 2 1),
    (10, toLE 2 totalPackets.toNat), (12, rh.transferInfo.getFileName.take nameSize),
    (fixedEncryptionPayload, encryptedfile)]

theorem length_getFileName (ti : TransferInfo) : nameSize ≤ ti.getFileName.length := by
  simp only [TransferInfo.getFileName, nameSize, List.length_append, List.length_replicate]
  omega

/-- A sequence of writes is its first one and the rest on what that leaves. -/
theorem map_inBounds_blitAll_cons {α : Type} (buf : Bytes) (off : Nat) (data : Bytes)
    (rest : List (Nat × Bytes)) (f : Bytes → α) :
    (inBounds (blitAll buf ((off, data) :: rest))).map f =
      inBounds (blit buf off data) >>= fun out => (inBounds (blitAll out rest)).map f := by
  rw [blitAll]
  cases blit buf off data <;> rfl

/-- `setEncryptionPayload` is these writes, and nothing else goes into the payload. -/
theorem setEncryptionPayload_eq (rh : RequestHandler) (origSize : UInt32)
    (totalPackets : UInt16) (encryptedfile : Bytes) (packet : RequestPacket) :
    rh.setEncryptionPayload origSize 1 totalPackets encryptedfile packet =
      (inBounds (blitAll packet.payload
        (payloadWrites rh origSize totalPackets encryptedfile))).map fun payload =>
          ({ rh with filename := rh.transferInfo.getFileName },
            { packet with payload := payload }) := by
  have hname : peek rh.transferInfo.getFileName 0 nameSize =
      some (rh.transferInfo.getFileName.take nameSize) := by
    have hlength := length_getFileName rh.transferInfo
    rw [peek, if_pos (by omega), List.drop_zero]
  simp only [RequestHandler.setEncryptionPayload, hname, payloadWrites,
    map_inBounds_blitAll_cons]
  rfl

/-! ## The sizes -/

/-- Every number of 32 or 16 bits that is computed on the way of a file of `n` bytes,
with `c` bytes of ciphertext, is the number it stands for. -/
structure NothingWraps (n c : Nat) : Prop where
  origSize : (UInt32.ofNat n).toNat = n
  tmp : (roundUp (UInt32.ofNat n)).toNat = 16 * ((n + 15) / 16)
  totalpackets : (UInt16.ofNat ((n + 15) / 16)).toNat = (n + 15) / 16
  contentSize : (UInt32.ofNat c).toNat = c
  length : (UInt32.ofNat fixedEncryptionPayload + UInt32.ofNat c).toNat =
    fixedEncryptionPayload + c

theorem nothingWraps {n c : Nat} (hn : n ≤ 65535 * 16) (hc : c ≤ 65536 * 16) :
    NothingWraps n c := by
  have horig : (UInt32.ofNat n).toNat = n :=
    UInt32.toNat_ofNat_of_lt (show n < 2 ^ 32 by omega)
  have hsize : (UInt32.ofNat c).toNat = c :=
    UInt32.toNat_ofNat_of_lt (show c < 2 ^ 32 by omega)
  refine ⟨horig, ?_, ?_, hsize, ?_⟩
  · rw [toNat_roundUp, horig]
    omega
  · exact UInt16.toNat_ofNat_of_lt (show (n + 15) / 16 < 2 ^ 16 by omega)
  · rw [UInt32.toNat_add, hsize]
    show (267 + c) % 2 ^ 32 = 267 + c
    omega

/-- What holds of the packet of an upload of `file`, whose packet count and encrypted
data are given: the sizes, and that the writes fill the payload side by side. -/
structure UploadFits (rh : RequestHandler) (file : Bytes) (totalPackets : UInt16)
    (encryptedfile : Bytes) (packet : RequestPacket) : Prop where
  limit : file.length ≤ 65535 * 16
  payloadSize : packet.payloadSize.toNat = 267 + 16 * (file.length / 16 + 1)
  length : packet.payload.length = 267 + 16 * (file.length / 16 + 1)
  exact : NothingWraps file.length encryptedfile.length
  counted : totalPackets.toNat = (file.length + 15) / 16
  contentSize : fromLE (packet.payload.take 4) = encryptedfile.length
  written : blitAll (List.replicate packet.payload.length 0)
    (payloadWrites rh (UInt32.ofNat file.length) totalPackets encryptedfile) =
      some packet.payload
  inside : ∀ w ∈ payloadWrites rh (UInt32.ofNat file.length) totalPackets encryptedfile,
    w.1 + w.2.length ≤ packet.payload.length
  disjoint : (payloadWrites rh (UInt32.ofNat file.length) totalPackets encryptedfile).Pairwise
    fun v w => v.1 + v.2.length ≤ w.1

/-- Where each write ends. -/
theorem payloadWrites_spec (rh : RequestHandler) (origSize : UInt32) (totalPackets : UInt16)
    (encryptedfile : Bytes) :
    (∀ w ∈ payloadWrites rh origSize totalPackets encryptedfile,
      w.1 + w.2.length ≤ fixedEncryptionPayload + encryptedfile.length) ∧
    (payloadWrites rh origSize totalPackets encryptedfile).Pairwise
      fun v w => v.1 + v.2.length ≤ w.1 := by
  have hname : (rh.transferInfo.getFileName.take nameSize).length = nameSize :=
    List.length_take_of_le (length_getFileName rh.transferInfo)
  constructor
  · simp [payloadWrites, hname, nameSize, fixedEncryptionPayload]
    omega
  · simp [payloadWrites, hname, nameSize, fixedEncryptionPayload]

/-- In a buffer of the right length every write succeeds, and the first one is the size
of what the last one puts there. -/
theorem setEncryptionPayload_fills (rh : RequestHandler) (origSize : UInt32)
    (totalPackets : UInt16) {encryptedfile : Bytes} {packet : RequestPacket}
    (hroom : packet.payload = List.replicate (fixedEncryptionPayload + encryptedfile.length) 0)
    (hsize : encryptedfile.length < 2 ^ 32) :
    ∃ payload, rh.setEncryptionPayload origSize 1 totalPackets encryptedfile packet =
        .ok ({ rh with filename := rh.transferInfo.getFileName },
          { packet with payload := payload }) ∧
      payload.length = fixedEncryptionPayload + encryptedfile.length ∧
      fromLE (payload.take 4) = encryptedfile.length ∧
      blitAll (List.replicate payload.length 0)
        (payloadWrites rh origSize totalPackets encryptedfile) = some payload := by
  have hwrites :
      (blitAll packet.payload (payloadWrites rh origSize totalPackets encryptedfile)).isSome := by
    apply isSome_blitAll.mpr
    intro w hw
    rw [hroom, List.length_replicate]
    exact (payloadWrites_spec rh origSize totalPackets encryptedfile).1 w hw
  obtain ⟨payload, hpayload⟩ := Option.isSome_iff_exists.mp hwrites
  have hlength : payload.length = fixedEncryptionPayload + encryptedfile.length := by
    rw [length_blitAll hpayload, hroom, List.length_replicate]
  have hset := setEncryptionPayload_eq rh origSize totalPackets encryptedfile packet
  rw [hpayload] at hset
  refine ⟨payload, hset, hlength, ?_, ?_⟩
  · have hhead : payload = _ := (setEncryptionPayload_ok hset).2
    rw [hhead, uploadHeader]
    simp only [List.append_assoc]
    rw [List.take_left' (length_toLE 4 _)]
    exact fromLE_toLE hsize
  · rw [hlength, ← hroom]
    exact hpayload

section Block

variable {E D : Bytes → Bytes → Bytes} {rh : RequestHandler} {file : Bytes}
  (hE : Inverts 16 (E rh.eh.key) (D rh.eh.key))
include hE

/-- A file within the limit is accepted, and its sizes fit. -/
theorem encryptOpened_of_le (packet : RequestPacket) (hsmall : file.length ≤ 65535 * 16) :
    ∃ totalPackets encryptedfile packet', rh.encryptOpened E file packet =
        .ok ({ rh with filename := rh.transferInfo.getFileName }, packet') ∧
      getFileSizes file = .ok (totalPackets, UInt32.ofNat file.length) ∧
      rh.getEncryptedData E file (UInt32.ofNat file.length) = .ok encryptedfile ∧
      UploadFits rh file totalPackets encryptedfile packet' := by
  obtain ⟨enc, henc⟩ : ∃ enc, ciphertext E rh.eh.key file = enc := ⟨_, rfl⟩
  have hlength : enc.length = (file.length / 16 + 1) * 16 := henc ▸ length_ciphertext hE file
  have hexact : NothingWraps file.length enc.length := nothingWraps hsmall (by omega)
  have hsizes : getFileSizes file =
      .ok (UInt16.ofNat ((file.length + 15) / 16), UInt32.ofNat file.length) := by
    have hcount : 16 * ((file.length + 15) / 16) % 2 ^ 32 / 16 = (file.length + 15) / 16 := by
      omega
    have hread : ¬ 2 ^ 32 - 1 < file.length := by omega
    have hfits : ¬ 65535 < (file.length + 15) / 16 := by omega
    simp only [getFileSizes, totalEncryptedPacket_eq, hexact.origSize, hcount, if_neg hread,
      if_neg hfits]
    rfl
  have hdata : rh.getEncryptedData E file (UInt32.ofNat file.length) = .ok enc := by
    rw [getEncryptedData_eq rh hexact.origSize, henc, if_neg (by omega)]
  -- the buffer is as long as the sum of the sizes says
  have hroom : (initRequest packet .sendFile (UInt32.ofNat fixedEncryptionPayload +
      UInt32.ofNat enc.length)).payload =
        List.replicate (fixedEncryptionPayload + enc.length) 0 :=
    congrArg (List.replicate · 0) hexact.length
  obtain ⟨payload, hset, htotal, hsize, hwritten⟩ := setEncryptionPayload_fills rh
    (UInt32.ofNat file.length) (UInt16.ofNat ((file.length + 15) / 16)) hroom (by omega)
  obtain ⟨hinside, hdisjoint⟩ := payloadWrites_spec rh (UInt32.ofNat file.length)
    (UInt16.ofNat ((file.length + 15) / 16)) enc
  have hsum : fixedEncryptionPayload + enc.length = 267 + 16 * (file.length / 16 + 1) := by
    simp only [fixedEncryptionPayload]
    omega
  rw [← htotal] at hinside
  refine ⟨_, enc, { initRequest packet .sendFile (UInt32.ofNat fixedEncryptionPayload +
    UInt32.ofNat enc.length) with payload := payload }, ?_, hsizes, hdata, hsmall,
    hexact.length.trans hsum, htotal.trans hsum, hexact, hexact.totalpackets, hsize, hwritten,
    hinside, hdisjoint⟩
  exact bind_eq_ok.mpr ⟨_, hsizes, bind_eq_ok.mpr ⟨_, hdata, hset⟩⟩

/-- A larger file is refused: by its size, by its packet count or, where the count
wraps around, by the size of its ciphertext. -/
theorem encryptOpened_of_lt (packet : RequestPacket) (hlarge : 65535 * 16 < file.length) :
    rh.encryptOpened E file packet = .error .exception := by
  simp only [RequestHandler.encryptOpened, getFileSizes]
  by_cases hread : 2 ^ 32 - 1 < file.length
  · rw [if_pos hread]
    rfl
  have horig : (UInt32.ofNat file.length).toNat = file.length :=
    UInt32.toNat_ofNat_of_lt (show file.length < 2 ^ 32 by omega)
  rw [if_neg hread]
  by_cases hwrap : 2 ^ 32 - 16 < file.length
  · have hcount : totalEncryptedPacket (UInt32.ofNat file.length) = .ok 0 :=
      totalEncryptedPacket_wraps (by rw [horig]; exact hwrap)
    have hlength := length_ciphertext hE file
    have hdata : rh.getEncryptedData E file (UInt32.ofNat file.length) = .error .exception := by
      rw [getEncryptedData_eq rh horig, if_pos (by omega)]
    simp only [hcount]
    show (rh.getEncryptedData E file (UInt32.ofNat file.length) >>= fun enc => _) = _
    rw [hdata]
    rfl
  · have hcount : totalEncryptedPacket (UInt32.ofNat file.length) = .error .exception := by
      rw [totalEncryptedPacket_eq, horig, if_pos (by omega)]
    simp only [hcount]
    rfl

/-- **Upload sizes are safe.** Where `encryptFile` succeeds, the file has at most
65535 packets, no number on the way wraps around, and the writes fill the payload
without touching each other; a larger file is refused. -/
theorem upload_sizes {disk : Bytes → Option Bytes} {packet : RequestPacket}
    (hfile : disk rh.transferInfo.path = some file) :
    (∀ rh' packet', rh.encryptFile E disk packet = .ok (true, rh', packet') →
      ∃ totalPackets encryptedfile,
        getFileSizes file = .ok (totalPackets, UInt32.ofNat file.length) ∧
        rh.getEncryptedData E file (UInt32.ofNat file.length) = .ok encryptedfile ∧
        UploadFits rh file totalPackets encryptedfile packet') ∧
    (65535 * 16 < file.length → rh.encryptFile E disk packet = .ok (false, rh, packet)) := by
  constructor
  · intro rh' packet' h
    simp only [RequestHandler.encryptFile, hfile] at h
    by_cases hsmall : file.length ≤ 65535 * 16
    · obtain ⟨packs, enc, packet₁, hopened, hsizes, hdata, hfits⟩ :=
        encryptOpened_of_le hE packet hsmall
      rw [hopened] at h
      cases h
      exact ⟨packs, enc, hsizes, hdata, hfits⟩
    · rw [encryptOpened_of_lt hE packet (by omega)] at h
      cases h
  · intro hlarge
    simp only [RequestHandler.encryptFile, hfile, encryptOpened_of_lt hE packet hlarge]

end Block

/-- Two bytes make one packet, a block of ciphertext and a payload of 283 bytes. -/
theorem sender_upload_sizes :
    ∃ rh' packet', sender.encryptFile (fun _ => swapBlock) senderDisk emptyPacket =
        .ok (true, rh', packet') ∧
      packet'.payloadSize.toNat = 283 ∧ packet'.payload.length = 283 ∧
      fromLE (packet'.payload.take 4) = 16 := by
  have hlocal : senderDisk sender.transferInfo.path = some [0x76, 0x31] := rfl
  obtain ⟨packs, enc, packet', hopened, -⟩ :=
    @encryptOpened_of_le (fun _ => swapBlock) (fun _ => swapBlock) sender [0x76, 0x31]
      swapBlock_inverts emptyPacket (by decide)
  have hencrypt : sender.encryptFile (fun _ => swapBlock) senderDisk emptyPacket =
      .ok (true, { sender with filename := sender.transferInfo.getFileName }, packet') := by
    simp only [RequestHandler.encryptFile, hlocal, hopened]
  obtain ⟨packs', enc', -, hdata, hfits⟩ :=
    (@upload_sizes (fun _ => swapBlock) (fun _ => swapBlock) sender _ swapBlock_inverts _
      emptyPacket hlocal).1 _ _ hencrypt
  have henc := (getEncryptedData_ok hdata rfl).1
  have hone := @length_ciphertext (fun _ => swapBlock) (fun _ => swapBlock) sender.eh.key
    swapBlock_inverts [0x76, 0x31]
  refine ⟨_, packet', hencrypt, hfits.payloadSize, hfits.length, ?_⟩
  rw [hfits.contentSize, henc, hone]
  rfl

end FileTransfer.EndToEnd
