import FileTransfer.Client.ResponseHandler

/-!
# The verdict on a checksum

`readfile` answers `-1` for a file that is not there, in the type of a checksum. With
32 bits that is the checksum of the empty file, so a server that saved an empty file sends
what a missing file compares equal to.
-/

namespace FileTransfer.Client

/-- What the last four bytes of the payload say. -/
def crcServer (payload : Bytes) : BitVec 32 :=
  BitVec.ofNat 32 (fromLE (payload.drop (payload.length - 4)))

/-- The local file is there, and its checksum is the one in the payload. -/
def Matches (ti : TransferInfo) (disk : Bytes → Option Bytes) (payload : Bytes) : Prop :=
  ∃ content, disk ti.path = some content ∧ memcrc 32 content = some (crcServer payload)

/-- `checkSum` returns, and leaves `true` in the flag exactly if the file matches. -/
def SoundVerdict (ti : TransferInfo) (disk : Bytes → Option Bytes) (payload : Bytes) : Prop :=
  ∃ crcValid, checkSum 32 ti disk payload = .ok (true, crcValid) ∧
    (crcValid = true ↔ Matches ti disk payload)

variable {ti : TransferInfo} {disk : Bytes → Option Bytes} {payload : Bytes}

/-- Four bytes say `-1` if all of them are `0xff`, and only then. -/
theorem allOnes_eq_iff {crc : Bytes} (h : crc.length = 4) :
    BitVec.allOnes 32 = BitVec.ofNat 32 (fromLE crc) ↔ crc = [0xff, 0xff, 0xff, 0xff] := by
  constructor
  · intro hones
    have hlt : fromLE crc < 2 ^ 32 := by
      have hbound := fromLE_lt crc
      rw [h] at hbound
      exact hbound
    have hvalue : fromLE crc = 2 ^ 32 - 1 := by
      have hnat := congrArg BitVec.toNat hones
      rw [BitVec.toNat_allOnes, BitVec.toNat_ofNat, Nat.mod_eq_of_lt hlt] at hnat
      exact hnat.symm
    have hbytes := toLE_fromLE crc
    rw [h, hvalue] at hbytes
    rw [← hbytes]
    decide
  · intro hones
    rw [hones]
    decide

/-- `checkSum` compares whatever `readfile` gives with the end of the payload. -/
theorem checkSum_of_readfile (hpayload : 4 ≤ payload.length) {crcClient : BitVec 32}
    (h : readfile 32 (disk ti.path) = some crcClient) :
    checkSum 32 ti disk payload = .ok (true, crcClient == crcServer payload) := by
  simp only [checkSum, h, crcOfPayload, if_pos hpayload, inBounds_some]
  rfl

/-- **The verdict is sound and complete** as long as the file is there, of a size that the
counter of `memcrc` holds, and for a missing file unless the payload ends in four bytes
`0xff`. -/
theorem soundVerdict_iff (ti : TransferInfo) (disk : Bytes → Option Bytes)
    (hpayload : 4 ≤ payload.length) :
    SoundVerdict ti disk payload ↔
      (∃ content, disk ti.path = some content ∧ content.length < 2 ^ 31) ∨
        disk ti.path = none ∧
          payload.drop (payload.length - 4) ≠ [0xff, 0xff, 0xff, 0xff] := by
  cases hfile : disk ti.path with
  | none =>
    have hcrc : (payload.drop (payload.length - 4)).length = 4 := by
      rw [List.length_drop]
      omega
    have hsum : checkSum 32 ti disk payload =
        .ok (true, BitVec.allOnes 32 == crcServer payload) :=
      checkSum_of_readfile hpayload (by rw [hfile]; rfl)
    have hmissing : ¬ Matches ti disk payload := by
      intro h
      obtain ⟨content, hcontent, -⟩ := h
      rw [hfile] at hcontent
      cases hcontent
    constructor
    · intro h
      obtain ⟨crcValid, hvalid, hiff⟩ := h
      refine Or.inr ⟨rfl, fun hones => hmissing (hiff.mp ?_)⟩
      rw [hsum] at hvalid
      cases hvalid
      exact beq_iff_eq.mpr ((allOnes_eq_iff hcrc).mpr hones)
    · intro h
      rcases h with ⟨content, hcontent, -⟩ | ⟨-, hones⟩
      · cases hcontent
      · refine ⟨_, hsum, fun hvalid => ?_, fun hmatches => absurd hmatches hmissing⟩
        exact absurd ((allOnes_eq_iff hcrc).mp (beq_iff_eq.mp hvalid)) hones
  | some content =>
    by_cases hsize : content.length < 2 ^ 31
    · obtain ⟨crcClient, hclient, -⟩ := memcrc_agrees (Nat.le_refl 32) hsize
      have hsum : checkSum 32 ti disk payload = .ok (true, crcClient == crcServer payload) :=
        checkSum_of_readfile hpayload (by rw [hfile]; exact hclient)
      have hmatches : Matches ti disk payload ↔ crcClient = crcServer payload := by
        simp only [Matches, hfile, Option.some.injEq, exists_eq_left', hclient]
      refine ⟨fun _ => Or.inl ⟨content, rfl, hsize⟩, fun _ => ⟨_, hsum, ?_⟩⟩
      rw [beq_iff_eq]
      exact hmatches.symm
    · -- the counter overflows, and there is no verdict
      have hnone : memcrc 32 content = none := if_neg hsize
      constructor
      · intro h
        obtain ⟨crcValid, hvalid, -⟩ := h
        simp only [checkSum, hfile, readfile, hnone] at hvalid
        cases hvalid
      · intro h
        rcases h with ⟨content', hcontent, hsmall⟩ | ⟨hmissing, -⟩
        · cases hcontent
          exact absurd hsmall hsize
        · cases hmissing

/-- The file is gone, and the checksum of an empty one is not there. -/
theorem missing_file_mismatch :
    SoundVerdict ⟨[0x66]⟩ (fun _ => none) [0, 0, 0, 0] :=
  (soundVerdict_iff ⟨[0x66]⟩ (fun _ => none) (by decide)).mpr (Or.inr ⟨rfl, by decide⟩)

/-- It is, as a server sends it that saved an empty file: the missing file is valid. -/
theorem missing_file_valid :
    memcrc 32 [] = some (crcServer [0xff, 0xff, 0xff, 0xff]) ∧
      checkSum 32 ⟨[0x66]⟩ (fun _ => none) [0xff, 0xff, 0xff, 0xff] = .ok (true, true) ∧
      ¬ SoundVerdict ⟨[0x66]⟩ (fun _ => none) [0xff, 0xff, 0xff, 0xff] := by
  have hsum : checkSum 32 ⟨[0x66]⟩ (fun _ => none) [0xff, 0xff, 0xff, 0xff] =
      .ok (true, true) := by decide
  refine ⟨by decide +kernel, hsum, ?_⟩
  intro h
  obtain ⟨crcValid, hvalid, hiff⟩ := h
  rw [hsum] at hvalid
  cases hvalid
  obtain ⟨content, hcontent, -⟩ := hiff.mp rfl
  cases hcontent

end FileTransfer.Client
