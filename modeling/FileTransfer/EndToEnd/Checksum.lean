import FileTransfer.Client.Cksum
import FileTransfer.Server.Remainder

/-!
# One checksum on both sides

The client's words wrap and are masked, the server's integers are unbounded, and
each side has a table of its own. The registers take the same values all the
same, so both sides look up the same entries and end with the same 32 bits; and
what the remainder says about short bursts, both sides see.
-/

namespace FileTransfer.EndToEnd

open FileTransfer.Server

/-! ## Which entries are looked up -/

/-- The indices the server's first loop computes, from the register `s` on. -/
def byteIndices (s : Nat) : Bytes → List Nat
  | [] => []
  | c :: b => ((s >>> 24) ^^^ c.toNat) ::
      (crcStep s c.toNat).elim [] fun s' => byteIndices s' b

/-- Those of its second loop. -/
def lengthIndices (s n : Nat) : List Nat :=
  if _h : n = 0 then []
  else ((s >>> 24) ^^^ (n &&& 0o377)) ::
    (crcStep s (n &&& 0o377)).elim [] fun s' => lengthIndices s' (n >>> 8)
termination_by n
decreasing_by
  rw [Nat.shiftRight_eq_div_pow]
  exact Nat.div_lt_self (Nat.pos_of_ne_zero _h) (by decide)

/-- All indices of the server's `memcrc`, in order. -/
def serverIndices (b : Bytes) : List Nat :=
  byteIndices 0 b ++ (crcBytes 0 b).elim [] fun s => lengthIndices s b.length

section Width

variable (w : Nat)

/-- The indices the client's first loop computes: `tabidx` is an `unsigned int`. -/
def clientByteIndices (s : BitVec w) : Bytes → List Nat
  | [] => []
  | c :: b => (((s >>> 24) ^^^ BitVec.ofNat w c.toNat).setWidth 32).toNat ::
      (Client.crcByte w s c).elim [] fun s' => clientByteIndices s' b

/-- Those of its second loop, in an `unsigned long`. -/
def clientLengthIndices (s : BitVec w) (n : Nat) : List Nat :=
  if _h : n = 0 then []
  else ((s >>> 24) ^^^ BitVec.ofNat w (n &&& 0o377)).toNat ::
    (Client.crcUpdate w s ((s >>> 24) ^^^ BitVec.ofNat w (n &&& 0o377)).toNat).elim [] fun s' =>
      clientLengthIndices s' (n >>> 8)
termination_by n
decreasing_by
  rw [Nat.shiftRight_eq_div_pow]
  exact Nat.div_lt_self (Nat.pos_of_ne_zero _h) (by decide)

/-- All indices of the client's `memcrc`, in order. -/
def clientIndices (b : Bytes) : List Nat :=
  clientByteIndices w 0 b ++
    (b.foldlM (Client.crcByte w) 0).elim [] fun s => clientLengthIndices w s b.length

end Width

theorem byteIndices_lt (b : Bytes) {s : Nat} (hs : s < 2 ^ 32) :
    ∀ i ∈ byteIndices s b, i < 256 := by
  induction b generalizing s with
  | nil =>
    intro i hi
    cases hi
  | cons c b ih =>
    intro i hi
    obtain ⟨s', hstep, hs'⟩ := crcStep_some hs c.toNat_lt
    rw [byteIndices, hstep] at hi
    rcases List.mem_cons.mp hi with rfl | hi
    · exact tabidx_lt hs c.toNat_lt
    · exact ih hs' i hi

theorem lengthIndices_lt (n : Nat) {s : Nat} (hs : s < 2 ^ 32) :
    ∀ i ∈ lengthIndices s n, i < 256 := by
  induction n using Nat.strong_induction_on generalizing s with
  | _ n ih =>
    intro i hi
    rw [lengthIndices] at hi
    by_cases hn : n = 0
    · rw [dif_pos hn] at hi
      cases hi
    · have hlow : n &&& 0o377 < 256 := Nat.lt_of_le_of_lt Nat.and_le_right (by decide)
      have hshort : n >>> 8 < n := by
        rw [Nat.shiftRight_eq_div_pow]
        omega
      obtain ⟨s', hstep, hs'⟩ := crcStep_some hs hlow
      rw [dif_neg hn, hstep] at hi
      rcases List.mem_cons.mp hi with rfl | hi
      · exact tabidx_lt hs hlow
      · exact ih _ hshort hs' i hi

/-- The server never leaves its table. -/
theorem serverIndices_lt (b : Bytes) : ∀ i ∈ serverIndices b, i < 256 := by
  intro i hi
  obtain ⟨s, hbytes, hs⟩ := crcBytes_some b (show 0 < 2 ^ 32 by decide)
  rw [serverIndices, hbytes] at hi
  rcases List.mem_append.mp hi with hi | hi
  · exact byteIndices_lt b (by decide) i hi
  · exact lengthIndices_lt _ hs i hi

section Agreement

variable {w : Nat} (hw : 32 ≤ w)
include hw

theorem clientByteIndices_eq (b : Bytes) {s : BitVec w} (hs : s.toNat < 2 ^ 32) :
    clientByteIndices w s b = byteIndices s.toNat b := by
  induction b generalizing s with
  | nil => rfl
  | cons c b ih =>
    obtain ⟨s', hclient, hserver, hs'⟩ := Client.crcByte_agrees hw hs c
    have hidx := tabidx_lt hs c.toNat_lt
    have hhead : (((s >>> 24) ^^^ BitVec.ofNat w c.toNat).setWidth 32).toNat =
        (s.toNat >>> 24) ^^^ c.toNat := by
      rw [BitVec.toNat_setWidth, Client.toNat_tabidx hw c.toNat_lt, Nat.mod_eq_of_lt (by omega)]
    rw [clientByteIndices, byteIndices, hclient, hserver, hhead]
    exact congrArg _ (ih hs')

theorem clientLengthIndices_eq (n : Nat) {s : BitVec w} (hs : s.toNat < 2 ^ 32) :
    clientLengthIndices w s n = lengthIndices s.toNat n := by
  induction n using Nat.strong_induction_on generalizing s with
  | _ n ih =>
    rw [clientLengthIndices, lengthIndices]
    by_cases hn : n = 0
    · rw [dif_pos hn, dif_pos hn]
    · have hlow : n &&& 0o377 < 256 := Nat.lt_of_le_of_lt Nat.and_le_right (by decide)
      have hshort : n >>> 8 < n := by
        rw [Nat.shiftRight_eq_div_pow]
        omega
      obtain ⟨s', hclient, hserver, hs'⟩ := Client.crcUpdate_agrees hw hs hlow
      rw [dif_neg hn, dif_neg hn, Client.toNat_tabidx hw hlow, hclient, hserver]
      exact congrArg _ (ih _ hshort hs')

/-- **Both sides look up the same entries.** -/
theorem clientIndices_eq (b : Bytes) : clientIndices w b = serverIndices b := by
  have hzero : (0 : BitVec w).toNat = 0 := by simp
  have hstart : (0 : BitVec w).toNat < 2 ^ 32 := by
    rw [hzero]
    decide
  obtain ⟨s, hclient, hserver, hs⟩ := Client.crcBytes_agrees hw b hstart
  have hbytes := clientByteIndices_eq hw b hstart
  rw [hzero] at hserver hbytes
  rw [clientIndices, serverIndices, hclient, hserver, hbytes]
  exact congrArg _ (clientLengthIndices_eq hw _ hs)

end Agreement

/-! ## The buffer of the client -/

/-- The value of the `char` that holds the byte `c`, with a signed or an unsigned
`char`. -/
def charValue (signed : Bool) (c : UInt8) : Int :=
  if signed ∧ 128 ≤ c.toNat then (c.toNat : Int) - 256 else c.toNat

/-- `(unsigned char)` of a value. -/
def unsignedChar (v : Int) : UInt8 := UInt8.ofNat (v % 256).toNat

/-- The bytes as `memcrc` reads them out of a buffer of `char`. -/
def readChars (signed : Bool) (b : Bytes) : Bytes :=
  b.map fun c => unsignedChar (charValue signed c)

theorem unsignedChar_charValue (signed : Bool) (c : UInt8) :
    unsignedChar (charValue signed c) = c := by
  have hlt := c.toNat_lt
  have hresidue : (charValue signed c % 256).toNat = c.toNat := by
    rw [charValue]
    split <;> omega
  rw [unsignedChar, hresidue, UInt8.ofNat_toNat]

theorem readChars_eq (signed : Bool) (b : Bytes) : readChars signed b = b := by
  have hid : (fun c => unsignedChar (charValue signed c)) = id :=
    funext (unsignedChar_charValue signed)
  rw [readChars, hid, List.map_id]

/-- **The two checksums agree**, with words of 32 or 64 bits and with either kind of
`char`, and neither side leaves its table. -/
theorem checksums_agree {b : Bytes} (hb : b.length < 2 ^ 31) {w : Nat} (hw : w = 32 ∨ w = 64)
    (signed : Bool) :
    (∃ crc : BitVec w, Client.memcrc w (readChars signed b) = some crc ∧
      memcrc b = some crc.toNat ∧ crc.toNat < 2 ^ 32) ∧
    (∀ i ∈ clientIndices w (readChars signed b), i < 256) ∧ ∀ i ∈ serverIndices b, i < 256 := by
  have hwide : 32 ≤ w := by omega
  rw [readChars_eq, clientIndices_eq hwide]
  exact ⟨Client.memcrc_agrees hwide hb, serverIndices_lt b, serverIndices_lt b⟩

/-- The byte 200, which a signed `char` reads as -56. -/
theorem checksums_agree_byte :
    charValue true 200 = -56 ∧
    (∃ crc : BitVec 32, Client.memcrc 32 (readChars true [200]) = some crc ∧
      memcrc [200] = some crc.toNat ∧ crc.toNat < 2 ^ 32) ∧
    (∀ i ∈ clientIndices 32 (readChars true [200]), i < 256) ∧
      ∀ i ∈ serverIndices [200], i < 256 :=
  ⟨by decide, checksums_agree (by decide) (.inl rfl) true⟩

/-! ## Bursts -/

/-- Different contents of one length have different bits. -/
theorem messageBits_inj {a b : Bytes} (hlen : a.length = b.length)
    (h : messageBits a = messageBits b) : a = b := by
  induction a generalizing b with
  | nil => exact (List.length_eq_zero_iff.mp hlen.symm).symm
  | cons c a ih =>
    cases b with
    | nil => cases hlen
    | cons c' b =>
      have hsplit : ∀ (c : UInt8) (b : Bytes),
          messageBits (c :: b) = Gf2.bitsOf 8 c.toNat ++ messageBits b :=
        fun c b => List.flatMap_cons
      rw [hsplit, hsplit] at h
      obtain ⟨hhead, htail⟩ := List.append_inj h (by simp)
      have hpoly : Gf2.poly c.toNat = Gf2.poly c'.toNat := by
        rw [← Gf2.ofBits_bitsOf c.toNat_lt, ← Gf2.ofBits_bitsOf c'.toNat_lt, hhead]
      rw [UInt8.toNat_inj.mp (Gf2.poly_injective hpoly), ih (by simpa using hlen) htail]

open Polynomial in
/-- **A burst changes the remainder.** The length is the same, so the difference of
the two messages is the burst, moved up. -/
theorem remainder_ne_of_burst {a b : Bytes} (hlen : a.length = b.length) (hne : a ≠ b)
    {start : Nat} (hburst : ∀ i : Nat, (messageBits a)[i]? ≠ (messageBits b)[i]? →
      start ≤ i ∧ i < start + 32) : remainder a ≠ remainder b := by
  intro hsame
  have hbits : (messageBits a).length = (messageBits b).length := by simp [hlen]
  -- the difference, moved up by the length bytes and the 32 places of the register
  have hdvd : Gf2.poly generator ∣ (Gf2.ofBits (messageBits a) - Gf2.ofBits (messageBits b)) *
      X ^ (8 * (lengthBytes b.length).length + 32) := by
    have hzero : remainder a - remainder b = 0 := sub_eq_zero.mpr hsame
    rw [remainder, remainder, hlen, messageBits_append, messageBits_append, Gf2.ofBits_append,
      Gf2.ofBits_append, ← sub_modByMonic] at hzero
    have hmonic := (Gf2.monic_poly generator_bounds.1 generator_bounds.2).1
    have hmove : ∀ p q l : (ZMod 2)[X], ∀ m, (p * X ^ m + l) * X ^ 32 - (q * X ^ m + l) * X ^ 32 =
        (p - q) * X ^ (m + 32) := by
      intro p q l m
      ring
    rw [hmove, length_messageBits] at hzero
    exact (modByMonic_eq_zero_iff_dvd hmonic).mp hzero
  have hzero := Gf2.eq_zero_of_dvd_window generator_bounds.1 generator_bounds.2 generator_odd
    (k := 8 * a.length - (start + 32) + (8 * (lengthBytes b.length).length + 32)) ?_ hdvd
  · have hequal : Gf2.ofBits (messageBits a) = Gf2.ofBits (messageBits b) := by
      rcases mul_eq_zero.mp hzero with hzero | hzero
      · exact sub_eq_zero.mp hzero
      · exact absurd hzero (pow_ne_zero _ X_ne_zero)
    exact hne (messageBits_inj hlen (Gf2.ofBits_inj hbits hequal))
  · intro i hi
    rw [coeff_mul_X_pow'] at hi
    split at hi
    · next hle =>
      obtain ⟨hplace, hdiffer⟩ := Gf2.getElem?_ne_of_coeff_sub hbits hi
      have hwindow := hburst _ hdiffer
      rw [length_messageBits] at hplace hwindow
      omega
    · exact absurd rfl hi

/-- **Every short burst is detected**: two contents of one length whose differing
bits lie in 32 consecutive places have different checksums, on either side. -/
theorem burst_detected {a b : Bytes} (hlen : a.length = b.length) (hne : a ≠ b) {start : Nat}
    (hburst : ∀ i : Nat, (messageBits a)[i]? ≠ (messageBits b)[i]? →
      start ≤ i ∧ i < start + 32) :
    memcrc a ≠ memcrc b ∧
      ∀ w, 32 ≤ w → a.length < 2 ^ 31 → Client.memcrc w a ≠ Client.memcrc w b := by
  have hserver : memcrc a ≠ memcrc b := by
    intro hsame
    obtain ⟨r, hr, hra, hcrc⟩ := memcrc_register a
    obtain ⟨r', hr', hrb, hcrc'⟩ := memcrc_register b
    have hcomplement : 2 ^ 32 - 1 - r = 2 ^ 32 - 1 - r' :=
      Option.some.inj (hcrc.symm.trans (hsame.trans hcrc'))
    obtain rfl : r = r' := by omega
    exact remainder_ne_of_burst hlen hne hburst (hra.symm.trans hrb)
  refine ⟨hserver, fun w hw hshort hsame => hserver ?_⟩
  obtain ⟨crc, hclient, hcrc, -⟩ := Client.memcrc_agrees hw hshort
  obtain ⟨crc', hclient', hcrc', -⟩ := Client.memcrc_agrees hw (hlen ▸ hshort)
  obtain rfl : crc = crc' := Option.some.inj (hclient.symm.trans (hsame.trans hclient'))
  rw [hcrc, hcrc']

/-- Two bytes that differ across their boundary. -/
theorem burst_detected_bytes :
    memcrc [0x61, 0x62] ≠ memcrc [0x60, 0xe2] ∧
      ∀ w, 32 ≤ w → ([0x61, 0x62] : Bytes).length < 2 ^ 31 →
        Client.memcrc w [0x61, 0x62] ≠ Client.memcrc w [0x60, 0xe2] := by
  refine @burst_detected _ _ rfl (by decide) 0 fun i hi => ⟨Nat.zero_le i, ?_⟩
  by_contra hbig
  refine hi ?_
  rw [List.getElem?_eq_none (by simp; omega), List.getElem?_eq_none (by simp; omega)]

end FileTransfer.EndToEnd
