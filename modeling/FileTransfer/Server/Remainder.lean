import FileTransfer.Lib.Gf2
import FileTransfer.Server.Cksum

/-!
# The checksum is a remainder

The bits of a message, read as a polynomial over GF(2), are divided by the
generator of `cksum`. The register of `memcrc` holds the remainder of what was
read so far; one byte moves it up by eight places, and the table says what the
eight bits that leave it are worth.
-/

namespace FileTransfer.Server

open Polynomial
open FileTransfer.Gf2

/-! ## What POSIX defines -/

/-- The generator: `X ^ 32`, and the coefficients the man page gives. -/
def generator : Nat := 0x104C11DB7

/-- A length in as few bytes as it needs, low byte first. -/
def lengthBytes (n : Nat) : Bytes := (Nat.digits 256 n).map UInt8.ofNat

/-- The bits of a message, the most significant bit of each byte first. -/
def messageBits (b : Bytes) : List Bool := b.flatMap fun c => bitsOf 8 c.toNat

/-- The remainder of a message that is followed by its length. -/
noncomputable def remainder (b : Bytes) : (ZMod 2)[X] :=
  (ofBits (messageBits (b ++ lengthBytes b.length)) * X ^ 32) %ₘ poly generator

theorem generator_bounds : 2 ^ 32 ≤ generator ∧ generator < 2 ^ 33 := by decide

theorem generator_odd : generator.testBit 0 = true := by decide +kernel

@[simp] theorem length_messageBits (b : Bytes) : (messageBits b).length = 8 * b.length := by
  induction b with
  | nil => rfl
  | cons c b ih =>
    rw [messageBits, List.flatMap_cons, List.length_append, length_bitsOf, List.length_cons]
    rw [messageBits] at ih
    omega

theorem messageBits_append (a b : Bytes) :
    messageBits (a ++ b) = messageBits a ++ messageBits b :=
  List.flatMap_append

/-- The second loop takes in the bytes of the length. -/
theorem crcLength_eq (s n : Nat) : crcLength s n = crcBytes s (lengthBytes n) := by
  induction n using Nat.strong_induction_on generalizing s with
  | _ n ih =>
    rw [crcLength]
    by_cases hn : n = 0
    · subst hn
      rw [dif_pos rfl, lengthBytes, Nat.digits_zero]
      rfl
    · have hlow : n &&& 0o377 = n % 256 := Nat.and_two_pow_sub_one_eq_mod n 8
      have hrest : n >>> 8 = n / 256 := Nat.shiftRight_eq_div_pow n 8
      have hdigits : lengthBytes n = UInt8.ofNat (n % 256) :: lengthBytes (n / 256) := by
        rw [lengthBytes, Nat.digits_def' (by decide) (Nat.pos_of_ne_zero hn), List.map_cons,
          lengthBytes]
      have hbyte : (UInt8.ofNat (n % 256)).toNat = n % 256 := by simp
      rw [dif_neg hn, hlow, hrest, hdigits, crcBytes, List.foldlM_cons, hbyte]
      cases crcStep s (n % 256) with
      | none => rfl
      | some s' => exact ih _ (Nat.div_lt_self (Nat.pos_of_ne_zero hn) (by decide)) s'

/-! ## The table -/

/-- An entry of the table is what eight steps of the division leave of its index. -/
theorem crctab_eq : ∀ i < 256, crctab[i]? = some ((divStep 32 generator)^[8] (i <<< 24)) := by
  decide +kernel

/-- **The table**: the entry at `i` is the remainder of `i` moved up 32 places. -/
theorem poly_crctab {i entry : Nat} (hi : i < 256) (h : crctab[i]? = some entry) :
    poly entry = (poly i * X ^ 32) %ₘ poly generator := by
  obtain rfl := Option.some.inj ((crctab_eq i hi).symm.trans h)
  have hhigh : i <<< 24 < 2 ^ 32 := by
    rw [Nat.shiftLeft_eq]
    omega
  obtain ⟨-, hsteps⟩ := poly_divStep_iterate (by decide) generator_bounds.1 generator_bounds.2
    hhigh 8
  rw [hsteps, poly_shiftLeft, mul_assoc, ← pow_add]

/-! ## The register -/

/-- Moving the register up by a byte: what stays, and what leaves at the top. -/
theorem poly_unsigned_shiftLeft (s : Nat) :
    poly (unsigned ((s <<< 8 : Nat) : Int)) + poly (s >>> 24) * X ^ 32 = poly s * X ^ 8 := by
  ext i
  rw [unsigned_natCast, coeff_add, coeff_mul_X_pow', coeff_mul_X_pow', coeff_poly, coeff_poly,
    coeff_poly, Nat.testBit_mod_two_pow, Nat.testBit_shiftLeft, Nat.testBit_shiftRight]
  by_cases hi : i < 32
  · by_cases hlow : 8 ≤ i
    · simp [hi, hlow]
    · simp [hi, hlow]
  · have hplace : 24 + (i - 32) = i - 8 := by omega
    have hhigh : 32 ≤ i ∧ 8 ≤ i := by omega
    simp [hi, hhigh.1, hhigh.2, hplace]

/-- **One byte**: the register is moved up by eight places, the byte comes in above
it, and the generator is divided out. -/
theorem dvd_crcStep {s s' c : Nat} (hs : s < 2 ^ 32) (hc : c < 256)
    (h : crcStep s c = some s') :
    poly generator ∣ poly s' - (poly s * X ^ 8 + poly c * X ^ 32) := by
  rw [crcStep] at h
  obtain ⟨entry, hentry, rfl⟩ := Option.map_eq_some_iff.mp h
  have hdvd : poly generator ∣ poly entry - poly ((s >>> 24) ^^^ c) * X ^ 32 :=
    dvd_sub_of_eq_modByMonic (poly_crctab (tabidx_lt hs hc) hentry)
  have hsame : poly (unsigned ((s <<< 8 : Nat) : Int) ^^^ entry) -
      (poly s * X ^ 8 + poly c * X ^ 32) =
        poly entry - poly ((s >>> 24) ^^^ c) * X ^ 32 := by
    rw [← poly_unsigned_shiftLeft, poly_xor, poly_xor]
    ring
  exact hsame ▸ hdvd

/-- **The first loop**, from any register: each byte of the message takes the place
below the bytes before it. -/
theorem dvd_crcBytes {b : Bytes} {s s' : Nat} (hs : s < 2 ^ 32) (h : crcBytes s b = some s') :
    poly generator ∣
      poly s' - (poly s * X ^ (8 * b.length) + ofBits (messageBits b) * X ^ 32) := by
  induction b generalizing s with
  | nil =>
    obtain rfl : s = s' := Option.some.inj h
    simp [messageBits, ofBits]
  | cons c b ih =>
    rw [crcBytes, List.foldlM_cons] at h
    obtain ⟨s₁, hstep, hrest⟩ := Option.bind_eq_some_iff.mp h
    obtain ⟨s₁', hstep', hs₁⟩ := crcStep_some hs c.toNat_lt
    obtain rfl : s₁ = s₁' := Option.some.inj (hstep.symm.trans hstep')
    have hbits : ofBits (messageBits (c :: b)) =
        poly c.toNat * X ^ (8 * b.length) + ofBits (messageBits b) := by
      have hsplit : messageBits (c :: b) = bitsOf 8 c.toNat ++ messageBits b := List.flatMap_cons
      rw [hsplit, ofBits_append, ofBits_bitsOf c.toNat_lt, length_messageBits]
    -- what the byte leaves behind is moved up by the rest of the message
    have hsame : poly s' - (poly s * X ^ (8 * (c :: b).length) +
        ofBits (messageBits (c :: b)) * X ^ 32) =
        (poly s' - (poly s₁ * X ^ (8 * b.length) + ofBits (messageBits b) * X ^ 32)) +
          (poly s₁ - (poly s * X ^ 8 + poly c.toNat * X ^ 32)) * X ^ (8 * b.length) := by
      have hlength : 8 * (c :: b).length = 8 + 8 * b.length := by
        rw [List.length_cons]
        omega
      rw [hbits, hlength, pow_add]
      ring
    rw [hsame]
    exact dvd_add (ih hs₁ hrest) (Dvd.dvd.mul_right (dvd_crcStep hs c.toNat_lt hstep) _)

/-! ## The checksum -/

/-- Complementing a register of 32 bits. -/
theorem unsigned_not {s : Nat} (hs : s < 2 ^ 32) : unsigned (~~~(s : Int)) = 2 ^ 32 - 1 - s := by
  have hneg : ~~~(s : Int) = -((s : Int) + 1) := Int.negSucc_eq s
  rw [unsigned, hneg]
  omega

/-- The register after the content and its length holds the remainder, and `memcrc` is its
complement. -/
theorem memcrc_register (b : Bytes) :
    ∃ s, s < 2 ^ 32 ∧ poly s = remainder b ∧ memcrc b = some (2 ^ 32 - 1 - s) := by
  obtain ⟨s, hs, hlt⟩ := crcBytes_some (b ++ lengthBytes b.length) (show 0 < 2 ^ 32 by decide)
  refine ⟨s, hlt, ?_, ?_⟩
  · have hdvd := dvd_crcBytes (by decide) hs
    rw [poly_zero, zero_mul, zero_add] at hdvd
    exact poly_eq_modByMonic generator_bounds.1 generator_bounds.2 hlt hdvd
  · have hloops : ((crcBytes 0 b).bind fun s => crcLength s b.length) = some s := by
      rw [crcBytes, List.foldlM_append] at hs
      simp only [crcLength_eq]
      exact hs
    rw [memcrc, hloops, Option.map_some, unsigned_not hlt]

/-- **`memcrc` is the checksum of POSIX**: for every content it is the complement of
the remainder of the content followed by its length. -/
theorem memcrc_eq_remainder (b : Bytes) :
    ∃ r < 2 ^ 32, poly r = remainder b ∧ memcrc b = some (2 ^ 32 - 1 - r) := by
  obtain ⟨s, hlt, hpoly, hcrc⟩ := memcrc_register b
  exact ⟨s, hlt, hpoly, hcrc⟩

end FileTransfer.Server
