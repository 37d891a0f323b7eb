import FileTransfer.Lib.Bytes

/-!
# CBC mode with PKCS#7 padding

Cipher block chaining over an arbitrary block cipher on blocks of `n` bytes,
the padding that fills the last block, and a streaming encryptor that takes
its input in pieces. The results: decryption inverts encryption, unpadding
inverts padding, and the pieces do not matter.
-/

namespace FileTransfer.BlockMode

/-! ## Blocks -/

/-- Cut into blocks of `n` bytes, the last one possibly shorter. -/
def blocks (n : Nat) (m : Bytes) : List Bytes :=
  if _h : 0 < n ∧ 0 < m.length then m.take n :: blocks n (m.drop n) else []
termination_by m.length
decreasing_by simp only [List.length_drop]; omega

theorem blocks_nil (n : Nat) : blocks n [] = [] := by
  rw [blocks]
  simp

theorem blocks_append {n : Nat} {b m : Bytes} (hn : 0 < n) (hb : b.length = n) :
    blocks n (b ++ m) = b :: blocks n m := by
  have hpos : 0 < n ∧ 0 < (b ++ m).length := by
    rw [List.length_append]
    omega
  rw [blocks, dif_pos hpos, ← hb, List.take_left, List.drop_left]

/-- Blocks of full size are found again in their concatenation. -/
theorem blocks_flatten_append {n : Nat} {bs : List Bytes} (hn : 0 < n)
    (h : ∀ b ∈ bs, b.length = n) (m : Bytes) :
    blocks n (bs.flatten ++ m) = bs ++ blocks n m := by
  induction bs with
  | nil => rfl
  | cons b bs ih =>
    rw [List.flatten_cons, List.append_assoc, blocks_append hn (h b (by simp)),
      ih fun c hc => h c (by simp [hc])]
    rfl

theorem length_flatten_blocks {n : Nat} {bs : List Bytes} (h : ∀ b ∈ bs, b.length = n) :
    bs.flatten.length = bs.length * n := by
  rw [List.length_flatten, List.map_congr_left h, List.map_const', List.sum_replicate,
    smul_eq_mul]

/-- A message of whole blocks is the concatenation of full blocks. -/
theorem exists_blocks {n k : Nat} {m : Bytes} (hn : 0 < n) (h : m.length = k * n) :
    (∀ b ∈ blocks n m, b.length = n) ∧ (blocks n m).flatten = m := by
  induction k generalizing m with
  | zero =>
    obtain rfl : m = [] := List.length_eq_zero_iff.mp (by omega)
    simp [blocks_nil]
  | succ k ih =>
    have hlen : (k + 1) * n = k * n + n := Nat.succ_mul k n
    have htake : (m.take n).length = n := by
      rw [List.length_take]
      omega
    have hsplit : blocks n m = m.take n :: blocks n (m.drop n) := by
      conv => lhs; rw [← List.take_append_drop n m]
      exact blocks_append hn htake
    obtain ⟨hall, hflat⟩ := ih (m := m.drop n) (by rw [List.length_drop]; omega)
    rw [hsplit]
    refine ⟨fun b hb => ?_, ?_⟩
    · rcases List.mem_cons.mp hb with rfl | hb
      · exact htake
      · exact hall b hb
    · rw [List.flatten_cons, hflat, List.take_append_drop]

/-! ## Chaining -/

/-- Bytewise exclusive or. -/
def xorBytes (a b : Bytes) : Bytes := List.zipWith (· ^^^ ·) a b

theorem length_xorBytes {a b : Bytes} {n : Nat} (ha : a.length = n) (hb : b.length = n) :
    (xorBytes a b).length = n := by
  simp [xorBytes, ha, hb]

theorem xorBytes_cancel {a b : Bytes} (h : a.length = b.length) :
    xorBytes (xorBytes a b) b = a := by
  induction a generalizing b with
  | nil => rfl
  | cons x a ih =>
    cases b with
    | nil => cases h
    | cons y b =>
      have hx : x ^^^ y ^^^ y = x := by rw [UInt8.xor_assoc, UInt8.xor_self, UInt8.xor_zero]
      have htail := ih (b := b) (Nat.succ.inj h)
      simp only [xorBytes, List.zipWith_cons_cons] at htail ⊢
      rw [hx, htail]

/-- CBC encryption from the chaining value `iv`. -/
def cbcEncrypt (E : Bytes → Bytes) : Bytes → List Bytes → List Bytes
  | _, [] => []
  | iv, m :: ms => E (xorBytes m iv) :: cbcEncrypt E (E (xorBytes m iv)) ms

/-- CBC decryption from the chaining value `iv`. -/
def cbcDecrypt (D : Bytes → Bytes) : Bytes → List Bytes → List Bytes
  | _, [] => []
  | iv, c :: cs => xorBytes (D c) iv :: cbcDecrypt D c cs

/-- The chaining value after encrypting `ms`. -/
def chain (E : Bytes → Bytes) (iv : Bytes) (ms : List Bytes) : Bytes :=
  ms.foldl (fun iv m => E (xorBytes m iv)) iv

theorem cbcEncrypt_append (E : Bytes → Bytes) (iv : Bytes) (ms ns : List Bytes) :
    cbcEncrypt E iv (ms ++ ns) = cbcEncrypt E iv ms ++ cbcEncrypt E (chain E iv ms) ns := by
  induction ms generalizing iv with
  | nil => rfl
  | cons m ms ih => exact congrArg (E (xorBytes m iv) :: ·) (ih _)

/-- A pair of maps that is a block cipher on blocks of `n` bytes: encryption
keeps the size and decryption undoes it. -/
structure Inverts (n : Nat) (E D : Bytes → Bytes) : Prop where
  length_enc : ∀ b, b.length = n → (E b).length = n
  dec_enc : ∀ b, b.length = n → D (E b) = b

section Inverts

variable {n : Nat} {E D : Bytes → Bytes} (hE : Inverts n E D)
include hE

theorem length_of_mem_cbcEncrypt {iv : Bytes} {ms : List Bytes} (hiv : iv.length = n)
    (hms : ∀ m ∈ ms, m.length = n) : ∀ c ∈ cbcEncrypt E iv ms, c.length = n := by
  induction ms generalizing iv with
  | nil => intro c hc; cases hc
  | cons m ms ih =>
    intro c hc
    have henc : (E (xorBytes m iv)).length = n :=
      hE.length_enc _ (length_xorBytes (hms m (by simp)) hiv)
    rcases List.mem_cons.mp hc with rfl | hc
    · exact henc
    · exact ih henc (fun k hk => hms k (by simp [hk])) c hc

/-- Decryption inverts encryption, block by block. -/
theorem cbcDecrypt_cbcEncrypt {iv : Bytes} {ms : List Bytes} (hiv : iv.length = n)
    (hms : ∀ m ∈ ms, m.length = n) : cbcDecrypt D iv (cbcEncrypt E iv ms) = ms := by
  induction ms generalizing iv with
  | nil => rfl
  | cons m ms ih =>
    have hm : m.length = n := hms m (by simp)
    have hx : (xorBytes m iv).length = n := length_xorBytes hm hiv
    rw [cbcEncrypt, cbcDecrypt, hE.dec_enc _ hx, xorBytes_cancel (hm.trans hiv.symm),
      ih (hE.length_enc _ hx) fun k hk => hms k (by simp [hk])]

end Inverts

/-! ## Padding -/

/-- PKCS#7: `k` bytes of value `k`, where `k` fills up the last block. -/
def padding (n len : Nat) : Bytes :=
  List.replicate (n - len % n) (UInt8.ofNat (n - len % n))

def pad (n : Nat) (m : Bytes) : Bytes := m ++ padding n m.length

/-- Strip PKCS#7 padding; `none` when there is no valid padding to strip. -/
def unpad (n : Nat) (m : Bytes) : Option Bytes :=
  if m.length = 0 ∨ m.length % n ≠ 0 then none
  else
    let k := (m.getLastD 0).toNat
    if k < 1 ∨ min n m.length < k then none
    else if m.drop (m.length - k) ≠ List.replicate k (UInt8.ofNat k) then none
    else some (m.take (m.length - k))

theorem length_pad {n : Nat} (hn : 0 < n) (m : Bytes) :
    (pad n m).length = (m.length / n + 1) * n := by
  have hlt := Nat.mod_lt m.length hn
  have hdiv := Nat.div_add_mod m.length n
  rw [pad, padding, List.length_append, List.length_replicate, Nat.succ_mul,
    Nat.mul_comm (m.length / n) n]
  omega

/-- Unpadding inverts padding, for block sizes a byte can count. -/
theorem unpad_pad {n : Nat} (hn : 0 < n) (hn' : n < 256) (m : Bytes) :
    unpad n (pad n m) = some m := by
  have hlt := Nat.mod_lt m.length hn
  obtain ⟨k, hk⟩ : ∃ k, n - m.length % n = k + 1 := ⟨n - m.length % n - 1, by omega⟩
  have hpad : pad n m = m ++ List.replicate (k + 1) (UInt8.ofNat (k + 1)) := by
    rw [pad, padding, hk]
  have hlen : (pad n m).length = m.length + (k + 1) := by
    rw [hpad, List.length_append, List.length_replicate]
  have hmod : (pad n m).length % n = 0 := by rw [length_pad hn, Nat.mul_mod_left]
  -- the last byte of the padding is its length
  have hlast : ((pad n m).getLastD 0).toNat = k + 1 := by
    rw [hpad, List.replicate_succ', ← List.append_assoc, List.getLastD_concat]
    exact UInt8.toNat_ofNat_of_lt (show k + 1 < 256 by omega)
  have hdrop : (pad n m).drop ((pad n m).length - (k + 1)) =
      List.replicate (k + 1) (UInt8.ofNat (k + 1)) := by
    rw [hlen, Nat.add_sub_cancel, hpad, List.drop_left]
  have htake : (pad n m).take ((pad n m).length - (k + 1)) = m := by
    rw [hlen, Nat.add_sub_cancel, hpad, List.take_left]
  have hne : ¬ ((pad n m).length = 0 ∨ (pad n m).length % n ≠ 0) := by omega
  have hrange : ¬ (k + 1 < 1 ∨ min n (pad n m).length < k + 1) := by omega
  simp only [unpad, if_neg hne, hlast, if_neg hrange, hdrop, htake, ne_eq, not_true_eq_false,
    if_false]

/-- CBC decryption of a padded encryption, as byte strings. -/
theorem decrypt_pad {n : Nat} {E D : Bytes → Bytes} (hE : Inverts n E D) (hn : 0 < n)
    {iv : Bytes} (hiv : iv.length = n) (m : Bytes) :
    (cbcDecrypt D iv (blocks n (cbcEncrypt E iv (blocks n (pad n m))).flatten)).flatten =
      pad n m := by
  obtain ⟨hall, hflat⟩ := exists_blocks hn (length_pad hn m)
  have hblocks := blocks_flatten_append hn (length_of_mem_cbcEncrypt hE hiv hall) []
  rw [List.append_nil, blocks_nil, List.append_nil] at hblocks
  rw [hblocks, cbcDecrypt_cbcEncrypt hE hiv hall, hflat]

theorem length_cbcEncrypt (E : Bytes → Bytes) (iv : Bytes) (ms : List Bytes) :
    (cbcEncrypt E iv ms).length = ms.length := by
  induction ms generalizing iv with
  | nil => rfl
  | cons m ms ih => simp [cbcEncrypt, ih]

/-- The ciphertext is as long as the padded message. -/
theorem length_encrypt_pad {n : Nat} {E D : Bytes → Bytes} (hE : Inverts n E D) (hn : 0 < n)
    {iv : Bytes} (hiv : iv.length = n) (m : Bytes) :
    (cbcEncrypt E iv (blocks n (pad n m))).flatten.length = (m.length / n + 1) * n := by
  obtain ⟨hall, hflat⟩ := exists_blocks hn (length_pad hn m)
  rw [length_flatten_blocks (length_of_mem_cbcEncrypt hE hiv hall), length_cbcEncrypt,
    ← length_flatten_blocks hall, hflat, length_pad hn]

/-! ## Streaming -/

/-- An encryptor fed in pieces: the chaining value, the input not yet a full
block, and the output so far. -/
structure Stream where
  register : Bytes
  pending : Bytes
  out : Bytes

/-- Feed `data`; every block that is now full is encrypted. -/
def Stream.put (n : Nat) (E : Bytes → Bytes) (s : Stream) (data : Bytes) : Stream :=
  let input := s.pending ++ data
  let full := blocks n (input.take (input.length / n * n))
  { register := chain E s.register full
    pending := input.drop (input.length / n * n)
    out := s.out ++ (cbcEncrypt E s.register full).flatten }

/-- The message is over: pad what is pending and encrypt it. -/
def Stream.messageEnd (n : Nat) (E : Bytes → Bytes) (s : Stream) : Bytes :=
  (s.put n E (padding n s.pending.length)).out

/-- The state after `m` was fed, whatever the pieces were. -/
structure Stream.Fed (n : Nat) (E : Bytes → Bytes) (iv m : Bytes) (s : Stream) : Prop where
  short : s.pending.length < n
  split : ∃ full : List Bytes, (∀ b ∈ full, b.length = n) ∧ full.flatten ++ s.pending = m ∧
    s.register = chain E iv full ∧ s.out = (cbcEncrypt E iv full).flatten

theorem Stream.fed_init {n : Nat} (E : Bytes → Bytes) (iv : Bytes) (hn : 0 < n) :
    Stream.Fed n E iv [] ⟨iv, [], []⟩ :=
  ⟨hn, [], by simp, rfl, rfl, rfl⟩

/-- Feeding appends to the message. -/
theorem Stream.Fed.put {n : Nat} {E : Bytes → Bytes} {iv m : Bytes} {s : Stream} (hn : 0 < n)
    (h : s.Fed n E iv m) (data : Bytes) : (s.put n E data).Fed n E iv (m ++ data) := by
  obtain ⟨full, hfull, hm, hreg, hout⟩ := h.split
  generalize hin : s.pending ++ data = input
  have hle : input.length / n * n ≤ input.length := Nat.div_mul_le_self _ _
  have htake : (input.take (input.length / n * n)).length = input.length / n * n := by
    rw [List.length_take]
    omega
  obtain ⟨hall, hflat⟩ := exists_blocks hn htake
  refine ⟨?_, full ++ blocks n (input.take (input.length / n * n)), ?_, ?_, ?_, ?_⟩
  · simp only [Stream.put, hin, List.length_drop]
    have := Nat.mod_lt input.length hn
    rw [Nat.mod_eq_sub_div_mul] at this
    exact this
  · intro b hb
    rcases List.mem_append.mp hb with hb | hb
    · exact hfull b hb
    · exact hall b hb
  · simp only [Stream.put, hin]
    rw [List.flatten_append, hflat, List.append_assoc, List.take_append_drop, ← hin,
      ← List.append_assoc, hm]
  · simp only [Stream.put, hin]
    rw [hreg, chain, chain, chain, List.foldl_append]
  · simp only [Stream.put, hin]
    rw [hout, hreg, cbcEncrypt_append, List.flatten_append]

/-- **Streaming does not matter**: at the end of the message the output is the
one-shot encryption of the padded message. -/
theorem Stream.Fed.messageEnd {n : Nat} {E : Bytes → Bytes} {iv m : Bytes} {s : Stream}
    (hn : 0 < n) (h : s.Fed n E iv m) :
    s.messageEnd n E = (cbcEncrypt E iv (blocks n (pad n m))).flatten := by
  have hpend : padding n s.pending.length = padding n m.length := by
    obtain ⟨full, hfull, hm, -, -⟩ := h.split
    rw [padding, padding, ← hm, List.length_append, length_flatten_blocks hfull, Nat.add_comm,
      Nat.add_mul_mod_self_right]
  -- the padding fills up the last block, so nothing is left pending
  have hfed := h.put hn (padding n s.pending.length)
  obtain ⟨full, hfull, hm, -, hout⟩ := hfed.split
  rw [hpend] at hm hfed hout
  have hrest : (s.put n E (padding n m.length)).pending = [] := by
    have hshort := hfed.short
    have hlen := congrArg List.length hm
    rw [List.length_append, length_flatten_blocks hfull] at hlen
    have hpad : (m ++ padding n m.length).length = (m.length / n + 1) * n := length_pad hn m
    rw [hpad] at hlen
    -- what is pending is shorter than a block and a multiple of one
    have hmod := congrArg (· % n) hlen
    simp only [Nat.mul_mod_left, Nat.mul_add_mod_self_right, Nat.mod_eq_of_lt hshort] at hmod
    exact List.length_eq_zero_iff.mp hmod
  rw [hrest, List.append_nil] at hm
  have hblocks := blocks_flatten_append hn hfull []
  rw [List.append_nil, blocks_nil, List.append_nil, hm] at hblocks
  rw [Stream.messageEnd, hpend, hout, pad, hblocks]

end FileTransfer.BlockMode
