import Mathlib

/-!
# Byte strings

Little-endian numbers of a fixed width, bounded writes into a buffer, and the
list of chunk sizes that a "take at most `c`, subtract, repeat" loop goes
through.
-/

namespace FileTransfer

/-- A byte string. -/
abbrev Bytes := List UInt8

/-! ## Little-endian numbers -/

/-- The `w` low bytes of `v`, least significant first. -/
def toLE : Nat → Nat → Bytes
  | 0, _ => []
  | w + 1, v => UInt8.ofNat v :: toLE w (v / 256)

/-- The number whose little-endian bytes are given. -/
def fromLE : Bytes → Nat
  | [] => 0
  | b :: bs => b.toNat + 256 * fromLE bs

@[simp] theorem length_toLE (w v : Nat) : (toLE w v).length = w := by
  induction w generalizing v with
  | zero => rfl
  | succ w ih => simp [toLE, ih]

/-- Reading back `w` bytes keeps the value modulo `256 ^ w`. -/
theorem fromLE_toLE_mod (w v : Nat) : fromLE (toLE w v) = v % 256 ^ w := by
  induction w generalizing v with
  | zero => simp [toLE, fromLE, Nat.mod_one]
  | succ w ih =>
    have hlow : (UInt8.ofNat v).toNat = v % 256 := by simp
    rw [toLE, fromLE, ih, hlow, Nat.pow_succ, Nat.mul_comm (256 ^ w) 256, Nat.mod_mul]

theorem fromLE_toLE {w v : Nat} (h : v < 256 ^ w) : fromLE (toLE w v) = v := by
  rw [fromLE_toLE_mod, Nat.mod_eq_of_lt h]

theorem fromLE_lt (bs : Bytes) : fromLE bs < 256 ^ bs.length := by
  induction bs with
  | nil => decide
  | cons b bs ih =>
    have hb := b.toNat_lt
    rw [fromLE, List.length_cons, Nat.pow_succ]
    omega

/-- The bytes of the value are the bytes it was read from. -/
theorem toLE_fromLE (bs : Bytes) : toLE bs.length (fromLE bs) = bs := by
  induction bs with
  | nil => rfl
  | cons b bs ih =>
    have hb := b.toNat_lt
    have hlow : UInt8.ofNat (b.toNat + 256 * fromLE bs) = b := by
      apply UInt8.toNat.inj
      rw [UInt8.toNat_ofNat']
      omega
    have hhigh : (b.toNat + 256 * fromLE bs) / 256 = fromLE bs := by omega
    rw [fromLE, List.length_cons, toLE, hlow, hhigh, ih]

/-! ## Slices and bounded writes -/

/-- `bs[start:stop]`, cut short where `bs` ends. -/
def slice (bs : Bytes) (start stop : Nat) : Bytes := (bs.take stop).drop start

/-- A slice whose ends fall on the seams of a concatenation. -/
theorem slice_append {pre mid post : Bytes} {start stop : Nat} (hstart : pre.length = start)
    (hstop : start + mid.length = stop) : slice (pre ++ mid ++ post) start stop = mid := by
  have hlen : (pre ++ mid).length = stop := by
    rw [List.length_append]
    omega
  rw [slice, List.take_left' hlen, List.drop_left' hstart]

/-- A slice is its first `k` bytes followed by the slice behind them. -/
theorem slice_split (bs : Bytes) {start k stop : Nat} (h : start + k ≤ stop) :
    slice bs start stop = (bs.drop start).take k ++ slice bs (start + k) stop := by
  have hlen : stop - start = k + (stop - (start + k)) := by omega
  rw [slice, slice, List.drop_take, List.drop_take, hlen, List.take_add, List.drop_drop]

/-- Write `data` into `buf` at `off`; `none` when the write would leave the
buffer. -/
def blit (buf : Bytes) (off : Nat) (data : Bytes) : Option Bytes :=
  if off + data.length ≤ buf.length then
    some (buf.take off ++ data ++ buf.drop (off + data.length))
  else none

/-- Read `len` bytes at `off`; `none` when the read would leave the buffer. -/
def peek (buf : Bytes) (off len : Nat) : Option Bytes :=
  if off + len ≤ buf.length then some ((buf.drop off).take len) else none

theorem length_blit {buf data out : Bytes} {off : Nat} (h : blit buf off data = some out) :
    out.length = buf.length := by
  simp only [blit] at h
  split at h
  · cases h
    simp only [List.length_append, List.length_take, List.length_drop]
    omega
  · cases h

/-- Writing right behind a prefix extends the prefix by what is written. -/
theorem blit_append {pre tail data : Bytes} {off : Nat} (hoff : pre.length = off)
    (h : data.length ≤ tail.length) :
    blit (pre ++ tail) off data = some ((pre ++ data) ++ tail.drop data.length) := by
  have hle : off + data.length ≤ (pre ++ tail).length := by
    rw [List.length_append]
    omega
  have htake : (pre ++ tail).take off = pre := hoff ▸ List.take_left
  have hdrop : (pre ++ tail).drop (off + data.length) = tail.drop data.length := by
    rw [← hoff, ← List.drop_drop, List.drop_left]
  rw [blit, if_pos hle, htake, hdrop]

/-- A write as long as the buffer replaces it. -/
theorem blit_whole {buf data : Bytes} (h : buf.length = data.length) :
    blit buf 0 data = some data := by
  have hnil : buf.drop data.length = [] := List.drop_eq_nil_of_le (by omega)
  rw [blit, if_pos (by omega), List.take_zero, Nat.zero_add, hnil]
  simp

theorem blit_eq_some {buf data out : Bytes} {off : Nat} (h : blit buf off data = some out) :
    off + data.length ≤ buf.length := by
  simp only [blit] at h
  split at h
  · assumption
  · cases h

/-- A write right behind a prefix that succeeded. -/
theorem eq_of_blit_append {pre tail data out : Bytes} {off : Nat}
    (h : blit (pre ++ tail) off data = some out) (hoff : pre.length = off) :
    out = (pre ++ data) ++ tail.drop data.length := by
  have hle := blit_eq_some h
  rw [List.length_append] at hle
  rw [blit_append hoff (by omega)] at h
  exact (Option.some.inj h).symm

/-- Bounded writes one after another, each an offset and what goes there. -/
def blitAll (buf : Bytes) : List (Nat × Bytes) → Option Bytes
  | [] => some buf
  | (off, data) :: rest => (blit buf off data).bind (blitAll · rest)

theorem length_blitAll {buf out : Bytes} {writes : List (Nat × Bytes)}
    (h : blitAll buf writes = some out) : out.length = buf.length := by
  induction writes generalizing buf with
  | nil =>
    cases h
    rfl
  | cons w rest ih =>
    obtain ⟨mid, hmid, hrest⟩ := Option.bind_eq_some_iff.mp h
    exact (ih hrest).trans (length_blit hmid)

/-- Writes that all stay inside the buffer succeed, and only those. -/
theorem isSome_blitAll {buf : Bytes} {writes : List (Nat × Bytes)} :
    (blitAll buf writes).isSome ↔ ∀ w ∈ writes, w.1 + w.2.length ≤ buf.length := by
  induction writes generalizing buf with
  | nil => simp [blitAll]
  | cons w rest ih =>
    rw [blitAll, List.forall_mem_cons]
    by_cases hfits : w.1 + w.2.length ≤ buf.length
    · obtain ⟨out, hout⟩ : ∃ out, blit buf w.1 w.2 = some out := ⟨_, if_pos hfits⟩
      rw [hout, Option.bind_some, ih, length_blit hout]
      exact (and_iff_right hfits).symm
    · have hnone : blit buf w.1 w.2 = none := if_neg hfits
      rw [hnone]
      simp [hfits]

/-! ## Chunk loops -/

/-- The sizes asked for by `while n > 0: take min(n, c); n -= min(n, c)`. -/
def chunkSizes (c n : Nat) : List Nat :=
  if _h : 0 < n ∧ 0 < c then min n c :: chunkSizes c (n - min n c) else []
termination_by n
decreasing_by omega

theorem chunkSizes_zero (c : Nat) : chunkSizes c 0 = [] := by
  rw [chunkSizes]
  simp

theorem chunkSizes_pos {c n : Nat} (hn : 0 < n) (hc : 0 < c) :
    chunkSizes c n = min n c :: chunkSizes c (n - min n c) := by
  rw [chunkSizes, dif_pos ⟨hn, hc⟩]

/-- No chunk is empty, so a loop over them makes progress. -/
theorem pos_of_mem_chunkSizes {c n k : Nat} (hc : 0 < c) (h : k ∈ chunkSizes c n) :
    0 < k ∧ k ≤ c := by
  induction n using Nat.strong_induction_on with
  | _ n ih =>
    rcases Nat.eq_zero_or_pos n with rfl | hn
    · rw [chunkSizes_zero] at h
      cases h
    · rw [chunkSizes_pos hn hc, List.mem_cons] at h
      rcases h with rfl | h
      · omega
      · exact ih _ (by omega) h

/-- The chunks of `n` add up to `n`. -/
theorem sum_chunkSizes {c : Nat} (hc : 0 < c) (n : Nat) : (chunkSizes c n).sum = n := by
  induction n using Nat.strong_induction_on with
  | _ n ih =>
    rcases Nat.eq_zero_or_pos n with rfl | hn
    · rw [chunkSizes_zero]
      rfl
    · rw [chunkSizes_pos hn hc, List.sum_cons, ih _ (by omega)]
      omega

end FileTransfer
