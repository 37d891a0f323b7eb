import Mathlib

/-!
# Polynomials over GF(2), written as bits

The bits of a number are the coefficients of a polynomial over the field with two
elements: exclusive or is addition, a shift multiplies by a power of `X`. A list
of bits is read the way checksums read a message, highest coefficient first.

`divStep` multiplies a remainder by `X` and divides by the generator again, with
a shift and at most one exclusive or. `dvd_window` is what makes such checksums
detect bursts: a generator with a constant term divides no polynomial whose terms
all lie in a window shorter than itself.
-/

namespace FileTransfer.Gf2

open Polynomial

/-! ## Numbers as polynomials -/

/-- The polynomial whose coefficients are the bits of `n`. -/
noncomputable def poly (n : Nat) : (ZMod 2)[X] :=
  ∑ i ∈ Finset.range n, if n.testBit i then X ^ i else 0

@[simp] theorem coeff_poly (n i : Nat) : (poly n).coeff i = if n.testBit i then 1 else 0 := by
  have hterm : ∀ j, (if n.testBit j then (X : (ZMod 2)[X]) ^ j else 0).coeff i =
      if i = j then (if n.testBit i then 1 else 0) else 0 := by
    intro j
    by_cases hij : i = j
    · subst hij
      split <;> simp
    · split <;> simp [coeff_X_pow, hij]
  rw [poly, finsetSum_coeff, Finset.sum_congr rfl fun j _ => hterm j, Finset.sum_ite_eq]
  by_cases hi : i ∈ Finset.range n
  · rw [if_pos hi]
  · -- a number has no bit at its own height or above
    have hlt : n < 2 ^ i := lt_of_le_of_lt (by simpa using hi) Nat.lt_two_pow_self
    simp [hi, Nat.testBit_lt_two_pow hlt]

-- its coefficients are all that is ever asked of it
attribute [irreducible] poly

@[simp] theorem poly_zero : poly 0 = 0 := by
  ext i
  simp

theorem poly_injective : Function.Injective poly := by
  intro m n h
  apply Nat.eq_of_testBit_eq
  intro i
  have hcoeff := congrArg (fun p => p.coeff i) h
  simp only [coeff_poly] at hcoeff
  cases hm : m.testBit i <;> cases hn : n.testBit i <;> simp [hm, hn] at hcoeff ⊢

theorem poly_xor (m n : Nat) : poly (m ^^^ n) = poly m + poly n := by
  ext i
  rw [coeff_add, coeff_poly, coeff_poly, coeff_poly, Nat.testBit_xor]
  cases m.testBit i <;> cases n.testBit i <;> decide

theorem poly_shiftLeft (n k : Nat) : poly (n <<< k) = poly n * X ^ k := by
  ext i
  rw [coeff_poly, Nat.testBit_shiftLeft, coeff_mul_X_pow', coeff_poly]
  by_cases hk : k ≤ i
  · simp [hk]
  · simp [hk]

theorem degree_poly_lt {n w : Nat} (h : n < 2 ^ w) : (poly n).degree < w := by
  rw [degree_lt_iff_coeff_zero]
  intro i hi
  have hlt : n < 2 ^ i := lt_of_lt_of_le h (Nat.pow_le_pow_right (by decide) hi)
  simp [Nat.testBit_lt_two_pow hlt]

/-- A number of `w + 1` bits is a monic polynomial of degree `w`. -/
theorem monic_poly {g w : Nat} (hlow : 2 ^ w ≤ g) (hhigh : g < 2 ^ (w + 1)) :
    (poly g).Monic ∧ (poly g).degree = w := by
  have hbit : g.testBit w = true := Nat.testBit_of_two_pow_le_and_two_pow_add_one_gt hlow hhigh
  have hcoeff : (poly g).coeff w = 1 := by simp [hbit]
  have hdegree : (poly g).natDegree ≤ w := by
    rw [natDegree_le_iff_coeff_eq_zero]
    intro i hi
    have hlt : g < 2 ^ i := lt_of_lt_of_le hhigh (Nat.pow_le_pow_right (by decide) hi)
    simp [Nat.testBit_lt_two_pow hlt]
  refine ⟨monic_of_natDegree_le_of_coeff_eq_one w hdegree hcoeff, le_antisymm ?_ ?_⟩
  · exact degree_le_of_natDegree_le hdegree
  · exact le_degree_of_ne_zero (by simp [hcoeff])

/-! ## Messages as polynomials -/

/-- The polynomial of a message: its first bit is the highest coefficient. -/
noncomputable def ofBits : List Bool → (ZMod 2)[X]
  | [] => 0
  | b :: bs => (if b then X ^ bs.length else 0) + ofBits bs

theorem ofBits_append (xs ys : List Bool) :
    ofBits (xs ++ ys) = ofBits xs * X ^ ys.length + ofBits ys := by
  induction xs with
  | nil => simp [ofBits]
  | cons b xs ih =>
    rw [List.cons_append, ofBits, ih, ofBits, List.length_append, add_mul, add_assoc]
    congr 1
    split
    · rw [pow_add]
    · rw [zero_mul]

/-- The coefficients are the bits, last bit first. -/
theorem coeff_ofBits (bs : List Bool) (i : Nat) :
    (ofBits bs).coeff i = if bs.reverse[i]? = some true then 1 else 0 := by
  induction bs with
  | nil => simp [ofBits]
  | cons b bs ih =>
    rw [ofBits, coeff_add, ih, List.reverse_cons]
    rcases lt_trichotomy i bs.length with hi | rfl | hi
    · have hterm : (if b then (X : (ZMod 2)[X]) ^ bs.length else 0).coeff i = 0 := by
        split <;> simp [coeff_X_pow, hi.ne]
      rw [hterm, zero_add, List.getElem?_append_left (by simpa using hi)]
    · cases b <;> simp
    · have hterm : (if b then (X : (ZMod 2)[X]) ^ bs.length else 0).coeff i = 0 := by
        split <;> simp [coeff_X_pow, hi.ne']
      have hnone : bs.reverse[i]? = none := List.getElem?_eq_none (by simpa using hi.le)
      have hnone' : (bs.reverse ++ [b])[i]? = none := List.getElem?_eq_none (by simpa using hi)
      rw [hterm, hnone, hnone']
      simp

/-- Where two messages of one length differ in a coefficient, they differ in the
bit that stands for it. -/
theorem getElem?_ne_of_coeff_sub {xs ys : List Bool} (hlen : xs.length = ys.length) {i : Nat}
    (h : (ofBits xs - ofBits ys).coeff i ≠ 0) :
    i < xs.length ∧ xs[xs.length - 1 - i]? ≠ ys[xs.length - 1 - i]? := by
  rw [coeff_sub, coeff_ofBits, coeff_ofBits] at h
  have hi : i < xs.length := by
    by_contra hi
    have hnone : xs.reverse[i]? = none := List.getElem?_eq_none (by simpa using hi)
    have hnone' : ys.reverse[i]? = none := List.getElem?_eq_none (by simpa [← hlen] using hi)
    rw [hnone, hnone', sub_self] at h
    exact h rfl
  refine ⟨hi, fun heq => h ?_⟩
  rw [List.getElem?_reverse hi, List.getElem?_reverse (hlen ▸ hi), ← hlen, heq, sub_self]

/-- Two messages of one length and one polynomial are the same. -/
theorem ofBits_inj {xs ys : List Bool} (hlen : xs.length = ys.length)
    (h : ofBits xs = ofBits ys) : xs = ys := by
  have hbits : ∀ i : Nat, xs.reverse[i]? = some true ↔ ys.reverse[i]? = some true := by
    intro i
    have hcoeff := congrArg (fun p => p.coeff i) h
    simp only [coeff_ofBits] at hcoeff
    by_cases hx : xs.reverse[i]? = some true <;> by_cases hy : ys.reverse[i]? = some true <;>
      simp [hx, hy] at hcoeff ⊢
  apply List.reverse_injective
  apply List.ext_getElem (by simpa using hlen)
  intro i hx hy
  have hi := hbits i
  rw [List.getElem?_eq_getElem hx, List.getElem?_eq_getElem hy, Option.some_inj,
    Option.some_inj] at hi
  exact Bool.eq_iff_iff.mpr hi

/-- The `w` low bits of a number, most significant first. -/
def bitsOf (w n : Nat) : List Bool := (List.range w).reverse.map n.testBit

@[simp] theorem length_bitsOf (w n : Nat) : (bitsOf w n).length = w := by simp [bitsOf]

/-- The bits of a number make the polynomial of the number. -/
theorem ofBits_bitsOf {w n : Nat} (h : n < 2 ^ w) : ofBits (bitsOf w n) = poly n := by
  ext i
  rw [coeff_ofBits, coeff_poly]
  have hreverse : (bitsOf w n).reverse = (List.range w).map n.testBit := by
    rw [bitsOf, ← List.map_reverse, List.reverse_reverse]
  rw [hreverse, List.getElem?_map]
  by_cases hi : i < w
  · simp [hi]
  · have hlt : n < 2 ^ i := lt_of_lt_of_le h (Nat.pow_le_pow_right (by decide) (not_lt.mp hi))
    simp [hi, Nat.testBit_lt_two_pow hlt]

/-! ## Remainders -/

/-- A polynomial of lower degree than the generator is its own remainder. -/
theorem poly_eq_modByMonic {g w r : Nat} {p : (ZMod 2)[X]} (hlow : 2 ^ w ≤ g)
    (hhigh : g < 2 ^ (w + 1)) (hr : r < 2 ^ w) (h : poly g ∣ poly r - p) :
    poly r = p %ₘ poly g := by
  obtain ⟨hmonic, hdegree⟩ := monic_poly hlow hhigh
  have hself : poly r %ₘ poly g = poly r :=
    (modByMonic_eq_self_iff hmonic).mpr (hdegree ▸ degree_poly_lt hr)
  rw [← hself]
  exact modByMonic_eq_of_dvd_sub hmonic h

/-- A remainder differs from what was divided by a multiple of the generator. -/
theorem dvd_sub_of_eq_modByMonic {q p r : (ZMod 2)[X]} (h : r = p %ₘ q) : q ∣ r - p :=
  h ▸ dvd_modByMonic_sub p q

/-- One step of the division: the remainder of `X` times the remainder `s`. -/
def divStep (w g s : Nat) : Nat :=
  if s.testBit (w - 1) then (s <<< 1) ^^^ g else s <<< 1

variable {w g : Nat} (hw : 0 < w) (hlow : 2 ^ w ≤ g) (hhigh : g < 2 ^ (w + 1))
include hw hlow hhigh

theorem divStep_lt {s : Nat} (hs : s < 2 ^ w) : divStep w g s < 2 ^ w := by
  have hgbit : g.testBit w = true := Nat.testBit_of_two_pow_le_and_two_pow_add_one_gt hlow hhigh
  have hshift : s <<< 1 < 2 ^ (w + 1) := by
    rw [Nat.shiftLeft_eq, pow_succ]
    omega
  have htop : (s <<< 1).testBit w = s.testBit (w - 1) := by
    rw [Nat.testBit_shiftLeft]
    simp [Nat.succ_le_of_lt hw]
  -- no bit at `w` or above is left
  have hbits : ∀ i, w ≤ i → (divStep w g s).testBit i = false := by
    intro i hi
    rcases Nat.eq_or_lt_of_le hi with rfl | hi
    · rw [divStep]
      split
      · next hbit => rw [Nat.testBit_xor, htop, hgbit, hbit]; rfl
      · next hbit => rw [htop]; simpa using hbit
    · have hle : 2 ^ (w + 1) ≤ 2 ^ i := Nat.pow_le_pow_right (by decide) hi
      have hsbit := Nat.testBit_lt_two_pow (lt_of_lt_of_le hshift hle)
      have hgbit' := Nat.testBit_lt_two_pow (lt_of_lt_of_le hhigh hle)
      rw [divStep]
      split
      · rw [Nat.testBit_xor, hsbit, hgbit']
        rfl
      · exact hsbit
  exact Nat.lt_pow_two_of_testBit _ hbits

omit hw hlow hhigh in
theorem dvd_divStep (s : Nat) : poly g ∣ poly (divStep w g s) - poly s * X := by
  have hshift : poly (s <<< 1) = poly s * X := by rw [poly_shiftLeft, pow_one]
  rw [divStep]
  split
  · rw [poly_xor, hshift, add_sub_cancel_left]
  · rw [hshift, sub_self]
    exact dvd_zero _

/-- **`k` steps of the division** give the remainder of `X ^ k` times `s`. -/
theorem poly_divStep_iterate {s : Nat} (hs : s < 2 ^ w) (k : Nat) :
    (divStep w g)^[k] s < 2 ^ w ∧
      poly ((divStep w g)^[k] s) = (poly s * X ^ k) %ₘ poly g := by
  have hrun : (divStep w g)^[k] s < 2 ^ w ∧
      poly g ∣ poly ((divStep w g)^[k] s) - poly s * X ^ k := by
    induction k with
    | zero =>
      refine ⟨hs, ?_⟩
      rw [pow_zero, mul_one, Function.iterate_zero_apply, sub_self]
      exact dvd_zero _
    | succ k ih =>
      obtain ⟨hlt, hdvd⟩ := ih
      rw [Function.iterate_succ_apply']
      refine ⟨divStep_lt hw hlow hhigh hlt, ?_⟩
      have hsplit : ∀ a b c : (ZMod 2)[X],
          a - c * X ^ (k + 1) = a - b * X + (b - c * X ^ k) * X := by
        intro a b c
        ring
      rw [hsplit _ (poly ((divStep w g)^[k] s))]
      exact dvd_add (dvd_divStep _) (Dvd.dvd.mul_right hdvd X)
  exact ⟨hrun.1, poly_eq_modByMonic hlow hhigh hrun.1 hrun.2⟩

/-! ## Bursts -/

omit hw in
/-- **No burst is a multiple of the generator**: if the generator has a constant
term, it divides no polynomial, apart from zero, whose terms all lie in `w`
consecutive places. -/
theorem eq_zero_of_dvd_window (hodd : g.testBit 0 = true) {p : (ZMod 2)[X]} {k : Nat}
    (hwindow : ∀ i, p.coeff i ≠ 0 → k ≤ i ∧ i < k + w) (h : poly g ∣ p) : p = 0 := by
  obtain ⟨-, hdegree⟩ := monic_poly hlow hhigh
  obtain ⟨e, rfl⟩ : X ^ k ∣ p := by
    rw [X_pow_dvd_iff]
    intro i hi
    by_contra hcoeff
    exact absurd (hwindow i hcoeff).1 (not_le.mpr hi)
  -- `X` is prime to the generator
  have hcoprime : IsCoprime (poly g) (X ^ k) := by
    refine IsCoprime.pow_right (irreducible_X.coprime_iff_not_dvd.mpr ?_).symm
    rw [X_dvd_iff, coeff_poly, hodd]
    decide
  have hdvd : poly g ∣ e := hcoprime.dvd_of_dvd_mul_left h
  have hshort : e.degree < w := by
    rw [degree_lt_iff_coeff_zero]
    intro i hi
    by_contra hcoeff
    have hplace : (X ^ k * e).coeff (i + k) ≠ 0 := by rwa [coeff_X_pow_mul]
    have hbelow : i + k < k + w := (hwindow _ hplace).2
    omega
  have hzero : e = 0 := by
    by_contra hne
    have hle := degree_le_of_dvd hdvd hne
    rw [hdegree] at hle
    exact absurd hshort (not_lt.mpr hle)
  rw [hzero, mul_zero]

end FileTransfer.Gf2
