import Mathlib.RingTheory.AdjoinRoot
import Mathlib.RingTheory.RootsOfUnity.PrimitiveRoots
import Mathlib.Tactic.Ring
import Mathlib.Tactic.LinearCombination

namespace NttX402.Library
open Finset

section Transform
variable {R : Type*} [CommRing R]

/-- Slot `k` of the discrete Fourier transform of length `n` at the root `w`. -/
def dft (n : ℕ) (w : R) (f : ℕ → R) (k : ℕ) : R :=
  ∑ j ∈ range n, f j * w ^ (j * k)

theorem dft_one (w : R) (f : ℕ → R) (k : ℕ) : dft 1 w f k = f 0 := by
  simp [dft]

theorem dft_congr {n : ℕ} {f g : ℕ → R} (agree : ∀ j < n, f j = g j) (w : R) (k : ℕ) :
    dft n w f k = dft n w g k :=
  sum_congr rfl fun j member => by rw [agree j (mem_range.mp member)]

theorem dft_const_mul (n : ℕ) (w a : R) (f : ℕ → R) (k : ℕ) :
    dft n w (fun j => a * f j) k = a * dft n w f k := by
  simp only [dft, mul_sum, mul_assoc]

theorem dft_add (n : ℕ) (w : R) (f g : ℕ → R) (k : ℕ) :
    dft n w (fun j => f j + g j) k = dft n w f k + dft n w g k := by
  simp only [dft, add_mul, sum_add_distrib]

/-- Decimation in time: the even and the odd slots are transformed at the squared root. -/
theorem dft_two_mul (n : ℕ) (w : R) (f : ℕ → R) (k : ℕ) :
    dft (2 * n) w f k = dft n (w ^ 2) (fun j => f (2 * j)) k +
      w ^ k * dft n (w ^ 2) (fun j => f (2 * j + 1)) k := by
  induction n with
  | zero => simp [dft]
  | succ n ih =>
      have grow : dft (2 * (n + 1)) w f k = dft (2 * n) w f k +
          f (2 * n) * w ^ (2 * n * k) + f (2 * n + 1) * w ^ ((2 * n + 1) * k) := by
        rw [dft, Nat.mul_succ, sum_range_succ, sum_range_succ, ← dft]
      rw [grow, ih]
      simp only [dft, sum_range_succ]
      ring

theorem dft_add_period {n : ℕ} {w : R} (period : w ^ n = 1) (f : ℕ → R) (k : ℕ) :
    dft n w f (k + n) = dft n w f k := by
  refine sum_congr rfl fun j _ => ?_
  rw [Nat.mul_add, pow_add, Nat.mul_comm j n, pow_mul w n j, period, one_pow, mul_one]

theorem dft_two_mul_upper {n : ℕ} {w : R} (half : w ^ n = -1) (f : ℕ → R) (k : ℕ) :
    dft (2 * n) w f (k + n) = dft n (w ^ 2) (fun j => f (2 * j)) k -
      w ^ k * dft n (w ^ 2) (fun j => f (2 * j + 1)) k := by
  have period : (w ^ 2) ^ n = 1 := by rw [pow_right_comm, half, neg_one_sq]
  rw [dft_two_mul, dft_add_period period, dft_add_period period, pow_add, half]
  ring

theorem pow_mod_of_period {n : ℕ} {w : R} (period : w ^ n = 1) (m k : ℕ) :
    w ^ (m % n * k) = w ^ (m * k) := by
  have split : m * k = n * (m / n * k) + m % n * k := by
    rw [← Nat.mul_assoc, ← Nat.add_mul, Nat.div_add_mod]
  rw [split, pow_add, pow_mul w n, period, one_pow, one_mul]

/-- At the inverse of the root, the transform is read backwards. -/
theorem dft_reverse {n : ℕ} {w v : R} (period : w ^ n = 1) (inverse : w * v = 1) (f : ℕ → R)
    {k : ℕ} (bound : k ≤ n) : dft n v f k = dft n w f (n - k) := by
  refine sum_congr rfl fun j _ => ?_
  have cancel : w ^ (j * k) * v ^ (j * k) = 1 := by rw [← mul_pow, inverse, one_pow]
  have whole : w ^ (j * (n - k)) * w ^ (j * k) = 1 := by
    rw [← pow_add, ← Nat.mul_add, Nat.sub_add_cancel bound, Nat.mul_comm, pow_mul, period, one_pow]
  have same : v ^ (j * k) = w ^ (j * (n - k)) := by
    calc v ^ (j * k)
        = w ^ (j * (n - k)) * w ^ (j * k) * v ^ (j * k) := by rw [whole, one_mul]
      _ = w ^ (j * (n - k)) := by rw [mul_assoc, cancel, mul_one]
  rw [same]

theorem dft_mod {n : ℕ} {w : R} (period : w ^ n = 1) (f : ℕ → R) (k : ℕ) :
    dft n w f (k % n) = dft n w f k := by
  refine sum_congr rfl fun j _ => ?_
  rw [Nat.mul_comm j, Nat.mul_comm j, pow_mod_of_period period]

def cyclicConvolution (n : ℕ) (f g : ℕ → R) (k : ℕ) : R :=
  ∑ i ∈ range n, ∑ j ∈ range n with (i + j) % n = k, f i * g j

/-- Each pair of slots contributes to the one slot of the convolution that its indices add up
to. -/
theorem dft_cyclicConvolution {n : ℕ} {w : R} (period : w ^ n = 1) (f g : ℕ → R) (k : ℕ) :
    dft n w (cyclicConvolution n f g) k = dft n w f k * dft n w g k := by
  have collect (i j : ℕ) (hi : i < n) :
      ∑ m ∈ range n, (if (i + j) % n = m then f i * g j else 0) * w ^ (m * k) =
        f i * w ^ (i * k) * (g j * w ^ (j * k)) := by
    have slot : (i + j) % n ∈ range n := mem_range.mpr (Nat.mod_lt _ (by omega))
    simp only [ite_mul, zero_mul, sum_ite_eq, slot, if_true]
    rw [pow_mod_of_period period, Nat.add_mul, pow_add]
    ring
  calc dft n w (cyclicConvolution n f g) k
      = ∑ i ∈ range n, ∑ j ∈ range n, ∑ m ∈ range n,
          (if (i + j) % n = m then f i * g j else 0) * w ^ (m * k) := by
        simp only [dft, cyclicConvolution, sum_filter, sum_mul]
        rw [sum_comm]
        exact sum_congr rfl fun i _ => sum_comm
    _ = ∑ i ∈ range n, ∑ j ∈ range n, f i * w ^ (i * k) * (g j * w ^ (j * k)) :=
        sum_congr rfl fun i member =>
          sum_congr rfl fun j _ => collect i j (mem_range.mp member)
    _ = dft n w f k * dft n w g k := (sum_mul_sum ..).symm

/-- Nothing wraps around when the terms from `n` on vanish. -/
theorem sum_cyclic_of_short {M : Type*} [AddCommMonoid M] {n : ℕ} {term : ℕ → ℕ → M}
    (short : ∀ i < n, ∀ j < n, n ≤ i + j → term i j = 0) {k : ℕ} (bound : k < n) :
    ∑ i ∈ range n, ∑ j ∈ range n with (i + j) % n = k, term i j =
      ∑ p ∈ antidiagonal k, term p.1 p.2 := by
  have pairs : ∑ i ∈ range n, ∑ j ∈ range n with (i + j) % n = k, term i j =
      ∑ p ∈ range n ×ˢ range n with (p.1 + p.2) % n = k, term p.1 p.2 := by
    simp only [sum_filter, sum_product]
  rw [pairs]
  symm
  apply sum_subset
  · intro p member
    have total : p.1 + p.2 = k := mem_antidiagonal.mp member
    simp only [mem_filter, mem_product, mem_range]
    exact ⟨⟨by omega, by omega⟩, by rw [total, Nat.mod_eq_of_lt bound]⟩
  · intro p member other
    simp only [mem_filter, mem_product, mem_range] at member
    obtain ⟨⟨hi, hj⟩, slot⟩ := member
    apply short _ hi _ hj
    by_contra small
    rw [Nat.mod_eq_of_lt (by omega)] at slot
    exact other (mem_antidiagonal.mpr slot)

open Polynomial in
noncomputable def slotPolynomial (n : ℕ) (f : ℕ → R) : R[X] := ∑ j ∈ range n, C (f j) * X ^ j

/-- The convolution is the product of polynomials modulo `X ^ n - 1`: the root of that polynomial
is one of order `n` in the quotient. -/
theorem sub_one_dvd_slotPolynomial (n : ℕ) (f g : ℕ → R) :
    (Polynomial.X ^ n - 1 : Polynomial R) ∣
      slotPolynomial n f * slotPolynomial n g - slotPolynomial n (cyclicConvolution n f g) := by
  let modulus : Polynomial R := Polynomial.X ^ n - 1
  have read (h : ℕ → R) : AdjoinRoot.mk modulus (slotPolynomial n h) =
      dft n (AdjoinRoot.root modulus) (fun j => AdjoinRoot.of modulus (h j)) 1 := by
    simp [slotPolynomial, dft, map_sum]
  have period : AdjoinRoot.root modulus ^ n = 1 := by
    apply sub_eq_zero.mp
    calc AdjoinRoot.root modulus ^ n - 1
        = AdjoinRoot.mk modulus modulus := by
          rw [map_sub, map_pow, AdjoinRoot.mk_X, map_one]
      _ = 0 := AdjoinRoot.mk_self
  have spread (k : ℕ) : AdjoinRoot.of modulus (cyclicConvolution n f g k) =
      cyclicConvolution n (fun j => AdjoinRoot.of modulus (f j))
        (fun j => AdjoinRoot.of modulus (g j)) k := by
    simp only [cyclicConvolution, map_sum, map_mul]
  apply AdjoinRoot.mk_eq_mk.mp
  rw [map_mul, read, read, read, ← dft_cyclicConvolution period]
  exact dft_congr (fun j _ => (spread j).symm) _ 1

end Transform

section Inversion
variable {K : Type*} [Field K] {n : ℕ} {w : K}

theorem pow_half_of_isPrimitiveRoot (primitive : IsPrimitiveRoot w (2 * n)) (positive : 0 < n) :
    w ^ n = -1 := by
  have square : (w ^ n) ^ 2 = 1 := by rw [← pow_mul, Nat.mul_comm, primitive.pow_eq_one]
  rcases sq_eq_one_iff.mp square with one | negative
  · exact absurd one (primitive.pow_ne_one_of_pos_of_lt positive.ne' (by omega))
  · exact negative

theorem sum_pow_of_isPrimitiveRoot (primitive : IsPrimitiveRoot w n) {i j : ℕ}
    (hi : i < n) (hj : j < n) :
    ∑ k ∈ range n, w ^ (i * k) * w⁻¹ ^ (j * k) = if i = j then (n : K) else 0 := by
  have nonzero : w ≠ 0 := primitive.ne_zero (by omega)
  let ratio : K := w ^ i * w⁻¹ ^ j
  have terms : ∀ k, w ^ (i * k) * w⁻¹ ^ (j * k) = ratio ^ k := fun k => by
    rw [mul_pow, ← pow_mul, ← pow_mul]
  simp only [terms]
  split
  · rename_i same
    have one : ratio = 1 := by
      simp only [ratio, same, ← mul_pow, mul_inv_cancel₀ nonzero, one_pow]
    simp [one]
  · rename_i distinct
    have notOne : ratio - 1 ≠ 0 := by
      intro zero
      have equal : w ^ i = w ^ j := by
        have one : w ^ i * (w ^ j)⁻¹ = 1 := by simpa [ratio, sub_eq_zero] using zero
        rwa [mul_inv_eq_one₀ (pow_ne_zero j nonzero)] at one
      exact distinct (primitive.pow_inj hi hj equal)
    have full : ratio ^ n = 1 := by
      rw [mul_pow, ← pow_mul, ← pow_mul, Nat.mul_comm i, Nat.mul_comm j, pow_mul, pow_mul,
        primitive.pow_eq_one, inv_pow, primitive.pow_eq_one, inv_one, one_pow, one_pow, mul_one]
    have telescoped := geom_sum_mul ratio n
    rw [full, sub_self] at telescoped
    exact (mul_eq_zero.mp telescoped).resolve_right notOne

theorem dft_inv_dft (primitive : IsPrimitiveRoot w n) (f : ℕ → K) {k : ℕ} (hk : k < n) :
    dft n w⁻¹ (dft n w f) k = n * f k := by
  have expand : dft n w⁻¹ (dft n w f) k =
      ∑ i ∈ range n, f i * ∑ j ∈ range n, w ^ (i * j) * w⁻¹ ^ (k * j) := by
    simp only [dft, sum_mul, mul_sum]
    rw [sum_comm]
    refine sum_congr rfl fun i _ => sum_congr rfl fun j _ => ?_
    rw [mul_assoc, Nat.mul_comm j k]
  rw [expand, sum_congr rfl fun i member => by
    rw [sum_pow_of_isPrimitiveRoot primitive (mem_range.mp member) hk]]
  simp only [mul_ite, mul_zero, sum_ite_eq', mem_range, hk, if_true, mul_comm]

theorem dft_dft_inv (primitive : IsPrimitiveRoot w n) (f : ℕ → K) {k : ℕ} (hk : k < n) :
    dft n w (dft n w⁻¹ f) k = n * f k := by
  simpa using dft_inv_dft primitive.inv f hk

end Inversion

end NttX402.Library
