import NttX402.Worker.Goldilocks
import Mathlib.NumberTheory.LucasPrimality
import Mathlib.RingTheory.RootsOfUnity.PrimitiveRoots
import Mathlib.Tactic.ReduceModChar
import Mathlib.Tactic.NormNum.Prime

namespace NttX402.Proof
open Worker

/-! ## The prime -/

theorem prime_factor_of_order {q : ℕ} (prime : q.Prime)
    (divides : q ∣ 2 ^ 32 * (3 * (5 * (17 * (257 * 65537))))) :
    q = 2 ∨ q = 3 ∨ q = 5 ∨ q = 17 ∨ q = 257 ∨ q = 65537 := by
  have two := fun h => (Nat.prime_dvd_prime_iff_eq prime Nat.prime_two).mp
    (prime.dvd_of_dvd_pow (n := 32) h)
  have three := (Nat.prime_dvd_prime_iff_eq prime (by norm_num : Nat.Prime 3)).mp
  have five := (Nat.prime_dvd_prime_iff_eq prime (by norm_num : Nat.Prime 5)).mp
  have seventeen := (Nat.prime_dvd_prime_iff_eq prime (by norm_num : Nat.Prime 17)).mp
  have fermat₃ := (Nat.prime_dvd_prime_iff_eq prime (by norm_num : Nat.Prime 257)).mp
  have fermat₄ := (Nat.prime_dvd_prime_iff_eq prime (by norm_num : Nat.Prime 65537)).mp
  simp only [prime.dvd_mul] at divides
  tauto

/-- Primality by Lucas' criterion: `7` generates the multiplicative group. -/
theorem goldilocksPrime_prime : goldilocksPrime.Prime := by
  have value : goldilocksPrime = 18446744069414584321 := by norm_num
  rw [value]
  apply lucas_primality 18446744069414584321 (7 : ZMod 18446744069414584321)
  · norm_num
    reduce_mod_char
  · intro q prime divides
    have factored : 18446744069414584321 - 1 = 2 ^ 32 * (3 * (5 * (17 * (257 * 65537)))) := by
      norm_num
    rw [factored] at divides
    rcases prime_factor_of_order prime divides with rfl | rfl | rfl | rfl | rfl | rfl <;>
      norm_num <;> reduce_mod_char <;> decide

instance : Fact goldilocksPrime.Prime := ⟨goldilocksPrime_prime⟩

theorem two_pow_ne_zero (d : ℕ) : (2 ^ d : GoldilocksField) ≠ 0 := by
  refine pow_ne_zero d ?_
  intro zero
  have divides := (ZMod.natCast_eq_zero_iff 2 goldilocksPrime).mp (by exact_mod_cast zero)
  exact absurd (Nat.le_of_dvd (by norm_num) divides) (by norm_num)

theorem val_cast_of_lt {x : ℕ} (small : x < goldilocksPrime) : (x : GoldilocksField).val = x :=
  ZMod.val_natCast_of_lt small

/-! ## The field as the crate implements it -/

def twoAdicRoot : GoldilocksField := 1753635133440165772

theorem orderOf_twoAdicRoot : orderOf twoAdicRoot = 2 ^ 32 := by
  have half : twoAdicRoot ^ 2 ^ 31 = -1 := by
    change (1753635133440165772 : ZMod 18446744069414584321) ^ 2 ^ 31 = -1
    norm_num
    reduce_mod_char
  apply orderOf_eq_prime_pow
  · rw [half]
    decide
  · rw [pow_succ, pow_mul, half, neg_one_sq]

/-- A concrete instance of the crate: elements are residues, generators are the powers of the
crate's root. -/
def referenceGoldilocks : P3Goldilocks where
  Elem := GoldilocksField
  one := (1 : GoldilocksField)
  add := fun (a b : GoldilocksField) => a + b
  sub := fun (a b : GoldilocksField) => a - b
  mul := fun (a b : GoldilocksField) => a * b
  fromU64 c := (c.toNat : GoldilocksField)
  asCanonicalU64 := fun (a : GoldilocksField) => UInt64.ofNat a.val
  tryInverse := fun (a : GoldilocksField) => if a = 0 then none else some a⁻¹
  twoAdicGenerator bits := twoAdicRoot ^ 2 ^ (32 - bits)
  twoAdicity := 32

theorem canonical_toNat (a : GoldilocksField) : (UInt64.ofNat a.val).toNat = a.val :=
  UInt64.toNat_ofNat_of_lt' ((ZMod.val_lt a).trans (by norm_num))

theorem referenceGoldilocks_val (a : GoldilocksField) : referenceGoldilocks.val a = a := by
  change ((UInt64.ofNat a.val).toNat : GoldilocksField) = a
  rw [canonical_toNat, ZMod.natCast_zmod_val]

theorem referenceGoldilocks_exact : referenceGoldilocks.Exact := by
  have reads := referenceGoldilocks_val
  constructor
  case canonical =>
    intro (a : GoldilocksField)
    exact (canonical_toNat a).trans_lt (ZMod.val_lt a)
  case val_one => exact reads 1
  case val_add =>
    intro (a : GoldilocksField) (b : GoldilocksField)
    exact (reads (a + b)).trans (congrArg₂ (· + ·) (reads a).symm (reads b).symm)
  case val_sub =>
    intro (a : GoldilocksField) (b : GoldilocksField)
    exact (reads (a - b)).trans (congrArg₂ (· - ·) (reads a).symm (reads b).symm)
  case val_mul =>
    intro (a : GoldilocksField) (b : GoldilocksField)
    exact (reads (a * b)).trans (congrArg₂ (· * ·) (reads a).symm (reads b).symm)
  case val_fromU64 => exact fun c => reads _
  case tryInverse_none =>
    intro (a : GoldilocksField) (missing : (if a = 0 then none else some a⁻¹) = none)
    rw [reads]
    by_contra nonzero
    simp [nonzero] at missing
  case tryInverse_some =>
    intro (a : GoldilocksField) (b : GoldilocksField)
      (found : (if a = 0 then none else some a⁻¹) = some b)
    rw [reads, reads]
    by_cases zero : a = 0
    · simp [zero] at found
    · rw [if_neg zero, Option.some.injEq] at found
      rw [← found, mul_inv_cancel₀ zero]
  case orderOf_generator =>
    intro bits le
    have primitive : IsPrimitiveRoot twoAdicRoot (2 ^ 32) :=
      orderOf_twoAdicRoot ▸ IsPrimitiveRoot.orderOf twoAdicRoot
    have split : 2 ^ 32 = 2 ^ (32 - bits) * 2 ^ bits := by
      rw [← pow_add, Nat.sub_add_cancel le]
    exact (congrArg orderOf (reads _)).trans
      (primitive.pow (by norm_num) split).eq_orderOf.symm
  case twoAdicity_eq => rfl

end NttX402.Proof
