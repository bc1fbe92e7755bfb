import NttX402.Proof.Transform

namespace NttX402.Proof
open Worker Library

def opposite : Direction → Direction
  | .Forward => .Inverse
  | .Inverse => .Forward

theorem slots_range_map {R : Type*} [Zero R] {n k : ℕ} (f : ℕ → R) (bound : k < n) :
    slots ((List.range n).map f) k = f k := by
  simp [slots, List.getD_eq_getElem?_getD, bound]

theorem range_map_slots {R : Type*} [Zero R] (xs : List R) :
    (List.range xs.length).map (slots xs) = xs := by
  apply List.ext_getElem
  · simp
  · intro k _ bound
    simp [slots, bound]

theorem transformSlot_opposite (direction : Direction) {d : ℕ} {w : GoldilocksField}
    (primitive : IsPrimitiveRoot w (2 ^ d)) (c : ℕ → GoldilocksField) {k : ℕ} (hk : k < 2 ^ d) :
    transformSlot (opposite direction) d w (transformSlot direction d w c) k = c k := by
  have nonzero : (2 ^ d : GoldilocksField) ≠ 0 := two_pow_ne_zero d
  have cast : ((2 ^ d : ℕ) : GoldilocksField) = 2 ^ d := by norm_cast
  cases direction with
  | Forward =>
      change (2 ^ d)⁻¹ * dft (2 ^ d) w⁻¹ (dft (2 ^ d) w c) k = c k
      rw [dft_inv_dft primitive c hk, cast, inv_mul_cancel_left₀ nonzero]
  | Inverse =>
      change dft (2 ^ d) w (fun j => (2 ^ d)⁻¹ * dft (2 ^ d) w⁻¹ c j) k = c k
      rw [dft_const_mul, dft_dft_inv primitive c hk, cast, inv_mul_cancel_left₀ nonzero]

theorem transform_opposite (direction : Direction) {d : ℕ} {w : GoldilocksField}
    (primitive : IsPrimitiveRoot w (2 ^ d)) (coefficients : List UInt64)
    (length : coefficients.length = 2 ^ d) :
    transform (opposite direction) d w ((transform direction d w coefficients).map canonicalU64) =
      coefficients.map residue := by
  have decoded : ((transform direction d w coefficients).map canonicalU64).map residue =
      (List.range (2 ^ d)).map
        (transformSlot direction d w (slots (coefficients.map residue))) := by
    simp only [transform, List.map_map, Function.comp_def, residue_canonicalU64]
  have whole := range_map_slots (coefficients.map residue)
  rw [List.length_map, length] at whole
  rw [transform, decoded, ← whole]
  apply List.map_congr_left
  intro k member
  have bound : k < 2 ^ d := List.mem_range.mp member
  rw [whole, ← transformSlot_opposite direction primitive (slots (coefficients.map residue)) bound]
  exact transformSlot_congr _ _ (fun j hj => slots_range_map _ hj) k

/-- Running one direction and then the other gives back the coefficients, reduced slot by slot. -/
theorem computeWasm_round_trip {G : P3Goldilocks} (exact : G.Exact)
    (sha256 : List UInt8 → Vector UInt8 32) (direction : Direction) (degree : PolyDegreeLog2)
    (coefficients : List UInt64) (length : coefficients.length = 2 ^ degree.get.toNat) :
    ∃ there back, computeWasm G sha256 .Goldilocks direction degree coefficients = .ok there ∧
      computeWasm G sha256 .Goldilocks (opposite direction) degree there.output = .ok back ∧
      back.output.map UInt64.toNat = coefficients.map (fun c => c.toNat % goldilocksPrime) ∧
      ((∀ c ∈ coefficients, c.toNat < goldilocksPrime) → back.output = coefficients) := by
  have primitive := generator_primitive exact degree
  have restored := transform_opposite direction primitive coefficients length
  refine ⟨_, _, computeWasm_eq exact sha256 direction degree coefficients length,
    computeWasm_eq exact sha256 (opposite direction) degree _ (by simp), ?_, ?_⟩
  · simp only [restored, List.map_map, Function.comp_def, canonicalU64_residue]
  · intro canonical
    rw [restored, List.map_map]
    refine (List.map_congr_left fun c member => ?_).trans (List.map_id coefficients)
    apply UInt64.toNat_inj.mp
    rw [Function.comp_apply, canonicalU64_residue, Nat.mod_eq_of_lt (canonical c member), id]

theorem computeWasm_round_trip_pair :
    ∃ there back, computeWasm referenceGoldilocks (fun _ => Vector.replicate 32 0) .Goldilocks
        .Inverse ⟨1, by decide⟩ [3, 18446744069414584326] = .ok there ∧
      computeWasm referenceGoldilocks (fun _ => Vector.replicate 32 0) .Goldilocks
        .Forward ⟨1, by decide⟩ there.output = .ok back ∧
      back.output.map UInt64.toNat =
        ([3, 18446744069414584326] : List UInt64).map (fun c => c.toNat % goldilocksPrime) ∧
      ((∀ c ∈ ([3, 18446744069414584326] : List UInt64), c.toNat < goldilocksPrime) →
        back.output = [3, 18446744069414584326]) :=
  computeWasm_round_trip referenceGoldilocks_exact _ .Inverse ⟨1, by decide⟩ _ (by decide)

end NttX402.Proof
