import NttX402.Proof.Convolution

namespace NttX402.Proof
open Worker Library

/-! ## Arithmetic on slots -/

def addMod (a b : UInt64) : UInt64 := UInt64.ofNat ((a.toNat + b.toNat) % goldilocksPrime)

def combine (s : UInt64) (a b : List UInt64) : List UInt64 :=
  List.zipWith (fun x y => addMod (mulMod s x) y) a b

theorem addMod_eq (a b : UInt64) : addMod a b = canonicalU64 (residue a + residue b) := by
  rw [addMod, canonicalU64, residue, residue, ← Nat.cast_add, ZMod.val_natCast]

theorem mulMod_eq (a b : UInt64) : mulMod a b = canonicalU64 (residue a * residue b) := by
  rw [mulMod, canonicalU64, residue, residue, ← Nat.cast_mul, ZMod.val_natCast]

theorem residue_combined (s x y : UInt64) :
    residue (addMod (mulMod s x) y) = residue s * residue x + residue y := by
  rw [addMod_eq, residue_canonicalU64, mulMod_eq, residue_canonicalU64]

theorem combined_canonicalU64 (s : UInt64) (x y : GoldilocksField) :
    addMod (mulMod s (canonicalU64 x)) (canonicalU64 y) = canonicalU64 (residue s * x + y) := by
  rw [addMod_eq, mulMod_eq]
  simp only [residue_canonicalU64]

/-! ## Linearity -/

theorem transformSlot_linear (direction : Direction) (d : ℕ) (w t : GoldilocksField)
    (f g : ℕ → GoldilocksField) (k : ℕ) :
    transformSlot direction d w (fun j => t * f j + g j) k =
      t * transformSlot direction d w f k + transformSlot direction d w g k := by
  cases direction with
  | Forward => simp only [transformSlot, dft_add, dft_const_mul]
  | Inverse =>
      simp only [transformSlot, dft_add, dft_const_mul]
      ring

theorem slots_combine {d : ℕ} {a b : List UInt64} (la : a.length = 2 ^ d) (lb : b.length = 2 ^ d)
    (s : UInt64) {j : ℕ} (bound : j < 2 ^ d) :
    slots ((combine s a b).map residue) j =
      residue s * slots (a.map residue) j + slots (b.map residue) j := by
  simp [slots, combine, List.getD_eq_getElem?_getD, la, lb, bound, residue_combined]

theorem transform_combine (direction : Direction) {d : ℕ} (w : GoldilocksField)
    {a b : List UInt64} (la : a.length = 2 ^ d) (lb : b.length = 2 ^ d) (s : UInt64) :
    transform direction d w (combine s a b) =
      List.zipWith (fun x y => residue s * x + y) (transform direction d w a)
        (transform direction d w b) := by
  simp only [transform, List.zipWith_map, List.zipWith_self]
  apply List.map_congr_left
  intro k _
  rw [← transformSlot_linear]
  exact transformSlot_congr direction w (fun j bound => slots_combine la lb s bound) k

/-- In either direction the transform of a linear combination is that combination of the
transforms. -/
theorem computeWasm_linear {G : P3Goldilocks} (exact : G.Exact)
    (sha256 : List UInt8 → Vector UInt8 32) (direction : Direction) (degree : PolyDegreeLog2)
    (s : UInt64) (a b : List UInt64) (la : a.length = 2 ^ degree.get.toNat)
    (lb : b.length = 2 ^ degree.get.toNat) :
    ∃ A B C, computeWasm G sha256 .Goldilocks direction degree a = .ok A ∧
      computeWasm G sha256 .Goldilocks direction degree b = .ok B ∧
      computeWasm G sha256 .Goldilocks direction degree (combine s a b) = .ok C ∧
      C.output = combine s A.output B.output := by
  refine ⟨_, _, _, computeWasm_eq exact sha256 direction degree a la,
    computeWasm_eq exact sha256 direction degree b lb,
    computeWasm_eq exact sha256 direction degree _ (by simp [combine, la, lb]), ?_⟩
  dsimp only
  rw [transform_combine direction _ la lb]
  simp only [combine, List.zipWith_map, List.map_zipWith, combined_canonicalU64]

theorem computeWasm_linear_pair :
    ∃ A B C, computeWasm referenceGoldilocks (fun _ => Vector.replicate 32 0) .Goldilocks
        .Inverse ⟨1, by decide⟩ [3, 18446744069414584326] = .ok A ∧
      computeWasm referenceGoldilocks (fun _ => Vector.replicate 32 0) .Goldilocks
        .Inverse ⟨1, by decide⟩ [5, 7] = .ok B ∧
      computeWasm referenceGoldilocks (fun _ => Vector.replicate 32 0) .Goldilocks
        .Inverse ⟨1, by decide⟩ (combine 11 [3, 18446744069414584326] [5, 7]) = .ok C ∧
      C.output = combine 11 A.output B.output :=
  computeWasm_linear referenceGoldilocks_exact _ .Inverse ⟨1, by decide⟩ 11 _ _ (by decide)
    (by decide)

/-! ## Reversal -/

theorem transform_getD (direction : Direction) {d : ℕ} (w : GoldilocksField) (c : List UInt64)
    {k : ℕ} (bound : k < 2 ^ d) :
    (((transform direction d w c).map canonicalU64).getD k 0).toNat =
      (transformSlot direction d w (slots (c.map residue)) k).val := by
  simp [transform, List.getD_eq_getElem?_getD, bound]

theorem scaled_val (d n : ℕ) :
    2 ^ d * n % goldilocksPrime = (2 ^ d * (n : GoldilocksField)).val := by
  rw [← ZMod.val_natCast]
  push_cast
  rfl

section Reversal
variable {d : ℕ} {w : GoldilocksField} (primitive : IsPrimitiveRoot w (2 ^ d))
  (c : ℕ → GoldilocksField) {k : ℕ} (bound : k < 2 ^ d)
include primitive bound

theorem inverseSlot_backwards :
    2 ^ d * transformSlot .Inverse d w c k =
      transformSlot .Forward d w c ((2 ^ d - k) % 2 ^ d) := by
  have nonzero : w ≠ 0 := primitive.ne_zero (by positivity)
  simp only [transformSlot]
  rw [mul_inv_cancel_left₀ (two_pow_ne_zero d), dft_mod primitive.pow_eq_one,
    dft_reverse primitive.pow_eq_one (mul_inv_cancel₀ nonzero) c bound.le]

theorem forwardSlot_twice :
    transformSlot .Forward d w (transformSlot .Forward d w c) k =
      2 ^ d * c ((2 ^ d - k) % 2 ^ d) := by
  have nonzero : w ≠ 0 := primitive.ne_zero (by positivity)
  have slot : (2 ^ d - k) % 2 ^ d < 2 ^ d := Nat.mod_lt _ (by positivity)
  have period : w⁻¹ ^ 2 ^ d = 1 := primitive.inv.pow_eq_one
  calc dft (2 ^ d) w (dft (2 ^ d) w c) k
      = dft (2 ^ d) w⁻¹ (dft (2 ^ d) w c) ((2 ^ d - k) % 2 ^ d) := by
        rw [dft_mod period, dft_reverse period (inv_mul_cancel₀ nonzero) _ bound.le]
    _ = ((2 ^ d : ℕ) : GoldilocksField) * c ((2 ^ d - k) % 2 ^ d) :=
        dft_inv_dft primitive c slot
    _ = 2 ^ d * c ((2 ^ d - k) % 2 ^ d) := by norm_cast

end Reversal

/-- The inverse direction is the forward one read backwards and scaled, and the forward one run
twice is the input read backwards and scaled. -/
theorem computeWasm_backwards {G : P3Goldilocks} (exact : G.Exact)
    (sha256 : List UInt8 → Vector UInt8 32) (degree : PolyDegreeLog2) (c : List UInt64)
    (length : c.length = 2 ^ degree.get.toNat) :
    ∃ forward inverse twice,
      computeWasm G sha256 .Goldilocks .Forward degree c = .ok forward ∧
      computeWasm G sha256 .Goldilocks .Inverse degree c = .ok inverse ∧
      computeWasm G sha256 .Goldilocks .Forward degree forward.output = .ok twice ∧
      ∀ k < 2 ^ degree.get.toNat,
        2 ^ degree.get.toNat * (inverse.output.getD k 0).toNat % goldilocksPrime =
          (forward.output.getD ((2 ^ degree.get.toNat - k) % 2 ^ degree.get.toNat) 0).toNat ∧
        (twice.output.getD k 0).toNat = 2 ^ degree.get.toNat *
          (c.getD ((2 ^ degree.get.toNat - k) % 2 ^ degree.get.toNat) 0).toNat %
            goldilocksPrime := by
  have primitive := generator_primitive exact degree
  refine ⟨_, _, _, computeWasm_eq exact sha256 .Forward degree c length,
    computeWasm_eq exact sha256 .Inverse degree c length,
    computeWasm_eq exact sha256 .Forward degree _ (by simp), fun k bound => ⟨?_, ?_⟩⟩
  · have slot : (2 ^ degree.get.toNat - k) % 2 ^ degree.get.toNat < 2 ^ degree.get.toNat :=
      Nat.mod_lt _ (by positivity)
    dsimp only
    rw [transform_getD .Inverse _ c bound, transform_getD .Forward _ c slot, scaled_val,
      ZMod.natCast_zmod_val, inverseSlot_backwards primitive _ bound]
  · have first : transformSlot .Forward degree.get.toNat
          (G.val (G.twoAdicGenerator degree.get.toNat))
          (slots (((transform .Forward degree.get.toNat
            (G.val (G.twoAdicGenerator degree.get.toNat)) c).map canonicalU64).map residue)) k =
        2 ^ degree.get.toNat * slots (c.map residue)
          ((2 ^ degree.get.toNat - k) % 2 ^ degree.get.toNat) := by
      rw [← forwardSlot_twice primitive _ bound]
      refine transformSlot_congr .Forward _ (fun j small => ?_) k
      rw [List.map_map, transform, List.map_map, slots_range_map _ small]
      simp only [Function.comp_apply, residue_canonicalU64]
    dsimp only
    rw [transform_getD .Forward _ _ bound, first, scaled_val, slots_residue]

theorem computeWasm_backwards_pair :
    ∃ forward inverse twice,
      computeWasm referenceGoldilocks (fun _ => Vector.replicate 32 0) .Goldilocks .Forward
        ⟨1, by decide⟩ [3, 18446744069414584326] = .ok forward ∧
      computeWasm referenceGoldilocks (fun _ => Vector.replicate 32 0) .Goldilocks .Inverse
        ⟨1, by decide⟩ [3, 18446744069414584326] = .ok inverse ∧
      computeWasm referenceGoldilocks (fun _ => Vector.replicate 32 0) .Goldilocks .Forward
        ⟨1, by decide⟩ forward.output = .ok twice ∧
      ∀ k < 2 ^ 1,
        2 ^ 1 * (inverse.output.getD k 0).toNat % goldilocksPrime =
          (forward.output.getD ((2 ^ 1 - k) % 2 ^ 1) 0).toNat ∧
        (twice.output.getD k 0).toNat = 2 ^ 1 *
          (([3, 18446744069414584326] : List UInt64).getD ((2 ^ 1 - k) % 2 ^ 1) 0).toNat %
            goldilocksPrime :=
  computeWasm_backwards referenceGoldilocks_exact _ ⟨1, by decide⟩ _ (by decide)

end NttX402.Proof
