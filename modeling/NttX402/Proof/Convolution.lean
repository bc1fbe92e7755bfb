import NttX402.Proof.RoundTrip

namespace NttX402.Proof
open Worker Library Finset

/-! ## Products of transforms -/

def mulMod (a b : UInt64) : UInt64 := UInt64.ofNat (a.toNat * b.toNat % goldilocksPrime)

theorem mulMod_canonicalU64 (a b : GoldilocksField) :
    mulMod (canonicalU64 a) (canonicalU64 b) = canonicalU64 (a * b) := by
  rw [mulMod, canonicalU64_toNat, canonicalU64_toNat, ← ZMod.val_mul, canonicalU64]

def convolve (d : ℕ) (a b : List UInt64) : List UInt64 :=
  (List.range (2 ^ d)).map fun k => canonicalU64
    (cyclicConvolution (2 ^ d) (slots (a.map residue)) (slots (b.map residue)) k)

theorem convolve_length (d : ℕ) (a b : List UInt64) : (convolve d a b).length = 2 ^ d := by
  rw [convolve, List.length_map, List.length_range]

theorem map_residue_convolve (d : ℕ) (a b : List UInt64) :
    (convolve d a b).map residue = (List.range (2 ^ d)).map
      (cyclicConvolution (2 ^ d) (slots (a.map residue)) (slots (b.map residue))) := by
  rw [convolve, List.map_map]
  exact List.map_congr_left fun k _ => residue_canonicalU64 _

theorem zipWith_mulMod_transform {d : ℕ} {w : GoldilocksField} (period : w ^ 2 ^ d = 1)
    (a b : List UInt64) :
    List.zipWith mulMod ((transform .Forward d w a).map canonicalU64)
        ((transform .Forward d w b).map canonicalU64) =
      (transform .Forward d w (convolve d a b)).map canonicalU64 := by
  simp only [transform, List.map_map, List.zipWith_map, List.zipWith_self]
  apply List.map_congr_left
  intro k _
  simp only [Function.comp_apply, mulMod_canonicalU64, map_residue_convolve]
  congr 1
  calc transformSlot .Forward d w (slots (a.map residue)) k *
        transformSlot .Forward d w (slots (b.map residue)) k
      = dft (2 ^ d) w
          (cyclicConvolution (2 ^ d) (slots (a.map residue)) (slots (b.map residue))) k :=
        (dft_cyclicConvolution period _ _ k).symm
    _ = _ := (dft_congr (fun j bound => slots_range_map _ bound) w k).symm

/-! ## The convolution in numbers -/

theorem convolve_getElem (d : ℕ) (a b : List UInt64) {k : ℕ} (bound : k < (convolve d a b).length) :
    (convolve d a b)[k].toNat =
      (∑ i ∈ range (2 ^ d), ∑ j ∈ range (2 ^ d) with (i + j) % 2 ^ d = k,
        (a.getD i 0).toNat * (b.getD j 0).toNat) % goldilocksPrime := by
  simp only [convolve, List.getElem_map, List.getElem_range, canonicalU64_toNat, slots_residue,
    cyclicConvolution]
  rw [← ZMod.val_natCast]
  push_cast
  rfl

noncomputable def polynomialOf (c : List UInt64) : Polynomial GoldilocksField :=
  slotPolynomial c.length fun j => ((c.getD j 0).toNat : GoldilocksField)

theorem polynomialOf_convolve {d : ℕ} {a b : List UInt64} (la : a.length = 2 ^ d)
    (lb : b.length = 2 ^ d) :
    (Polynomial.X ^ 2 ^ d - 1 : Polynomial GoldilocksField) ∣
      polynomialOf a * polynomialOf b - polynomialOf (convolve d a b) := by
  have convolved : polynomialOf (convolve d a b) = slotPolynomial (2 ^ d)
      (cyclicConvolution (2 ^ d) (slots (a.map residue)) (slots (b.map residue))) := by
    rw [polynomialOf, convolve_length, ← slots_residue, map_residue_convolve]
    apply sum_congr rfl
    intro j member
    rw [slots_range_map _ (mem_range.mp member)]
  rw [convolved, polynomialOf, polynomialOf, la, lb, ← slots_residue, ← slots_residue]
  exact sub_one_dvd_slotPolynomial ..

/-! ## The result -/

/-- Two forward transforms, multiplied slot by slot and transformed back, give the cyclic
convolution, which is the product of the two polynomials modulo `X ^ 2 ^ d - 1`. -/
theorem computeWasm_multiplies {G : P3Goldilocks} (exact : G.Exact)
    (sha256 : List UInt8 → Vector UInt8 32) (degree : PolyDegreeLog2) (a b : List UInt64)
    (la : a.length = 2 ^ degree.get.toNat) (lb : b.length = 2 ^ degree.get.toNat) :
    ∃ A B C, computeWasm G sha256 .Goldilocks .Forward degree a = .ok A ∧
      computeWasm G sha256 .Goldilocks .Forward degree b = .ok B ∧
      computeWasm G sha256 .Goldilocks .Inverse degree (List.zipWith mulMod A.output B.output) =
        .ok C ∧
      C.output.length = 2 ^ degree.get.toNat ∧
      (∀ k (bound : k < C.output.length), C.output[k].toNat =
        (∑ i ∈ range (2 ^ degree.get.toNat),
          ∑ j ∈ range (2 ^ degree.get.toNat) with (i + j) % 2 ^ degree.get.toNat = k,
            (a.getD i 0).toNat * (b.getD j 0).toNat) % goldilocksPrime) ∧
      (Polynomial.X ^ 2 ^ degree.get.toNat - 1 : Polynomial GoldilocksField) ∣
        polynomialOf a * polynomialOf b - polynomialOf C.output := by
  have primitive := generator_primitive exact degree
  have products := zipWith_mulMod_transform primitive.pow_eq_one a b
  have restored := transform_opposite .Forward primitive (convolve degree.get.toNat a b)
    (convolve_length ..)
  have canonical : ((convolve degree.get.toNat a b).map residue).map canonicalU64 =
      convolve degree.get.toNat a b := by
    rw [map_residue_convolve, List.map_map]
    rfl
  refine ⟨_, _, _, computeWasm_eq exact sha256 .Forward degree a la,
    computeWasm_eq exact sha256 .Forward degree b lb,
    computeWasm_eq exact sha256 .Inverse degree _ ?_, ?_⟩
  · simp
  · dsimp only
    rw [products]
    have output : (transform .Inverse degree.get.toNat
        (G.val (G.twoAdicGenerator degree.get.toNat))
        ((transform .Forward degree.get.toNat (G.val (G.twoAdicGenerator degree.get.toNat))
          (convolve degree.get.toNat a b)).map canonicalU64)).map canonicalU64 =
        convolve degree.get.toNat a b := (congrArg (List.map canonicalU64) restored).trans canonical
    simp only [output]
    exact ⟨convolve_length .., fun k bound => convolve_getElem _ a b bound,
      polynomialOf_convolve la lb⟩

theorem computeWasm_multiplies_pair :
    ∃ A B C, computeWasm referenceGoldilocks (fun _ => Vector.replicate 32 0) .Goldilocks
        .Forward ⟨1, by decide⟩ [3, 18446744069414584326] = .ok A ∧
      computeWasm referenceGoldilocks (fun _ => Vector.replicate 32 0) .Goldilocks
        .Forward ⟨1, by decide⟩ [5, 7] = .ok B ∧
      computeWasm referenceGoldilocks (fun _ => Vector.replicate 32 0) .Goldilocks
        .Inverse ⟨1, by decide⟩ (List.zipWith mulMod A.output B.output) = .ok C ∧
      C.output.length = 2 ^ 1 ∧
      (∀ k (bound : k < C.output.length), C.output[k].toNat =
        (∑ i ∈ range (2 ^ 1), ∑ j ∈ range (2 ^ 1) with (i + j) % 2 ^ 1 = k,
          (([3, 18446744069414584326] : List UInt64).getD i 0).toNat *
            (([5, 7] : List UInt64).getD j 0).toNat) % goldilocksPrime) ∧
      (Polynomial.X ^ 2 ^ 1 - 1 : Polynomial GoldilocksField) ∣
        polynomialOf [3, 18446744069414584326] * polynomialOf [5, 7] - polynomialOf C.output :=
  computeWasm_multiplies referenceGoldilocks_exact _ ⟨1, by decide⟩ _ _ (by decide) (by decide)

end NttX402.Proof
