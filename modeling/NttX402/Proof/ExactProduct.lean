import NttX402.Proof.Convolution
import NttX402.Proof.ServedRoundTrip

namespace NttX402.Proof
open Worker Library Finset

/-! ## Products of natural coefficients -/

noncomputable def naturalPolynomial (c : List UInt64) : Polynomial ℕ :=
  ∑ j ∈ range c.length, Polynomial.C (c.getD j 0).toNat * Polynomial.X ^ j

theorem coeff_naturalPolynomial (c : List UInt64) (k : ℕ) :
    (naturalPolynomial c).coeff k = (c.getD k 0).toNat := by
  simp only [naturalPolynomial, Polynomial.finsetSum_coeff, Polynomial.coeff_C_mul_X_pow,
    sum_ite_eq, mem_range]
  split_ifs with inside
  · rfl
  · simp [List.getD_eq_getElem?_getD, List.getElem?_eq_none (Nat.le_of_not_lt inside)]

theorem coeff_product (a b : List UInt64) (k : ℕ) :
    (naturalPolynomial a * naturalPolynomial b).coeff k =
      ∑ p ∈ antidiagonal k, (a.getD p.1 0).toNat * (b.getD p.2 0).toNat := by
  simp only [Polynomial.coeff_mul, coeff_naturalPolynomial]

theorem term_eq_zero {a b : List UInt64} {n : ℕ}
    (fits : (naturalPolynomial a * naturalPolynomial b).natDegree < n) {i j : ℕ}
    (beyond : n ≤ i + j) : (a.getD i 0).toNat * (b.getD j 0).toNat = 0 := by
  have zero : (naturalPolynomial a * naturalPolynomial b).coeff (i + j) = 0 :=
    Polynomial.coeff_eq_zero_of_natDegree_lt (by omega)
  rw [coeff_product, sum_eq_zero_iff] at zero
  exact zero (i, j) (mem_antidiagonal.mpr rfl)

theorem convolve_exact {d : ℕ} {a b : List UInt64}
    (fits : (naturalPolynomial a * naturalPolynomial b).natDegree < 2 ^ d)
    (small : ∀ k, (naturalPolynomial a * naturalPolynomial b).coeff k < goldilocksPrime) :
    (convolve d a b).map UInt64.toNat =
      (List.range (2 ^ d)).map (naturalPolynomial a * naturalPolynomial b).coeff := by
  apply List.ext_getElem
  · simp [convolve]
  · intro k bound _
    have inside : k < (convolve d a b).length := by simpa using bound
    have slot : k < 2 ^ d := by rwa [convolve_length] at inside
    have sum := sum_cyclic_of_short (fun i _ j _ beyond => term_eq_zero fits beyond) slot
    rw [List.getElem_map, convolve_getElem d a b inside, sum, ← coeff_product,
      Nat.mod_eq_of_lt (small k), List.getElem_map, List.getElem_range]

/-! ## Products by three requests -/

theorem zipWith_mulMod_toNat (A B : List UInt64) :
    (List.zipWith mulMod A B).map UInt64.toNat =
      List.zipWith (fun x y => x * y % goldilocksPrime) (A.map UInt64.toNat)
        (B.map UInt64.toNat) := by
  rw [List.map_zipWith, List.zipWith_map]
  congr 1
  funext x y
  have below : x.toNat * y.toNat % goldilocksPrime < goldilocksPrime := Nat.mod_lt _ (by decide)
  exact UInt64.toNat_ofNat_of_lt' (below.trans (by decide))

theorem transform_product {d : ℕ} {w : GoldilocksField} (primitive : IsPrimitiveRoot w (2 ^ d))
    (a b : List UInt64) :
    (transform .Inverse d w (List.zipWith mulMod ((transform .Forward d w a).map canonicalU64)
      ((transform .Forward d w b).map canonicalU64))).map canonicalU64 = convolve d a b := by
  have restored := transform_opposite .Forward primitive (convolve d a b) (convolve_length d a b)
  rw [zipWith_mulMod_transform primitive.pow_eq_one, ← opposite, restored, map_residue_convolve,
    List.map_map]
  rfl

/-- A client that multiplies the outputs of two forward requests slot by slot and sends them back
in an inverse one reads the coefficients of the product over the integers, when they fit. -/
theorem serve_multiplies {X : Crates} (accepts : X.AcceptsJson) (exact : X.goldilocks.Exact)
    (degree : PolyDegreeLog2) (within : degree.get ≤ 12) (a b : List UInt64)
    (la : a.length = 2 ^ degree.get.toNat) (lb : b.length = 2 ^ degree.get.toNat)
    (fits : (naturalPolynomial a * naturalPolynomial b).natDegree < 2 ^ degree.get.toNat)
    (small : ∀ k, (naturalPolynomial a * naturalPolynomial b).coeff k < goldilocksPrime) :
    ∃ first second third A B,
      serve X ⟨utf8 (requestBody .Forward degree (a.map UInt64.toNat))⟩ = .ok first ∧
      serve X ⟨utf8 (requestBody .Forward degree (b.map UInt64.toNat))⟩ = .ok second ∧
      readOutput first = some A ∧ readOutput second = some B ∧
      serve X ⟨utf8 (requestBody .Inverse degree
        (List.zipWith (fun x y => x * y % goldilocksPrime) A B))⟩ = .ok third ∧
      readOutput third = some ((List.range (2 ^ degree.get.toNat)).map
        (naturalPolynomial a * naturalPolynomial b).coeff) := by
  have forward (c : List UInt64) (length : c.length = 2 ^ degree.get.toNat) :=
    serve_requestBody accepts within (computeWasm_eq exact X.sha256 .Forward degree c length)
  obtain ⟨first, served, read⟩ := forward a la
  obtain ⟨second, served', read'⟩ := forward b lb
  have product := transform_product (generator_primitive exact degree) a b
  have back := computeWasm_eq exact X.sha256 .Inverse degree
    (List.zipWith mulMod ((transform .Forward degree.get.toNat
      (X.goldilocks.val (X.goldilocks.twoAdicGenerator degree.get.toNat)) a).map canonicalU64)
      ((transform .Forward degree.get.toNat
        (X.goldilocks.val (X.goldilocks.twoAdicGenerator degree.get.toNat)) b).map canonicalU64))
    (by simp)
  obtain ⟨third, served'', read''⟩ := serve_requestBody accepts within back
  rw [zipWith_mulMod_toNat] at served''
  rw [product, convolve_exact fits small] at read''
  exact ⟨first, second, third, _, _, served, served', read, read', served'', read''⟩

theorem product_pair : naturalPolynomial [3, 0] * naturalPolynomial [5, 7] =
    Polynomial.C 21 * Polynomial.X + Polynomial.C 15 := by
  have first : naturalPolynomial [3, 0] = Polynomial.C 3 := by
    simp [naturalPolynomial, sum_range_succ]
  have second : naturalPolynomial [5, 7] = Polynomial.C 7 * Polynomial.X + Polynomial.C 5 := by
    simp [naturalPolynomial, sum_range_succ, add_comm]
  rw [first, second, mul_add, ← mul_assoc, ← Polynomial.C_mul, ← Polynomial.C_mul]
  rfl

theorem serve_multiplies_pair :
    ∃ first second third A B,
      serve referenceCrates ⟨utf8 (requestBody .Forward ⟨1, by decide⟩
        (([3, 0] : List UInt64).map UInt64.toNat))⟩ = .ok first ∧
      serve referenceCrates ⟨utf8 (requestBody .Forward ⟨1, by decide⟩
        (([5, 7] : List UInt64).map UInt64.toNat))⟩ = .ok second ∧
      readOutput first = some A ∧ readOutput second = some B ∧
      serve referenceCrates ⟨utf8 (requestBody .Inverse ⟨1, by decide⟩
        (List.zipWith (fun x y => x * y % goldilocksPrime) A B))⟩ = .ok third ∧
      readOutput third = some ((List.range (2 ^ 1)).map
        (naturalPolynomial [3, 0] * naturalPolynomial [5, 7]).coeff) := by
  apply serve_multiplies referenceCrates_acceptsJson referenceGoldilocks_exact ⟨1, by decide⟩
    (by decide) [3, 0] [5, 7] (by decide) (by decide)
  · rw [product_pair]
    exact Nat.lt_of_le_of_lt Polynomial.natDegree_linear_le (by decide)
  · intro k
    rw [product_pair, Polynomial.coeff_add, Polynomial.coeff_C_mul, Polynomial.coeff_X,
      Polynomial.coeff_C]
    split_ifs <;> decide

end NttX402.Proof
