import NttX402.Worker.Backend
import NttX402.Library.Dft
import NttX402.Proof.GoldilocksField

namespace NttX402.Proof
open Worker Library

/-! ## The recursion -/

def slots {R : Type*} [Zero R] (xs : List R) (j : ℕ) : R := xs.getD j 0

theorem slots_stepByTwo {R : Type*} [Zero R] (xs : List R) :
    slots (stepByTwo xs) = fun j => slots xs (2 * j) := by
  funext j
  simp only [slots, List.getD_eq_getElem?_getD, stepByTwo_getElem?]

theorem slots_drop_one {R : Type*} [Zero R] (xs : List R) (j : ℕ) :
    slots (xs.drop 1) j = slots xs (j + 1) := by
  simp only [slots, List.getD_eq_getElem?_getD, List.getElem?_drop, Nat.add_comm]

theorem stepByTwo_map {α β : Type*} (f : α → β) (xs : List α) :
    (stepByTwo xs).map f = stepByTwo (xs.map f) := by
  fun_induction stepByTwo xs with
  | case1 => rfl
  | case2 a => rfl
  | case3 a b rest ih => simp only [List.map_cons, stepByTwo, ih]

theorem map_zip_zip {α R : Type*} (v : α → R) {xs ys zs : List α} {n : ℕ} {f g h : ℕ → R}
    (hx : xs.map v = (List.range n).map f) (hy : ys.map v = (List.range n).map g)
    (hz : zs.map v = (List.range n).map h) (op : α → α → α → α) (opR : R → R → R → R)
    (hom : ∀ a b c, v (op a b c) = opR (v a) (v b) (v c)) :
    (((xs.zip ys).zip zs).map fun ((a, b), c) => op a b c).map v =
      (List.range n).map fun k => opR (f k) (g k) (h k) := by
  have lx : xs.length = n := by simpa using congrArg List.length hx
  have ly : ys.length = n := by simpa using congrArg List.length hy
  have lz : zs.length = n := by simpa using congrArg List.length hz
  apply List.ext_getElem
  · simp [lx, ly, lz]
  · intro k bound _
    simp only [List.length_map, List.length_zip, lx, ly, lz, min_self] at bound
    have ex : v xs[k] = f k := by simpa [lx, bound] using congrArg (·[k]?) hx
    have ey : v ys[k] = g k := by simpa [ly, bound] using congrArg (·[k]?) hy
    have ez : v zs[k] = h k := by simpa [lz, bound] using congrArg (·[k]?) hz
    simp only [List.map_map, List.getElem_map, List.getElem_zip, Function.comp_apply,
      List.getElem_range, hom, ex, ey, ez]

section Recursion
variable {G : P3Goldilocks} (exact : G.Exact)
include exact

theorem twiddles_val (omega a : G.Elem) (n : ℕ) :
    (List.iterate (fun x => G.mul x omega) a n).map G.val =
      (List.range n).map fun k => G.val a * G.val omega ^ k := by
  induction n generalizing a with
  | zero => rfl
  | succ n ih =>
      rw [List.iterate, List.map_cons, ih, List.range_succ_eq_map, List.map_cons, List.map_map]
      congr 1
      · rw [pow_zero, mul_one]
      · apply List.map_congr_left
        intro k _
        rw [exact.val_mul, Function.comp_apply, pow_succ', mul_assoc]

/-- The recursive split computes the transform; the induction is on `log2` of the length. -/
theorem nttRecursive_val (m : ℕ) (coeffs : List G.Elem) (omega : G.Elem)
    (length : coeffs.length = 2 ^ m) (primitive : IsPrimitiveRoot (G.val omega) (2 ^ m)) :
    (nttRecursive G coeffs omega).map G.val =
      (List.range (2 ^ m)).map (dft (2 ^ m) (G.val omega) (slots (coeffs.map G.val))) := by
  induction m generalizing coeffs omega with
  | zero =>
      obtain ⟨c, rfl⟩ := List.length_eq_one_iff.mp length
      rw [nttRecursive_of_short G (by simp)]
      simp [dft_one, slots]
  | succ m ih =>
      have positive : 0 < 2 ^ m := by positivity
      have double : 2 ^ (m + 1) = 2 * 2 ^ m := by ring
      rw [double] at length primitive ⊢
      have half : coeffs.length / 2 = 2 ^ m := by omega
      have squared : G.val (G.mul omega omega) = G.val omega ^ 2 := by rw [exact.val_mul, sq]
      have primitive' : IsPrimitiveRoot (G.val (G.mul omega omega)) (2 ^ m) := by
        rw [squared]
        exact primitive.pow (by positivity) rfl
      have evens := ih (stepByTwo coeffs) (G.mul omega omega)
        (by rw [stepByTwo_length]; omega) primitive'
      have odds := ih (stepByTwo (coeffs.drop 1)) (G.mul omega omega)
        ((odds_length coeffs).trans half) primitive'
      have twiddles := twiddles_val exact omega G.one (2 ^ m)
      rw [squared, stepByTwo_map, slots_stepByTwo] at evens odds
      simp only [List.map_drop, slots_drop_one] at odds
      simp only [exact.val_one, one_mul] at twiddles
      have lower := map_zip_zip G.val evens odds twiddles
        (fun ek ok tk => G.add ek (G.mul tk ok)) (fun ek ok tk => ek + tk * ok)
        (fun ek ok tk => by rw [exact.val_add, exact.val_mul])
      have upper := map_zip_zip G.val evens odds twiddles
        (fun ek ok tk => G.sub ek (G.mul tk ok)) (fun ek ok tk => ek - tk * ok)
        (fun ek ok tk => by rw [exact.val_sub, exact.val_mul])
      rw [nttRecursive, if_neg (by omega)]
      simp only [half, List.map_append]
      rw [lower, upper, two_mul (2 ^ m), List.range_add, List.map_append, List.map_map]
      congr 1
      · apply List.map_congr_left
        intro k _
        rw [← two_mul, dft_two_mul]
      · apply List.map_congr_left
        intro k _
        rw [Function.comp_apply, ← two_mul, Nat.add_comm,
          dft_two_mul_upper (pow_half_of_isPrimitiveRoot primitive positive)]

end Recursion

/-! ## The two transforms -/

def residue (c : UInt64) : GoldilocksField := (c.toNat : GoldilocksField)

def canonicalU64 (a : GoldilocksField) : UInt64 := UInt64.ofNat a.val

@[simp] theorem canonicalU64_toNat (a : GoldilocksField) : (canonicalU64 a).toNat = a.val :=
  canonical_toNat a

@[simp] theorem residue_canonicalU64 (a : GoldilocksField) : residue (canonicalU64 a) = a := by
  rw [residue, canonicalU64_toNat, ZMod.natCast_zmod_val]

theorem slots_residue (coefficients : List UInt64) :
    slots (coefficients.map residue) =
      fun j => ((coefficients.getD j 0).toNat : GoldilocksField) := by
  funext j
  simp only [slots, List.getD_eq_getElem?_getD, List.getElem?_map]
  cases coefficients[j]? <;> simp [residue]

theorem canonicalU64_residue (c : UInt64) : (canonicalU64 (residue c)).toNat =
    c.toNat % goldilocksPrime := by
  rw [canonicalU64_toNat, residue, ZMod.val_natCast]

/-- Slot `k` of the forward or the inverse transform of length `2^d` at the root `w`. -/
def transformSlot (direction : Direction) (d : ℕ) (w : GoldilocksField)
    (c : ℕ → GoldilocksField) (k : ℕ) : GoldilocksField :=
  match direction with
  | .Forward => dft (2 ^ d) w c k
  | .Inverse => (2 ^ d : GoldilocksField)⁻¹ * dft (2 ^ d) w⁻¹ c k

theorem transformSlot_congr (direction : Direction) {d : ℕ} (w : GoldilocksField)
    {f g : ℕ → GoldilocksField} (agree : ∀ j < 2 ^ d, f j = g j) (k : ℕ) :
    transformSlot direction d w f k = transformSlot direction d w g k := by
  cases direction with
  | Forward => exact dft_congr agree w k
  | Inverse => simp only [transformSlot, dft_congr agree w⁻¹ k]

def transform (direction : Direction) (d : ℕ) (w : GoldilocksField)
    (coefficients : List UInt64) : List GoldilocksField :=
  (List.range (2 ^ d)).map (transformSlot direction d w (slots (coefficients.map residue)))

@[simp] theorem transform_length (direction : Direction) (d : ℕ) (w : GoldilocksField)
    (coefficients : List UInt64) : (transform direction d w coefficients).length = 2 ^ d := by
  simp [transform]

section Kernel
variable {G : P3Goldilocks} (exact : G.Exact)
include exact

theorem asCanonicalU64_eq (a : G.Elem) : G.asCanonicalU64 a = canonicalU64 (G.val a) := by
  apply UInt64.toNat_inj.mp
  rw [canonicalU64_toNat, P3Goldilocks.val, val_cast_of_lt (exact.canonical a)]

theorem map_asCanonicalU64 (xs : List G.Elem) :
    xs.map G.asCanonicalU64 = (xs.map G.val).map canonicalU64 := by
  rw [List.map_map]
  exact List.map_congr_left fun a _ => asCanonicalU64_eq exact a

theorem map_fromU64_val (coefficients : List UInt64) :
    (coefficients.map G.fromU64).map G.val = coefficients.map residue := by
  rw [List.map_map]
  exact List.map_congr_left fun c _ => exact.val_fromU64 c

theorem generator_primitive (degree : PolyDegreeLog2) :
    IsPrimitiveRoot (G.val (G.twoAdicGenerator degree.get.toNat)) (2 ^ degree.get.toNat) := by
  have bound : degree.get.toNat ≤ 30 := degree.range.2
  rw [← exact.orderOf_generator degree.get.toNat (by omega)]
  exact IsPrimitiveRoot.orderOf _

theorem tryInverse_ok {a : G.Elem} (nonzero : G.val a ≠ 0) :
    ∃ b, G.tryInverse a = some b ∧ G.val b = (G.val a)⁻¹ := by
  cases found : G.tryInverse a with
  | none => exact absurd (exact.tryInverse_none a found) nonzero
  | some b => exact ⟨b, rfl, eq_inv_of_mul_eq_one_right (exact.tryInverse_some a b found)⟩

theorem val_nField (degree : PolyDegreeLog2) :
    G.val (G.fromU64 (1 <<< degree.get.toUInt64)) = 2 ^ degree.get.toNat := by
  have bound : degree.get.toNat ≤ 30 := degree.range.2
  have shifted : ((1 : UInt64) <<< degree.get.toUInt64).toNat = 2 ^ degree.get.toNat := by
    have exponent : degree.get.toNat % 64 = degree.get.toNat := Nat.mod_eq_of_lt (by omega)
    have fits : 2 ^ degree.get.toNat < 2 ^ 64 := Nat.pow_lt_pow_right (by norm_num) (by omega)
    rw [UInt64.toNat_shiftLeft, UInt8.toNat_toUInt64, exponent, UInt64.toNat_one,
      Nat.one_shiftLeft, Nat.mod_eq_of_lt fits]
  rw [exact.val_fromU64, shifted]
  norm_cast

theorem goldilocksNtt_eq (direction : Direction) (degree : PolyDegreeLog2)
    (coefficients : List UInt64) (length : coefficients.length = 2 ^ degree.get.toNat) :
    goldilocksNtt G coefficients direction degree =
      .ok ((transform direction degree.get.toNat
        (G.val (G.twoAdicGenerator degree.get.toNat)) coefficients).map canonicalU64) := by
  have bound : degree.get.toNat ≤ 30 := degree.range.2
  have primitive := generator_primitive exact degree
  have length' : (coefficients.map G.fromU64).length = 2 ^ degree.get.toNat := by simpa
  have within : ¬ degree.get.toNat > G.twoAdicity := by
    rw [exact.twoAdicity_eq]
    omega
  unfold goldilocksNtt
  rw [if_neg within]
  cases direction with
  | Forward =>
      have result := nttRecursive_val exact _ _ _ length' primitive
      simp only [bind, Except.bind, map_asCanonicalU64 exact]
      rw [result, map_fromU64_val exact]
      rfl
  | Inverse =>
      obtain ⟨omegaInverse, found, inverse⟩ :=
        tryInverse_ok exact (primitive.ne_zero (by positivity))
      have nonzero : G.val (G.fromU64 (1 <<< degree.get.toUInt64)) ≠ 0 := by
        rw [val_nField exact]
        exact two_pow_ne_zero _
      obtain ⟨nInv, foundN, inverseN⟩ := tryInverse_ok exact nonzero
      have result := nttRecursive_val exact _ _ omegaInverse length' (inverse ▸ primitive.inv)
      have scaled (xs : List G.Elem) : (xs.map fun x => G.mul x nInv).map G.val =
          (xs.map G.val).map fun a => (2 ^ degree.get.toNat : GoldilocksField)⁻¹ * a := by
        simp only [List.map_map, Function.comp_def, exact.val_mul, inverseN, val_nField exact,
          mul_comm]
      simp only [bind, Except.bind, found, foundN, map_asCanonicalU64 exact]
      rw [scaled, result, map_fromU64_val exact, inverse]
      simp only [transform, List.map_map, Function.comp_def, transformSlot]

theorem computeWasm_eq (sha256 : List UInt8 → Vector UInt8 32) (direction : Direction)
    (degree : PolyDegreeLog2) (coefficients : List UInt64)
    (length : coefficients.length = 2 ^ degree.get.toNat) :
    let output := (transform direction degree.get.toNat
      (G.val (G.twoAdicGenerator degree.get.toNat)) coefficients).map canonicalU64
    computeWasm G sha256 .Goldilocks direction degree coefficients =
      .ok ⟨output, computeProof sha256 .Goldilocks direction degree output, .Wasm⟩ := by
  intro output
  unfold computeWasm dispatchField
  simp only [Nat.one_shiftLeft, length, if_true, goldilocksNtt_eq exact _ _ _ length, output]

end Kernel

/-! ## The results -/

/-- The software backend computes the naive transform: it succeeds on every vector of the right
length, and each output slot is the canonical representative of its sum. -/
theorem computeWasm_transform {G : P3Goldilocks} (exact : G.Exact)
    (sha256 : List UInt8 → Vector UInt8 32) (direction : Direction) (degree : PolyDegreeLog2)
    (coefficients : List UInt64) (length : coefficients.length = 2 ^ degree.get.toNat) :
    ∃ outcome, computeWasm G sha256 .Goldilocks direction degree coefficients = .ok outcome ∧
      outcome.output.length = 2 ^ degree.get.toNat ∧
      ∀ k (bound : k < outcome.output.length),
        outcome.output[k].toNat < goldilocksPrime ∧
        (outcome.output[k].toNat : GoldilocksField) =
          transformSlot direction degree.get.toNat
            (G.val (G.twoAdicGenerator degree.get.toNat))
            (fun j => ((coefficients.getD j 0).toNat : GoldilocksField)) k := by
  refine ⟨_, computeWasm_eq exact sha256 direction degree coefficients length, by simp, ?_⟩
  intro k bound
  simp only [List.getElem_map, canonicalU64_toNat, transform, List.getElem_range,
    ZMod.natCast_zmod_val, slots_residue, and_true]
  exact ZMod.val_lt _

theorem computeWasm_transform_pair :
    ∃ outcome, computeWasm referenceGoldilocks (fun _ => Vector.replicate 32 0) .Goldilocks
        .Forward ⟨1, by decide⟩ [3, 18446744069414584326] = .ok outcome ∧
      outcome.output.length = 2 ^ 1 ∧
      ∀ k (bound : k < outcome.output.length),
        outcome.output[k].toNat < goldilocksPrime ∧
        (outcome.output[k].toNat : GoldilocksField) =
          transformSlot .Forward 1
            (referenceGoldilocks.val (referenceGoldilocks.twoAdicGenerator 1))
            (fun j => ((([3, 18446744069414584326] : List UInt64).getD j 0).toNat :
              GoldilocksField)) k :=
  computeWasm_transform referenceGoldilocks_exact _ .Forward ⟨1, by decide⟩ _ (by decide)

end NttX402.Proof
