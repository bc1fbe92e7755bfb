import NttX402.Proof.Response
import NttX402.Proof.RoundTrip

namespace NttX402.Proof
open Worker Library

/-! ## Reading a transcript back -/

theorem toLeBytes_injective : Function.Injective toLeBytes := by
  intro x y equal
  rw [toLeBytes_eq, toLeBytes_eq] at equal
  have byte (i : Nat) (bound : i < 8) : x.toNat / 256 ^ i % 256 = y.toNat / 256 ^ i % 256 := by
    have slot := congrArg (fun bytes : List UInt8 => bytes[i]?.map UInt8.toNat) equal
    simpa [littleEndian, bound] using slot
  have small := x.toNat_lt
  have small' := y.toNat_lt
  have b0 := byte 0 (by decide)
  have b1 := byte 1 (by decide)
  have b2 := byte 2 (by decide)
  have b3 := byte 3 (by decide)
  have b4 := byte 4 (by decide)
  have b5 := byte 5 (by decide)
  have b6 := byte 6 (by decide)
  have b7 := byte 7 (by decide)
  apply UInt64.toNat_inj.mp
  norm_num at b0 b1 b2 b3 b4 b5 b6 b7
  omega

theorem flatMap_toLeBytes_injective {xs ys : List UInt64}
    (equal : xs.flatMap toLeBytes = ys.flatMap toLeBytes) : xs = ys := by
  induction xs generalizing ys with
  | nil =>
      cases ys with
      | nil => rfl
      | cons y ys => simp [toLeBytes] at equal
  | cons x xs ih =>
      cases ys with
      | nil => simp [toLeBytes] at equal
      | cons y ys =>
          obtain ⟨word, rest⟩ := List.append_inj equal (by simp [toLeBytes])
          rw [toLeBytes_injective word, ih rest]

theorem ofField_injective {field field' : Field}
    (equal : FieldTag.ofField field = FieldTag.ofField field') : field = field' := by
  cases field <;> cases field' <;> first | rfl | cases equal

theorem ofDirection_injective {direction direction' : Direction}
    (equal : DirectionTag.ofDirection direction = DirectionTag.ofDirection direction') :
    direction = direction' := by
  cases direction <;> cases direction' <;> first | rfl | cases equal

theorem transcript_injective {field field' : Field} {direction direction' : Direction}
    {degree degree' : PolyDegreeLog2} {output output' : List UInt64}
    (equal : transcript field direction degree output =
      transcript field' direction' degree' output') :
    field = field' ∧ direction = direction' ∧ degree = degree' ∧ output = output' := by
  obtain ⟨header, words⟩ := List.append_inj equal rfl
  simp only [List.cons.injEq, and_true] at header
  obtain ⟨fieldTag, directionTag, get⟩ := header
  obtain ⟨get, range⟩ := degree
  obtain ⟨get', range'⟩ := degree'
  refine ⟨ofField_injective (congrArg FieldTag.mk fieldTag),
    ofDirection_injective (congrArg DirectionTag.mk directionTag), ?_,
    flatMap_toLeBytes_injective words⟩
  subst get
  rfl

/-! ## The transform of a job -/

theorem transform_eq_iff (direction : Direction) {d : ℕ} {w : GoldilocksField}
    (primitive : IsPrimitiveRoot w (2 ^ d)) {coefficients coefficients' : List UInt64}
    (length : coefficients.length = 2 ^ d) (length' : coefficients'.length = 2 ^ d) :
    (transform direction d w coefficients).map canonicalU64 =
        (transform direction d w coefficients').map canonicalU64 ↔
      coefficients.map residue = coefficients'.map residue := by
  constructor
  · intro equal
    rw [← transform_opposite direction primitive coefficients length, equal,
      transform_opposite direction primitive coefficients' length']
  · intro same
    rw [transform, same, ← transform]

/-- The coefficients stand for the same field elements, slot by slot. -/
def Congruent (coefficients coefficients' : List UInt64) : Prop :=
  List.Forall₂ (fun c c' => c.toNat ≡ c'.toNat [MOD goldilocksPrime]) coefficients coefficients'

theorem congruent_iff {coefficients coefficients' : List UInt64} :
    Congruent coefficients coefficients' ↔
      coefficients.map residue = coefficients'.map residue := by
  rw [← List.forall₂_eq_eq_eq, List.forall₂_map_left_iff, List.forall₂_map_right_iff]
  simp only [Congruent, residue, ZMod.natCast_eq_natCast_iff]

/-- Two runs hash one transcript exactly when they are one job over the field; so their proofs
are equal exactly then, unless the hash collides on the two transcripts. -/
theorem transcript_binds {G : P3Goldilocks} (exact : G.Exact)
    {sha256 : List UInt8 → Vector UInt8 32} {field field' : Field}
    {direction direction' : Direction} {degree degree' : PolyDegreeLog2}
    {coefficients coefficients' : List UInt64} {outcome outcome' : ComputeOutcome}
    (ran : computeWasm G sha256 field direction degree coefficients = .ok outcome)
    (ran' : computeWasm G sha256 field' direction' degree' coefficients' = .ok outcome') :
    let hashed := transcript field direction degree outcome.output
    let hashed' := transcript field' direction' degree' outcome'.output
    (hashed = hashed' ↔
      direction = direction' ∧ degree = degree' ∧ Congruent coefficients coefficients') ∧
    ((sha256 hashed = sha256 hashed' → hashed = hashed') → (outcome.proof = outcome'.proof ↔
      direction = direction' ∧ degree = degree' ∧ Congruent coefficients coefficients')) := by
  intro hashed hashed'
  obtain ⟨rfl, length, output, proof⟩ := computeWasm_ok_inv exact ran
  obtain ⟨rfl, length', output', proof'⟩ := computeWasm_ok_inv exact ran'
  have binds : hashed = hashed' ↔
      direction = direction' ∧ degree = degree' ∧ Congruent coefficients coefficients' := by
    rw [congruent_iff]
    constructor
    · intro equal
      obtain ⟨-, rfl, rfl, outputs⟩ := transcript_injective equal
      rw [output, output'] at outputs
      exact ⟨rfl, rfl, (transform_eq_iff direction (generator_primitive exact degree)
        length length').mp outputs⟩
    · rintro ⟨rfl, rfl, same⟩
      have outputs := (transform_eq_iff direction (generator_primitive exact degree)
        length length').mpr same
      rw [← output, ← output'] at outputs
      simp only [hashed, hashed', outputs]
  refine ⟨binds, fun collisionFree => ?_⟩
  have proofs : outcome.proof = outcome'.proof ↔ sha256 hashed = sha256 hashed' := by
    rw [proof, proof']
    simp only [computeProof, ProofOfExecution.mk.injEq, hashed, hashed']
  rw [proofs, ← binds]
  exact ⟨collisionFree, congrArg sha256⟩

theorem transcript_binds_pair :
    let degree : PolyDegreeLog2 := ⟨1, by decide⟩
    let sha256 := referenceCrates.sha256
    ∃ outcome outcome',
      computeWasm referenceGoldilocks sha256 .Goldilocks .Forward degree
        [3, 18446744069414584326] = .ok outcome ∧
      computeWasm referenceGoldilocks sha256 .Goldilocks .Forward degree [3, 5] = .ok outcome' ∧
      let hashed := transcript .Goldilocks .Forward degree outcome.output
      let hashed' := transcript .Goldilocks .Forward degree outcome'.output
      (hashed = hashed' ↔ Direction.Forward = Direction.Forward ∧ degree = degree ∧
        Congruent [3, 18446744069414584326] [3, 5]) ∧
      ((sha256 hashed = sha256 hashed' → hashed = hashed') → (outcome.proof = outcome'.proof ↔
        Direction.Forward = Direction.Forward ∧ degree = degree ∧
          Congruent [3, 18446744069414584326] [3, 5])) := by
  intro degree sha256
  have ran := computeWasm_eq referenceGoldilocks_exact sha256 .Forward degree
    [3, 18446744069414584326] rfl
  have ran' := computeWasm_eq referenceGoldilocks_exact sha256 .Forward degree [3, 5] rfl
  exact ⟨_, _, ran, ran', transcript_binds referenceGoldilocks_exact ran ran'⟩

end NttX402.Proof
