import NttX402.Worker.Types
import NttX402.Worker.Goldilocks

namespace NttX402.Worker

structure ComputeOutcome where
  output : List UInt64
  proof : ProofOfExecution
  backend : Backend
  deriving DecidableEq

/-- `Iterator::step_by(2)`. -/
def stepByTwo {α : Type*} : List α → List α
  | [] => []
  | [a] => [a]
  | a :: _ :: rest => a :: stepByTwo rest

theorem stepByTwo_length {α : Type*} (xs : List α) :
    (stepByTwo xs).length = (xs.length + 1) / 2 := by
  fun_induction stepByTwo xs with
  | case1 => simp
  | case2 a => simp
  | case3 a b rest ih => simp only [List.length_cons, ih]; omega

theorem odds_length {α : Type*} (xs : List α) :
    (stepByTwo (xs.drop 1)).length = xs.length / 2 := by
  rw [stepByTwo_length, List.length_drop]
  omega

theorem stepByTwo_getElem? {α : Type*} (xs : List α) (k : Nat) :
    (stepByTwo xs)[k]? = xs[2 * k]? := by
  fun_induction stepByTwo xs generalizing k with
  | case1 => simp
  | case2 a => cases k <;> simp [Nat.mul_succ]
  | case3 a b rest ih =>
      cases k with
      | zero => simp
      | succ k => simp [Nat.mul_succ, ih]

structure FieldTag where
  toU8 : UInt8
  deriving DecidableEq

def FieldTag.ofField : Field → FieldTag
  | .Goldilocks => ⟨0⟩
  | .BabyBear => ⟨1⟩

structure DirectionTag where
  toU8 : UInt8
  deriving DecidableEq

def DirectionTag.ofDirection : Direction → DirectionTag
  | .Forward => ⟨0⟩
  | .Inverse => ⟨1⟩

/-- `u64::to_le_bytes`. -/
def toLeBytes (x : UInt64) : List UInt8 :=
  [x.toUInt8, (x >>> 8).toUInt8, (x >>> 16).toUInt8, (x >>> 24).toUInt8,
    (x >>> 32).toUInt8, (x >>> 40).toUInt8, (x >>> 48).toUInt8, (x >>> 56).toUInt8]

/-- The bytes that `compute_proof` hashes. -/
def transcript (field : Field) (direction : Direction) (degree : PolyDegreeLog2)
    (output : List UInt64) : List UInt8 :=
  [(FieldTag.ofField field).toU8, (DirectionTag.ofDirection direction).toU8, degree.get] ++
    output.flatMap toLeBytes

section Compute
variable (G : P3Goldilocks) (sha256 : List UInt8 → Vector UInt8 32)

def nttRecursive (coeffs : List G.Elem) (omega : G.Elem) : List G.Elem :=
  if coeffs.length ≤ 1 then coeffs
  else
    let half := coeffs.length / 2
    let evens := stepByTwo coeffs
    let odds := stepByTwo (coeffs.drop 1)
    let omegaSq := G.mul omega omega
    let e := nttRecursive evens omegaSq
    let o := nttRecursive odds omegaSq
    let twiddles := List.iterate (fun x => G.mul x omega) G.one half
    let lower := ((e.zip o).zip twiddles).map fun ((ek, ok), tk) => G.add ek (G.mul tk ok)
    let upper := ((e.zip o).zip twiddles).map fun ((ek, ok), tk) => G.sub ek (G.mul tk ok)
    lower ++ upper
termination_by coeffs.length
decreasing_by
  all_goals simp only [stepByTwo_length, List.length_drop]; omega

theorem nttRecursive_of_short {coeffs : List G.Elem} (short : coeffs.length ≤ 1)
    (omega : G.Elem) : nttRecursive G coeffs omega = coeffs := by
  rw [nttRecursive, if_pos short]

def goldilocksNtt (coefficients : List UInt64) (direction : Direction)
    (degree : PolyDegreeLog2) : Except BackendError (List UInt64) :=
  let logN := degree.get.toNat
  if logN > G.twoAdicity then
    .error (.simulatorFailed
      s!"log2(n) = {logN} exceeds Goldilocks two-adicity {G.twoAdicity}")
  else do
    let omegaForward := G.twoAdicGenerator logN
    let omega ← match direction with
      | .Forward => .ok omegaForward
      | .Inverse => match G.tryInverse omegaForward with
        | some inverse => .ok inverse
        | none => .error (.simulatorFailed "primitive root has no inverse")
    let fieldIn := coefficients.map G.fromU64
    let result := nttRecursive G fieldIn omega
    let scaled ← match direction with
      | .Forward => .ok result
      | .Inverse =>
        let nField := G.fromU64 (1 <<< degree.get.toUInt64)
        match G.tryInverse nField with
        | some nInv => .ok (result.map fun x => G.mul x nInv)
        | none => .error (.simulatorFailed "n has no inverse")
    .ok (scaled.map G.asCanonicalU64)

def dispatchField (field : Field) (direction : Direction) (degree : PolyDegreeLog2)
    (coefficients : List UInt64) : Except BackendError (List UInt64) :=
  match field with
  | .Goldilocks => goldilocksNtt G coefficients direction degree
  | .BabyBear => .error (.simulatorFailed "BabyBear backend lands in v0.2")

def computeProof (field : Field) (direction : Direction) (degree : PolyDegreeLog2)
    (output : List UInt64) : ProofOfExecution :=
  ⟨sha256 (transcript field direction degree output)⟩

/-- The result of running `compute_wasm`. The shift stays below `2^31`, so a 32-bit `usize`
holds it. -/
def computeWasm (field : Field) (direction : Direction) (degree : PolyDegreeLog2)
    (coefficients : List UInt64) : Except Error ComputeOutcome :=
  let n := 1 <<< degree.get.toNat
  let len := coefficients.length
  if len = n then
    match dispatchField G field direction degree coefficients with
    | .ok output =>
        .ok ⟨output, computeProof sha256 field direction degree output, .Wasm⟩
    | .error e => .error (.backend e)
  else .error (.backend (.simulatorFailed s!"expected {n} coefficients, got {len}"))

end Compute

end NttX402.Worker
