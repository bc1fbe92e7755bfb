import NttX402.Worker.Error

namespace NttX402.Worker

/-- `log2` of the transform length; the range check of the constructor is a field. -/
structure PolyDegreeLog2 where
  get : UInt8
  range : 1 ≤ get ∧ get ≤ 30
  deriving DecidableEq

def PolyDegreeLog2.new (value : UInt8) : Except ParseError PolyDegreeLog2 :=
  if range : 1 ≤ value ∧ value ≤ 30 then .ok ⟨value, range⟩
  else .error (.degreeOutOfRange value)

theorem PolyDegreeLog2.new_ok_iff {value : UInt8} {degree : PolyDegreeLog2} :
    PolyDegreeLog2.new value = .ok degree ↔ degree.get = value := by
  obtain ⟨get, range⟩ := degree
  unfold PolyDegreeLog2.new
  split
  · simp [eq_comm]
  · rename_i outside
    simp only [reduceCtorEq, false_iff]
    rintro rfl
    exact outside range

structure NttCallPriceMicrosUsdc where
  get : UInt64
  deriving DecidableEq

structure ChallengeNonce where
  asBytes : Vector UInt8 32
  deriving DecidableEq

structure ProofOfExecution where
  asBytes : Vector UInt8 32
  deriving DecidableEq

inductive Field
  | Goldilocks
  | BabyBear
  deriving DecidableEq

inductive Direction
  | Forward
  | Inverse
  deriving DecidableEq

structure DonorId where
  get : UInt32
  deriving DecidableEq

structure CloudInstanceId where
  get : UInt32
  deriving DecidableEq

inductive Backend
  | Wasm
  | Donor (donor : DonorId)
  | CloudFpga (instanceId : CloudInstanceId)
  deriving DecidableEq

structure MaxDegreeLog2 where
  get : UInt8
  deriving DecidableEq

inductive PrivacyMode
  | Logged
  | Opaque
  deriving DecidableEq

structure NttRequest where
  field : Field
  direction : Direction
  degreeLog2 : PolyDegreeLog2
  coefficients : List UInt64
  challenge : ChallengeNonce
  privacy : PrivacyMode
  deriving DecidableEq

structure PaymentTxHash where
  asBytes : Vector UInt8 64
  deriving DecidableEq

structure ResponseBytes where
  asSlice : List UInt8
  deriving DecidableEq

structure RequestBytes where
  asSlice : List UInt8
  deriving DecidableEq

end NttX402.Worker
