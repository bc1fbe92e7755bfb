import NttX402.Proof.ServedRoundTrip

namespace NttX402.Proof
open Worker Library Library.Json

/-! ## What a response says -/

/-- A backend without its identifier. -/
inductive BackendTier
  | Wasm
  | Donor
  | CloudFpga
  deriving DecidableEq

def tierOf : Backend → BackendTier
  | .Wasm => .Wasm
  | .Donor _ => .Donor
  | .CloudFpga _ => .CloudFpga

def tierTag : BackendTier → String
  | .Wasm => "Wasm"
  | .Donor => "Donor"
  | .CloudFpga => "CloudFpga"

theorem backendTag_eq (b : Backend) : backendTag b = tierTag (tierOf b) := by
  cases b <;> rfl

structure ResponseContent where
  output : List UInt64
  proof : ProofOfExecution
  backend : BackendTier
  field : Field
  direction : Direction
  degreeLog2 : PolyDegreeLog2
  deriving DecidableEq

def contentOf (req : NttRequest) (outcome : ComputeOutcome) : ResponseContent :=
  ⟨outcome.output, outcome.proof, tierOf outcome.backend, req.field, req.direction, req.degreeLog2⟩

theorem contentOf_eq_iff {req req' : NttRequest} {outcome outcome' : ComputeOutcome} :
    contentOf req outcome = contentOf req' outcome' ↔
      outcome.output = outcome'.output ∧ outcome.proof = outcome'.proof ∧
        tierOf outcome.backend = tierOf outcome'.backend ∧ req.field = req'.field ∧
        req.direction = req'.direction ∧ req.degreeLog2 = req'.degreeLog2 := by
  simp only [contentOf, ResponseContent.mk.injEq]

/-! ## The decoder -/

def tier? (tag : String) : Option BackendTier :=
  [BackendTier.Wasm, .Donor, .CloudFpga].find? fun tier => tierTag tier = tag

theorem tier?_tierTag (tier : BackendTier) : tier? (tierTag tier) = some tier := by
  cases tier <;> decide

def digest? (hex : String) : Option ProofOfExecution := do
  let bytes ← unhex hex.toList
  if size : bytes.toArray.size = 32 then some ⟨⟨bytes.toArray, size⟩⟩ else none

theorem digest?_hexEncode (proof : ProofOfExecution) :
    digest? (hexEncode proof.asBytes.toList) = some proof := by
  rw [digest?, unhex_hexEncode, Option.bind_eq_bind, Option.bind_some, dif_pos (by simp)]
  rfl

/-- Field, direction and degree are read as the worker reads them in a request. -/
def decodeResponse (response : ResponseBytes) : Option ResponseContent := do
  let output ← readOutput response
  let text ← fromUtf8 response.asSlice
  let v ← parse text.toList
  let proof ← ((v.get "proof_of_execution").bind Value.asStr).bind digest?
  let backend ← ((v.get "backend").bind Value.asStr).bind tier?
  let field ← (parseField v).toOption
  let direction ← (parseDirection v).toOption
  let degreeLog2 ← (parseDegree v).toOption
  return ⟨output.map UInt64.ofNat, proof, backend, field, direction, degreeLog2⟩

theorem decodeResponse_buildResponseBytes (req : NttRequest) (outcome : ComputeOutcome) :
    decodeResponse (buildResponseBytes req outcome) = some (contentOf req outcome) := by
  have output := readOutput_buildResponseBytes req outcome
  have text : fromUtf8 (buildResponseBytes req outcome).asSlice = some (responseBody req outcome) :=
    fromUtf8_utf8 _
  have parsed := parse_eq_some_iff.mpr (renders_responseBody req outcome)
  obtain ⟨-, digest, backend, field, direction, degree⟩ := get_responseMembers req outcome
  have restored : (outcome.output.map UInt64.toNat).map UInt64.ofNat = outcome.output := by
    rw [List.map_map]
    refine (List.map_congr_left fun x _ => ?_).trans (List.map_id outcome.output)
    exact UInt64.ofNat_toNat
  have field := parseField_ok_iff.mpr field
  have direction := parseDirection_ok_iff.mpr direction
  have degree := parseDegree_ok_iff.mpr ⟨_, degree, _, rfl, Number.natural?_ofNat _⟩
  simp only [decodeResponse, output, text, parsed, digest, backend, Option.bind_some,
    digest?_hexEncode, backendTag_eq, tier?_tierTag, field, direction, degree, restored,
    Except.toOption, Option.bind_eq_bind, contentOf]
  rfl

theorem distinctNames_responseMembers (req : NttRequest) (outcome : ComputeOutcome) :
    (Value.object (responseMembers req outcome)).distinctNames = true := by
  have strings (xs : List UInt64) : elementsDistinct (xs.map outputValue) = true := by
    induction xs with
    | nil => rfl
    | cons x xs ih =>
        simp only [List.map_cons, elementsDistinct, ih, Bool.and_true, outputValue,
          Value.distinctNames]
  simp [responseMembers, Value.distinctNames, membersDistinct, strings]

theorem responseBody_congr {req req' : NttRequest} {outcome outcome' : ComputeOutcome}
    (same : contentOf req outcome = contentOf req' outcome') :
    responseBody req outcome = responseBody req' outcome' := by
  obtain ⟨output, proof, backend, field, direction, degree⟩ := contentOf_eq_iff.mp same
  unfold responseBody
  rw [backendTag_eq outcome.backend, backendTag_eq outcome'.backend, output, proof, backend, field,
    direction, degree]

/-! ## The result -/

/-- Every response is a JSON object that the decoder reads as its content, so two responses are
the same bytes exactly when they have the same content. -/
theorem buildResponseBytes_decodable :
    (∀ req outcome, ∃ text members,
      (buildResponseBytes req outcome).asSlice = utf8 text ∧
        Renders (.object members) text.toList ∧
        (Value.object members).distinctNames = true) ∧
    (∀ req outcome,
      decodeResponse (buildResponseBytes req outcome) = some (contentOf req outcome)) ∧
    ∀ req outcome req' outcome',
      buildResponseBytes req outcome = buildResponseBytes req' outcome' ↔
        outcome.output = outcome'.output ∧ outcome.proof = outcome'.proof ∧
          tierOf outcome.backend = tierOf outcome'.backend ∧ req.field = req'.field ∧
          req.direction = req'.direction ∧ req.degreeLog2 = req'.degreeLog2 := by
  refine ⟨?_, decodeResponse_buildResponseBytes, ?_⟩
  · intro req outcome
    exact ⟨responseBody req outcome, responseMembers req outcome, rfl,
      renders_responseBody req outcome, distinctNames_responseMembers req outcome⟩
  · intro req outcome req' outcome'
    rw [← contentOf_eq_iff]
    constructor
    · intro equal
      have decoded := decodeResponse_buildResponseBytes req outcome
      rw [equal, decodeResponse_buildResponseBytes] at decoded
      exact (Option.some.inj decoded).symm
    · intro same
      rw [buildResponseBytes, buildResponseBytes, responseBody_congr same]

end NttX402.Proof
