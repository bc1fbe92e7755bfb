import NttX402.Worker.Backend
import NttX402.Worker.Quote
import NttX402.Worker.Crates

namespace NttX402.Worker
open Library

def freeTierMaxLog2 : UInt8 := 12

/-! ## The request -/

def parseField (json : Json.Value) : Except ParseError Field :=
  match (json.get "field").bind Json.Value.asStr with
  | none => .error (.schemaMismatch "missing or non-string 'field'")
  | some s =>
    if s = "Goldilocks" then .ok .Goldilocks
    else if s = "BabyBear" then .ok .BabyBear
    else .error (.schemaMismatch s!"unknown field '{s}', expected Goldilocks or BabyBear")

def parseDirection (json : Json.Value) : Except ParseError Direction :=
  match (json.get "direction").bind Json.Value.asStr with
  | none => .error (.schemaMismatch "missing or non-string 'direction'")
  | some s =>
    if s = "Forward" then .ok .Forward
    else if s = "Inverse" then .ok .Inverse
    else .error (.schemaMismatch s!"unknown direction '{s}', expected Forward or Inverse")

def parseDegree (json : Json.Value) : Except ParseError PolyDegreeLog2 :=
  match (json.get "degree_log2").bind Json.Value.asU64 with
  | none => .error (.schemaMismatch "missing or non-integer 'degree_log2'")
  | some n =>
    if n.toNat < 2 ^ 8 then PolyDegreeLog2.new n.toUInt8
    else .error (.schemaMismatch s!"degree_log2 {n} out of u8 range")

def parseCoefficient (v : Json.Value) : Except ParseError UInt64 :=
  match v.asU64 with
  | some c => .ok c
  | none => .error (.schemaMismatch "coefficient is not a non-negative integer")

def parseCoefficients (json : Json.Value) : Except ParseError (List UInt64) :=
  match (json.get "coefficients").bind Json.Value.asArray with
  | none => .error (.schemaMismatch "missing or non-array 'coefficients'")
  | some arr => arr.mapM parseCoefficient

/-- The part of `parse_request` that reads the JSON value. -/
def parseValue (json : Json.Value) : Except ParseError NttRequest := do
  let field ← parseField json
  let direction ← parseDirection json
  let degreeLog2 ← parseDegree json
  let coefficients ← parseCoefficients json
  return ⟨field, direction, degreeLog2, coefficients, ⟨Vector.replicate 32 0⟩, .Logged⟩

/-! ## The response -/

def nibbleToHex (n : UInt8) : Char :=
  if n ≤ 9 then Char.ofUInt8 (48 + n)
  else if n ≤ 15 then Char.ofUInt8 (97 + n - 10)
  else '?'

def hexEncode (bytes : List UInt8) : String :=
  String.ofList (bytes.flatMap fun (b : UInt8) => [nibbleToHex (b >>> 4), nibbleToHex (b &&& 0xf)])

def backendTag : Backend → String
  | .Wasm => "Wasm"
  | .Donor _ => "Donor"
  | .CloudFpga _ => "CloudFpga"

def fieldTag : Field → String
  | .Goldilocks => "Goldilocks"
  | .BabyBear => "BabyBear"

def directionTag : Direction → String
  | .Forward => "Forward"
  | .Inverse => "Inverse"

def responseBody (req : NttRequest) (outcome : ComputeOutcome) : String :=
  let proofHex := hexEncode outcome.proof.asBytes.toList
  let outputs := ",".intercalate (outcome.output.map fun x => "\"" ++ toString x ++ "\"")
  "\x7b\"output\":[" ++ outputs ++ "]," ++
    "\"proof_of_execution\":\"" ++ proofHex ++ "\"," ++
    "\"backend\":\"" ++ backendTag outcome.backend ++ "\"," ++
    "\"field\":\"" ++ fieldTag req.field ++ "\"," ++
    "\"direction\":\"" ++ directionTag req.direction ++ "\"," ++
    "\"degree_log2\":" ++ toString req.degreeLog2.get ++ "\x7d"

def buildResponseBytes (req : NttRequest) (outcome : ComputeOutcome) : ResponseBytes :=
  ⟨utf8 (responseBody req outcome)⟩

/-! ## The pipeline -/

section Pipeline
variable (X : Crates)

def parseRequest (bytes : List UInt8) : Except Error NttRequest := do
  let json ← (X.fromSlice bytes).mapError fun e => .parse (.schemaMismatch s!"invalid JSON: {e}")
  (parseValue json).mapError .parse

def parseAndQuote (bytes : List UInt8) : Except Error NttRequest := do
  let req ← parseRequest X bytes
  let _ ← (quoteFor req.degreeLog2 ⟨freeTierMaxLog2⟩).mapError .outOfTier
  return req

def runComputeToResponse (req : NttRequest) : Except Error ResponseBytes :=
  (computeWasm X.goldilocks X.sha256 req.field req.direction req.degreeLog2 req.coefficients).map
    (buildResponseBytes req)

/-- The result of running the `Io` that `serve` builds. -/
def serve (request : RequestBytes) : Except Error ResponseBytes :=
  parseAndQuote X request.asSlice >>= runComputeToResponse X

end Pipeline
end NttX402.Worker
