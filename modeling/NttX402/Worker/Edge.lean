import NttX402.Worker.Handler
import NttX402.Worker.X402

namespace NttX402.Worker
open Library

def freeTierMaxMicrosUsdc : UInt64 := 10000

def resourceUrl : String := "https://ntt-x402.isurvivable.workers.dev/ntt"

def tierDescription : String := "Goldilocks NTT compute, log2(n) <= 12 on the free tier"

def maxTimeoutSeconds : UInt32 := 300

/-! ## Payment requirements -/

def requirementsTemplate (network usdcMint amount seller feePayer : String) : String :=
  "\x7b\"scheme\":\"exact\"," ++
    "\"network\":\"" ++ network ++ "\"," ++
    "\"asset\":\"" ++ usdcMint ++ "\"," ++
    "\"maxAmountRequired\":\"" ++ amount ++ "\"," ++
    "\"resource\":\"" ++ resourceUrl ++ "\"," ++
    "\"description\":\"" ++ tierDescription ++ "\"," ++
    "\"payTo\":\"" ++ seller ++ "\"," ++
    "\"maxTimeoutSeconds\":" ++ toString maxTimeoutSeconds ++ "," ++
    "\"extra\":\x7b\"feePayer\":\"" ++ feePayer ++ "\"\x7d" ++
    "\x7d"

def varOr (env : Env) (name default : String) : String :=
  match env name with
  | .ok value => value
  | .error _ => default

def networkOf (env : Env) : String :=
  match env "SOLANA_CLUSTER" with
  | .ok cluster => if cluster = "devnet" then "solana-devnet" else "solana"
  | .error _ => "solana"

/-- `build_requirements_json` with the amount as a parameter. -/
def requirementsAt (env : Env) (amount : UInt64) : PaymentRequirementsJson :=
  let sellerPubkey := varOr env "SELLER_PUBKEY" "11111111111111111111111111111111"
  let usdcMint := varOr env "USDC_MINT" "4zMMC9srt5Ri5X14GAgXhaHii3GnPAEERYPJgZJDncDU"
  let feePayer := varOr env "FACILITATOR_FEE_PAYER" "CKPKJWNdJEqa81x7CkZ14BVPiY6y16Sxs7owznqtWYp5"
  ⟨requirementsTemplate (networkOf env) usdcMint (toString amount) sellerPubkey feePayer⟩

def buildRequirementsJson (env : Env) : PaymentRequirementsJson :=
  requirementsAt env freeTierMaxMicrosUsdc

def readSettlementConfig (env : Env) : Except Error (FacilitatorUrl × PaymentRequirementsJson) :=
  match env "FACILITATOR_URL" with
  | .error e => .error (.settlement (.transport s!"FACILITATOR_URL var: {e}"))
  | .ok facilitator => .ok (⟨facilitator⟩, buildRequirementsJson env)

/-! ## Responses -/

def jsonHeaders : List (String × String) :=
  [("Content-Type", "application/json"), ("X-Service", "ntt-x402")]

def paymentResponseHeaders (paymentResponse : String) : List (String × String) :=
  [("Content-Type", "application/json"), ("X-Service", "ntt-x402"),
    ("X-Payment-Response", paymentResponse)]

def paymentResponseValue (X : Crates) (tx : PaymentTxHash) : String :=
  let signatureB58 := X.bs58Encode tx.asBytes.toList
  "\x7b\"network\":\"solana\",\"transaction\":\"" ++ signatureB58 ++ "\"\x7d"

def errorStatusAndBody : Error → Nat × String
  | .parse e => (400, s!"parse error: {e.display}")
  | .outOfTier e => (413, s!"out of tier: {e.display}")
  | .settlement e => (402, s!"settlement error: {e.display}")
  | .registry e => (502, s!"registry error: {e.display}")
  | .backend e => (500, s!"backend error: {e.display}")
  | .faucet e => (502, s!"faucet error: {e.display}")
  | .notYetImplemented e => (501, s!"not yet implemented: {e.display}")

/-- A `worker::Result<Response>`; the runtime's error is given by its text. -/
abbrev WorkerResult := Except String Response

/-- Builds a response and replaces its headers. -/
def respond (status : Nat) (headers : List (String × String)) (body : List UInt8) :
    Host WorkerResult := do
  return (← newResponse status).map fun () => ⟨status, headers, body⟩

def domainErrorResponse (err : Error) : Host WorkerResult :=
  let (status, body) := errorStatusAndBody err
  respond status jsonHeaders (utf8 body)

def respondPaymentRequired (env : Env) : Host WorkerResult :=
  let requirements := buildRequirementsJson env
  let body := "\x7b\"x402Version\":1,\"accepts\":[" ++ requirements.asStr ++ "]\x7d"
  respond 402 jsonHeaders (utf8 body)

/-! ## Paid requests -/

section Paid
variable (X : Crates)

def afterVerify (req : Request) (facilitator : FacilitatorUrl) (envelope : PaymentEnvelope)
    (requirements : PaymentRequirementsJson) : Host WorkerResult := do
  awaitBytes
  match req.body with
  | .error e => return .error e
  | .ok body =>
    match serve X ⟨body⟩ with
    | .error e => domainErrorResponse e
    | .ok responseBytes =>
      match ← settleAsync X facilitator envelope requirements with
      | .error e => domainErrorResponse e
      | .ok tx =>
        respond 200 (paymentResponseHeaders (paymentResponseValue X tx)) responseBytes.asSlice

def settleAndServe (req : Request) (env : Env) (envelopeB64 : String) : Host WorkerResult := do
  match readSettlementConfig env with
  | .error e => domainErrorResponse e
  | .ok (facilitator, requirements) =>
    let envelope : PaymentEnvelope := ⟨envelopeB64⟩
    match ← verifyAsync X facilitator envelope requirements with
    | .error e => domainErrorResponse e
    | .ok () => afterVerify X req facilitator envelope requirements

def handleNtt (req : Request) (env : Env) : Host WorkerResult :=
  let paymentValue := req.xPayment.toOption.join
  match paymentValue with
  | some envelopeB64 => settleAndServe X req env envelopeB64
  | none => respondPaymentRequired env

end Paid

/-! ## Discovery and routing -/

def serviceDescriptor : String :=
  "\x7b\n" ++
    "  \"service\": \"ntt-x402\",\n" ++
    "  \"version\": \"0.1.0\",\n" ++
    "  \"fields\": [\"Goldilocks\"],\n" ++
    "  \"directions\": [\"Forward\", \"Inverse\"],\n" ++
    "  \"max_degree_log2_free_tier\": 12,\n" ++
    "  \"x402_endpoint\": \x7b\"method\": \"POST\", \"path\": \"/ntt\"\x7d,\n" ++
    "  \"settlement_chain\": \"solana-mainnet\",\n" ++
    "  \"state_chain\": \"solana-devnet\",\n" ++
    "  \"tiers\": [\n" ++
    "    \x7b\"max_log2\": 8,  \"micros_usdc\": 1000\x7d,\n" ++
    "    \x7b\"max_log2\": 12, \"micros_usdc\": 10000\x7d,\n" ++
    "    \x7b\"max_log2\": 16, \"micros_usdc\": 100000\x7d,\n" ++
    "    \x7b\"max_log2\": 30, \"micros_usdc\": 1000000\x7d\n" ++
    "  ]\n" ++
    "\x7d"

def sampleRequest : String :=
  "\x7b\"field\":\"Goldilocks\",\"direction\":\"Forward\",\"degree_log2\":2," ++
    "\"coefficients\":[1,2,3,4]\x7d"

def sampleResponseShape : String :=
  "\x7b\"output\":[\"<u64 as string>\"],\"proof_of_execution\":\"<32-byte sha256 hex>\"," ++
    "\"backend\":\"Wasm|Donor|CloudFpga\",\"field\":\"Goldilocks|BabyBear\"," ++
    "\"direction\":\"Forward|Inverse\",\"degree_log2\":\"<0..30>\"\x7d"

def bazaarManifest (requirements : String) : String :=
  "\x7b\"x402Version\":1," ++
    "\"service\":\"ntt-x402\"," ++
    "\"version\":\"0.1.0\"," ++
    "\"endpoints\":[\x7b" ++
    "\"method\":\"POST\"," ++
    "\"accepts\":" ++ requirements ++ "," ++
    "\"sampleRequest\":" ++ sampleRequest ++ "," ++
    "\"sampleResponseShape\":" ++ sampleResponseShape ++
    "\x7d]\x7d"

def buildBazaarManifest (env : Env) : String :=
  bazaarManifest (buildRequirementsJson env).asStr

def jsonOk (body : String) : Host WorkerResult := respond 200 jsonHeaders (utf8 body)

inductive Method
  | Head | Get | Post | Put | Patch | Delete | Options | Connect | Trace | Report
  deriving DecidableEq

def dispatch (X : Crates) (method : Method) (path : String) (req : Request) (env : Env) :
    Host WorkerResult :=
  if method = .Get ∧ path = "/" then jsonOk serviceDescriptor
  else if method = .Get ∧ path = "/.well-known/x402" then jsonOk (buildBazaarManifest env)
  else if method = .Post ∧ path = "/ntt" then handleNtt X req env
  else respond 404 [] (utf8 "not found")

end NttX402.Worker
