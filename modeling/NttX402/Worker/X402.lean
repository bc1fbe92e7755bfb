import NttX402.Worker.Crates
import NttX402.Worker.Host
import NttX402.Library.Text

namespace NttX402.Worker
open Library

structure PaymentEnvelope where
  asStr : String
  deriving DecidableEq

structure PaymentRequirementsJson where
  asStr : String
  deriving DecidableEq

structure FacilitatorUrl where
  asStr : String
  deriving DecidableEq

/-! ## Text helpers -/

/-- `char::is_whitespace`: the Unicode `White_Space` property. -/
def isWhitespace (c : Char) : Bool :=
  let n := c.toNat
  (0x9 ≤ n && n ≤ 0xd) || n = 0x20 || n = 0x85 || n = 0xa0 || n = 0x1680 ||
    (0x2000 ≤ n && n ≤ 0x200a) || n = 0x2028 || n = 0x2029 || n = 0x202f || n = 0x205f ||
    n = 0x3000

def stripWhitespace (s : String) : String :=
  String.ofList (s.toList.filter fun c => !isWhitespace c)

/-- `str::contains`. -/
def contains (s needle : String) : Bool := (find? needle.toList s.toList).isSome

def extractStringField (normalized key : String) : Option String := do
  let needle := "\"" ++ key ++ "\":\""
  let start ← find? needle.toList normalized.toList
  let valueStart := start + needle.toList.length
  let tail := normalized.toList.drop valueStart
  let stop ← tail.findIdx? (· = '"')
  return String.ofList (tail.take stop)

section Facilitator
variable (X : Crates)

def decodeSolanaSignature (s : String) : Except Error (Vector UInt8 64) :=
  match X.bs58Decode s with
  | .error e => .error (.settlement (.settleRejected s!"base58 decode: {e}"))
  | .ok bytes =>
    if size : bytes.toArray.size = 64 then .ok ⟨bytes.toArray, size⟩
    else .error (.settlement (.settleRejected s!"signature not 64 bytes (got {bytes.length})"))

/-! ## Bodies for the facilitator -/

def decodePaymentPayload (envelopeB64 : String) : Except Error String :=
  match X.base64Decode (utf8 envelopeB64) with
  | .error e => .error (.settlement (.verifyRejected s!"X-Payment base64 decode: {e}"))
  | .ok bytes =>
    match fromUtf8 bytes with
    | some payload => .ok payload
    | none =>
      .error (.settlement (.verifyRejected s!"X-Payment utf8 decode: {X.fromUtf8Error bytes}"))

def facilitatorBody (payloadJson requirements : String) : String :=
  "\x7b\"x402Version\":1,\"paymentPayload\":" ++ payloadJson ++
    ",\"paymentRequirements\":" ++ requirements ++ "\x7d"

def buildVerifyBody (envelope : PaymentEnvelope) (requirements : PaymentRequirementsJson) :
    Except Error String :=
  (decodePaymentPayload X envelope.asStr).map fun payloadJson =>
    facilitatorBody payloadJson requirements.asStr

def buildSettleBody (envelope : PaymentEnvelope) (requirements : PaymentRequirementsJson) :
    Except Error String :=
  ((decodePaymentPayload X envelope.asStr).mapError fun
    | .settlement (.verifyRejected detail) => .settlement (.settleRejected detail)
    | other => other).map fun payloadJson =>
      facilitatorBody payloadJson requirements.asStr

/-! ## Replies of the facilitator -/

def parseVerifyResponse (json : String) : Except Error Unit :=
  let normalized := stripWhitespace json
  if contains normalized "\"isValid\":true" then .ok ()
  else .error (.settlement (.verifyRejected json))

def parseSettleResponse (json : String) : Except Error PaymentTxHash :=
  let normalized := stripWhitespace json
  if contains normalized "\"success\":true" then
    match extractStringField normalized "transaction" with
    | none => .error (.settlement (.settleRejected s!"no transaction field in: {json}"))
    | some sigB58 => (decodeSolanaSignature X sigB58).map PaymentTxHash.mk
  else .error (.settlement (.settleRejected json))

/-! ## The calls -/

def postJson (url body : String) : Host (Except Error String) := do
  let transport (e : String) : Error := .settlement (.transport e)
  match ← newRequest ⟨url, body⟩ with
  | .error e => return .error (transport e)
  | .ok () =>
    match ← send ⟨url, body⟩ with
    | .error e => return .error (transport e)
    | .ok () => return (← text ⟨url, body⟩).mapError transport

def verifyAsync (facilitator : FacilitatorUrl) (envelope : PaymentEnvelope)
    (requirements : PaymentRequirementsJson) : Host (Except Error Unit) := do
  match buildVerifyBody X envelope requirements with
  | .error e => return .error e
  | .ok body =>
    let reply ← postJson (facilitator.asStr ++ "/verify") body
    return reply >>= parseVerifyResponse

def settleAsync (facilitator : FacilitatorUrl) (envelope : PaymentEnvelope)
    (requirements : PaymentRequirementsJson) : Host (Except Error PaymentTxHash) := do
  match buildSettleBody X envelope requirements with
  | .error e => return .error e
  | .ok body =>
    let reply ← postJson (facilitator.asStr ++ "/settle") body
    return reply >>= parseSettleResponse X

end Facilitator
end NttX402.Worker
