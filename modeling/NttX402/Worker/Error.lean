import Mathlib.Init

namespace NttX402.Worker

inductive ParseError
  | invalidUtf8
  | schemaMismatch (detail : String)
  | degreeOutOfRange (d : UInt8)
  deriving DecidableEq

def ParseError.display : ParseError → String
  | .invalidUtf8 => "body is not valid UTF-8 JSON"
  | .schemaMismatch detail => s!"schema mismatch: {detail}"
  | .degreeOutOfRange d => s!"log2(n) = {d} outside [1, 30]"

structure OutOfTierError where
  requestedLog2 : UInt8
  tierCapLog2 : UInt8
  deriving DecidableEq

def OutOfTierError.display (e : OutOfTierError) : String :=
  s!"requested log2(n) = {e.requestedLog2} exceeds free-tier cap {e.tierCapLog2}"

inductive SettlementError
  | missingPayment
  | verifyRejected (detail : String)
  | settleRejected (detail : String)
  | transport (detail : String)
  deriving DecidableEq

def SettlementError.display : SettlementError → String
  | .missingPayment => "no X-Payment header on request"
  | .verifyRejected d => s!"verify rejected: {d}"
  | .settleRejected d => s!"settle rejected: {d}"
  | .transport d => s!"facilitator transport error: {d}"

inductive RegistryError
  | rpcTransport (detail : String)
  | accountDeserialize (detail : String)
  | receiptEmitFailed (detail : String)
  deriving DecidableEq

def RegistryError.display : RegistryError → String
  | .rpcTransport d => s!"rpc transport: {d}"
  | .accountDeserialize d => s!"account deserialize: {d}"
  | .receiptEmitFailed d => s!"receipt emit failed: {d}"

inductive BackendError
  | simulatorFailed (detail : String)
  | donorFailed (detail : String)
  | cloudFpgaFailed (detail : String)
  deriving DecidableEq

def BackendError.display : BackendError → String
  | .simulatorFailed d => s!"verilator-wasm: {d}"
  | .donorFailed d => s!"donor backend: {d}"
  | .cloudFpgaFailed d => s!"cloud fpga: {d}"

inductive FaucetError
  | transport (detail : String)
  | rateLimited
  deriving DecidableEq

def FaucetError.display : FaucetError → String
  | .transport d => s!"faucet transport: {d}"
  | .rateLimited => "faucet rate-limited"

structure NotYetImplemented where
  subsystem : String
  deriving DecidableEq

def NotYetImplemented.display (e : NotYetImplemented) : String :=
  s!"{e.subsystem} not yet implemented"

inductive Error
  | parse (e : ParseError)
  | outOfTier (e : OutOfTierError)
  | settlement (e : SettlementError)
  | registry (e : RegistryError)
  | backend (e : BackendError)
  | faucet (e : FaucetError)
  | notYetImplemented (e : NotYetImplemented)
  deriving DecidableEq

end NttX402.Worker
