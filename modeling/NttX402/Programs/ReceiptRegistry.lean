import NttX402.Library.Machine
import NttX402.Programs.Anchor

namespace NttX402.Programs
open Library

namespace ReceiptRegistry

structure EmitReceipt where
  emitter : AccountInfo

structure ReceiptEmitted where
  emitter : Pubkey
  jobId : Vector UInt8 16
  callerAddrHash : Vector UInt8 32
  paymentTx : Vector UInt8 64
  proofOfExecution : Vector UInt8 32
  timestamp : UInt64
  backendTag : UInt8
  deriving DecidableEq

structure Instruction where
  ctx : Context EmitReceipt
  jobId : Vector UInt8 16
  callerAddrHash : Vector UInt8 32
  paymentTx : Vector UInt8 64
  proofOfExecution : Vector UInt8 32
  timestamp : UInt64
  backendTag : UInt8

def EmitReceipt.tryAccounts (accounts : EmitReceipt) : Except AnchorError Unit :=
  Signer.tryFrom accounts.emitter

def emit (i : Instruction) : Except AnchorError (List ReceiptEmitted) := do
  i.ctx.accounts.tryAccounts
  .ok [⟨i.ctx.accounts.emitter.key, i.jobId, i.callerAddrHash, i.paymentTx, i.proofOfExecution,
    i.timestamp, i.backendTag⟩]

def Instruction.accountInfos (i : Instruction) : List AccountInfo :=
  i.ctx.accounts.emitter :: i.ctx.remainingAccounts

def Instruction.signedBy (i : Instruction) (key : Pubkey) : Bool :=
  i.accountInfos.any fun info => info.key = key ∧ info.isSigner = true

/-- The program has no accounts of its own: the event log is the registry. -/
def program : Machine Unit Instruction AnchorError ReceiptEmitted where
  exec _ i := (emit i).map fun events => ((), events)

end ReceiptRegistry
end NttX402.Programs
