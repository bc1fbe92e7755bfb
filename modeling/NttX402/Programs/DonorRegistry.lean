import NttX402.Library.Machine
import NttX402.Programs.Anchor
import NttX402.Worker.Crates

namespace NttX402.Programs
open Library

namespace DonorRegistry

/-- `Dnr11111111111111111111111111111111111111111` -/
def programId : Pubkey :=
  ⟨#v[190, 10, 200, 180, 78, 28, 4, 109, 214, 29, 126, 100, 87, 89, 82, 106, 5, 122, 69, 241, 204,
    10, 173, 114, 58, 44, 14, 0, 0, 0, 0, 0]⟩

def donorSeed : List UInt8 := Worker.utf8 "donor"

def maxBasisPoints : UInt16 := 10000

structure DonorAccount where
  payout : Pubkey
  donorId : UInt32
  shareBasisPoints : UInt16
  active : Bool
  bump : UInt8
  deriving DecidableEq

def DonorAccount.size : Nat := 8 + 32 + 4 + 2 + 1 + 1

abbrev Registry := Accounts DonorAccount

structure SplitOwed where
  donorId : UInt32
  payout : Pubkey
  owedMicrosUsdc : UInt64
  grossMicrosUsdc : UInt64
  jobId : Vector UInt8 16
  deriving DecidableEq

inductive DonorRegistryError
  | shareExceedsMaxBasisPoints
  | shareArithmeticOverflow
  deriving DecidableEq

/-! ## Accounts of the instructions -/

def donorSeeds (payout : Pubkey) : List (List UInt8) := [donorSeed, payout.asRef]

structure RegisterDonor where
  donor : AccountInfo
  payout : AccountInfo
  registrar : AccountInfo
  systemProgram : AccountInfo

structure UpdateShare where
  donor : AccountInfo
  registrar : AccountInfo

structure SetActive where
  donor : AccountInfo
  registrar : AccountInfo

section TryAccounts
variable (R : Runtime) (s : Registry)

def RegisterDonor.tryAccounts (accounts : RegisterDonor) : Except AnchorError UInt8 :=
  initAccounts R s accounts.donor accounts.registrar accounts.systemProgram DonorAccount.size
    (donorSeeds accounts.payout.key) programId

/-- A stored donor at the address of its own payout key, with any signer. -/
def existingDonor (donor registrar : AccountInfo) : Except AnchorError DonorAccount := do
  let account ← Account.tryFrom s donor
  Signer.tryFrom registrar
  constraintSeeds R donor (donorSeeds account.payout) account.bump programId
  constraintMut donor
  pure account

def UpdateShare.tryAccounts (accounts : UpdateShare) : Except AnchorError DonorAccount :=
  existingDonor R s accounts.donor accounts.registrar

def SetActive.tryAccounts (accounts : SetActive) : Except AnchorError DonorAccount :=
  existingDonor R s accounts.donor accounts.registrar

variable {R s}

theorem RegisterDonor.tryAccounts_eq_ok {accounts : RegisterDonor} {bump : UInt8} :
    accounts.tryAccounts R s = .ok bump ↔
      accounts.registrar.isSigner = true ∧ accounts.systemProgram.key = systemProgramId ∧
      R.findProgramAddress (donorSeeds accounts.payout.key) programId =
        some (accounts.donor.key, bump) ∧
      s accounts.donor.key = none ∧
      R.fund accounts.registrar accounts.donor DonorAccount.size = .ok () ∧
      accounts.donor.isWritable = true ∧ accounts.registrar.isWritable = true :=
  initAccounts_eq_ok

theorem existingDonor_eq_ok {donor registrar : AccountInfo} {account : DonorAccount} :
    existingDonor R s donor registrar = .ok account ↔
      s donor.key = some account ∧ registrar.isSigner = true ∧
      R.createProgramAddress (donorSeeds account.payout ++ [[account.bump]]) programId =
        some donor.key ∧
      donor.isWritable = true := by
  unfold existingDonor
  rw [bind_eq_ok]
  simp only [check_bind_eq_ok, Account.tryFrom_eq_ok, Signer.tryFrom_eq_ok, constraintSeeds_eq_ok,
    constraintMut_eq_ok, pure, Except.pure, Except.ok.injEq]
  constructor
  · rintro ⟨stored, found, signer, seeds, writable, rfl⟩
    exact ⟨found, signer, seeds, writable⟩
  · rintro ⟨found, signer, seeds, writable⟩
    exact ⟨account, found, signer, seeds, writable, rfl⟩

theorem RegisterDonor.address {accounts : RegisterDonor} {bump : UInt8}
    (accepted : accounts.tryAccounts R s = .ok bump) :
    R.findProgramAddress (donorSeeds accounts.payout.key) programId =
      some (accounts.donor.key, bump) :=
  (tryAccounts_eq_ok.mp accepted).2.2.1

theorem RegisterDonor.fresh {accounts : RegisterDonor} {bump : UInt8}
    (accepted : accounts.tryAccounts R s = .ok bump) : s accounts.donor.key = none :=
  (tryAccounts_eq_ok.mp accepted).2.2.2.1

theorem RegisterDonor.ne_of_stored {accounts : RegisterDonor} {bump : UInt8} {a : Pubkey}
    {donor : DonorAccount} (accepted : accounts.tryAccounts R s = .ok bump)
    (stored : s a = some donor) : a ≠ accounts.donor.key :=
  ne_of_fresh (fresh accepted) stored

theorem existingDonor_stored {donor registrar : AccountInfo} {account : DonorAccount}
    (accepted : existingDonor R s donor registrar = .ok account) : s donor.key = some account :=
  (existingDonor_eq_ok.mp accepted).1

end TryAccounts

/-! ## Instructions -/

inductive Instruction
  | register (ctx : Context RegisterDonor) (shareBasisPoints : UInt16) (donorId : UInt32)
  | updateShare (ctx : Context UpdateShare) (shareBasisPoints : UInt16)
  | setActive (ctx : Context SetActive) (active : Bool)
  | emitSplit (ctx : Context SetActive) (grossMicrosUsdc : UInt64) (jobId : Vector UInt8 16)

def Instruction.accountInfos : Instruction → List AccountInfo
  | .register ctx _ _ =>
    [ctx.accounts.donor, ctx.accounts.payout, ctx.accounts.registrar,
      ctx.accounts.systemProgram] ++ ctx.remainingAccounts
  | .updateShare ctx _ => [ctx.accounts.donor, ctx.accounts.registrar] ++ ctx.remainingAccounts
  | .setActive ctx _ => [ctx.accounts.donor, ctx.accounts.registrar] ++ ctx.remainingAccounts
  | .emitSplit ctx _ _ => [ctx.accounts.donor, ctx.accounts.registrar] ++ ctx.remainingAccounts

def Instruction.signedBy (i : Instruction) (key : Pubkey) : Bool :=
  i.accountInfos.any fun info => info.key = key ∧ info.isSigner = true

abbrev Error := ProgramError DonorRegistryError

abbrev Outcome := Except Error (Registry × List SplitOwed)

def checkedMul (a b : Nat) : Option Nat := if a * b < 2 ^ 128 then some (a * b) else none

def checkedDiv (a b : Nat) : Option Nat := if b = 0 then none else some (a / b)

def u64TryFrom (n : Nat) : Option UInt64 :=
  if n < UInt64.size then some (UInt64.ofNat n) else none

def splitOwed (donor : DonorAccount) (grossMicrosUsdc : UInt64) (jobId : Vector UInt8 16) :
    Except DonorRegistryError SplitOwed :=
  let donorShare := (checkedMul grossMicrosUsdc.toNat donor.shareBasisPoints.toNat).bind fun n =>
    checkedDiv n maxBasisPoints.toNat
  match donorShare with
  | none => .error .shareArithmeticOverflow
  | some donorShare =>
    match u64TryFrom donorShare with
    | none => .error .shareArithmeticOverflow
    | some donorShareU64 =>
      .ok ⟨donor.donorId, donor.payout, donorShareU64, grossMicrosUsdc, jobId⟩

section Instructions
variable (R : Runtime) (s : Registry)

def register (ctx : Context RegisterDonor) (shareBasisPoints : UInt16) (donorId : UInt32) :
    Outcome := do
  let bump ← (ctx.accounts.tryAccounts R s).mapError .anchor
  if shareBasisPoints > maxBasisPoints then
    .error (.custom .shareExceedsMaxBasisPoints)
  else
    let donor := ⟨ctx.accounts.payout.key, donorId, shareBasisPoints, true, bump⟩
    .ok (Function.update s ctx.accounts.donor.key (some donor), [])

def updateShare (ctx : Context UpdateShare) (shareBasisPoints : UInt16) : Outcome := do
  let donor ← (ctx.accounts.tryAccounts R s).mapError .anchor
  if shareBasisPoints > maxBasisPoints then
    .error (.custom .shareExceedsMaxBasisPoints)
  else
    .ok (Function.update s ctx.accounts.donor.key
      (some { donor with shareBasisPoints := shareBasisPoints }), [])

def setActive (ctx : Context SetActive) (active : Bool) : Outcome := do
  let donor ← (ctx.accounts.tryAccounts R s).mapError .anchor
  .ok (Function.update s ctx.accounts.donor.key (some { donor with active := active }), [])

def emitSplit (ctx : Context SetActive) (grossMicrosUsdc : UInt64) (jobId : Vector UInt8 16) :
    Outcome := do
  let donor ← (ctx.accounts.tryAccounts R s).mapError .anchor
  let event ← (splitOwed donor grossMicrosUsdc jobId).mapError .custom
  .ok (s, [event])

end Instructions

def program (R : Runtime) : Machine Registry Instruction Error SplitOwed where
  exec s
    | .register ctx shareBasisPoints donorId => register R s ctx shareBasisPoints donorId
    | .updateShare ctx shareBasisPoints => updateShare R s ctx shareBasisPoints
    | .setActive ctx active => setActive R s ctx active
    | .emitSplit ctx grossMicrosUsdc jobId => emitSplit R s ctx grossMicrosUsdc jobId

def empty : Registry := fun _ => none

end DonorRegistry
end NttX402.Programs
