import NttX402.Library.Machine
import NttX402.Programs.Anchor
import NttX402.Worker.Crates

namespace NttX402.Programs
open Library

namespace PricingSchedule

def scheduleSeed : List UInt8 := Worker.utf8 "schedule"

structure Tier where
  maxLog2 : UInt8
  microsUsdc : UInt64
  deriving DecidableEq

def Tier.size : Nat := 1 + 8

structure ScheduleAccount where
  tiers : Vector Tier 4
  bump : UInt8
  deriving DecidableEq

def ScheduleAccount.size : Nat := 8 + 4 * Tier.size + 1

abbrev Schedules := Accounts ScheduleAccount

structure Initialize where
  schedule : AccountInfo
  deployer : AccountInfo
  systemProgram : AccountInfo

/-- The one instruction is a call of `initialize`. -/
structure Instruction where
  ctx : Context Initialize
  tiers : Vector Tier 4

-- The declared program id decodes to 33 bytes, one more than a key has: the key that the program
-- is deployed at is a parameter.
section Program
variable (R : Runtime) (programId : Pubkey)

def Initialize.tryAccounts (s : Schedules) (accounts : Initialize) : Except AnchorError UInt8 :=
  initAccounts R s accounts.schedule accounts.deployer accounts.systemProgram
    ScheduleAccount.size [scheduleSeed] programId

def initializeSchedule (s : Schedules) (ctx : Context Initialize) (tiers : Vector Tier 4) :
    Except AnchorError (Schedules × List Empty) := do
  let bump ← ctx.accounts.tryAccounts R programId s
  .ok (Function.update s ctx.accounts.schedule.key (some ⟨tiers, bump⟩), [])

def program : Machine Schedules Instruction AnchorError Empty where
  exec s i := initializeSchedule R programId s i.ctx i.tiers

variable {R programId} {s : Schedules} {accounts : Initialize} {bump : UInt8}

theorem Initialize.tryAccounts_eq_ok :
    accounts.tryAccounts R programId s = .ok bump ↔
      accounts.deployer.isSigner = true ∧ accounts.systemProgram.key = systemProgramId ∧
      R.findProgramAddress [scheduleSeed] programId = some (accounts.schedule.key, bump) ∧
      s accounts.schedule.key = none ∧
      R.fund accounts.deployer accounts.schedule ScheduleAccount.size = .ok () ∧
      accounts.schedule.isWritable = true ∧ accounts.deployer.isWritable = true :=
  initAccounts_eq_ok

theorem Initialize.address (accepted : accounts.tryAccounts R programId s = .ok bump) :
    R.findProgramAddress [scheduleSeed] programId = some (accounts.schedule.key, bump) :=
  (tryAccounts_eq_ok.mp accepted).2.2.1

theorem Initialize.fresh (accepted : accounts.tryAccounts R programId s = .ok bump) :
    s accounts.schedule.key = none :=
  (tryAccounts_eq_ok.mp accepted).2.2.2.1

end Program

def empty : Schedules := fun _ => none

end PricingSchedule
end NttX402.Programs
