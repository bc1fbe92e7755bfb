import NttX402.Library.Stored
import NttX402.Programs.Layout
import NttX402.Proof.DonorIndependence

namespace NttX402.Proof
open Library Programs

/-! ## The accounts of the programs -/

def donorStorage (sha256 : List UInt8 → Vector UInt8 32)
    (unreadable unwritable : DonorRegistry.Error) :
    Storage DonorRegistry.DonorAccount DonorRegistry.Error :=
  ⟨DonorRegistry.DonorAccount.codec sha256, DonorRegistry.DonorAccount.size, unreadable, unwritable⟩

def scheduleStorage (sha256 : List UInt8 → Vector UInt8 32) (unreadable unwritable : AnchorError) :
    Storage PricingSchedule.ScheduleAccount AnchorError :=
  ⟨PricingSchedule.ScheduleAccount.codec sha256, PricingSchedule.ScheduleAccount.size, unreadable,
    unwritable⟩

def scheduleKey (i : PricingSchedule.Instruction) : Pubkey := i.ctx.accounts.schedule.key

theorem schedule_local (R : Runtime) (programId : Pubkey) :
    (PricingSchedule.program R programId).Local scheduleKey := by
  intro s i
  have found : i.ctx.accounts.tryAccounts R programId (fun _ => s i.ctx.accounts.schedule.key) =
      i.ctx.accounts.tryAccounts R programId s := rfl
  simp only [Machine.cell, PricingSchedule.program, PricingSchedule.initializeSchedule, scheduleKey,
    found]
  cases i.ctx.accounts.tryAccounts R programId s with
  | error e => rfl
  | ok bump => simp [bind, Except.bind, Except.map]

/-! ## The bytes of the split log -/

open DonorRegistry in
theorem slice_split (sha256 : List UInt8 → Vector UInt8 32) (e : SplitOwed) :
    Codec.slice 12 32 ((SplitOwed.codec sha256).encode e) = e.payout.asRef := by
  have size : e.payout.asRef.length = 32 := by simp [Pubkey.asRef]
  have before : (discriminator sha256 "event:SplitOwed" ++ Codec.u32.encode e.donorId).length =
      12 := by
    rw [List.length_append, discriminator_length, Codec.sized_u32]
  rw [← Pubkey.encode_eq] at size ⊢
  have whole : (SplitOwed.codec sha256).encode e =
      (discriminator sha256 "event:SplitOwed" ++ Codec.u32.encode e.donorId) ++
        (Pubkey.codec.encode e.payout ++ (Codec.u64.encode e.owedMicrosUsdc ++
          (Codec.u64.encode e.grossMicrosUsdc ++ (Codec.byte.vector 16).encode e.jobId))) :=
    (List.append_assoc ..).symm
  rw [whole]
  exact Codec.slice_middle before size

/-- The programs run on the bytes of their accounts as they run on the accounts, and every account
fills the space that `init` asks for. The splits of a payout can be picked out of the bytes of the
log, and each of them is read back from its bytes. -/
theorem accounts_fit (sha256 : List UInt8 → Vector UInt8 32) (R : Runtime) :
    (∀ unreadable unwritable, (DonorRegistry.program R).RunsOnBytes donorKey
      (donorStorage sha256 unreadable unwritable)) ∧
    (∀ programId unreadable unwritable, (PricingSchedule.program R programId).RunsOnBytes
      scheduleKey (scheduleStorage sha256 unreadable unwritable)) ∧
    ∀ is, let log := (DonorRegistry.program R).emitted DonorRegistry.empty is
      let raw := log.map (DonorRegistry.SplitOwed.codec sha256).encode
      raw.map (DonorRegistry.SplitOwed.codec sha256).decode = log.map (fun e => some (e, [])) ∧
      ∀ payout : Pubkey, raw.filter (Codec.slice 12 32 · = payout.asRef) =
        (log.filter (·.payout = payout)).map (DonorRegistry.SplitOwed.codec sha256).encode := by
  refine ⟨?_, ?_, ?_⟩
  · intro unreadable unwritable
    exact (program_local R).runsOnBytes (DonorRegistry.DonorAccount.sized sha256)
  · intro programId unreadable unwritable
    exact (schedule_local R programId).runsOnBytes (PricingSchedule.ScheduleAccount.sized sha256)
  · intro is log raw
    refine ⟨Codec.map_decode_encode _ log, fun payout => ?_⟩
    exact Codec.filter_slice _ Pubkey.asRef_injective (slice_split sha256) log payout

end NttX402.Proof
