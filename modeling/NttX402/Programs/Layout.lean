import NttX402.Library.Codec
import NttX402.Programs.DonorRegistry
import NttX402.Programs.PricingSchedule
import NttX402.Programs.ReceiptRegistry

/-!
# Byte layouts of accounts and events

Anchor writes an account or an event as an eight-byte discriminator and the fields in the order of
their declaration, each in Borsh: words in little-endian order, arrays without their length.
-/

namespace NttX402.Programs
open Library

/-- The start of the hash of `account:Name` or `event:Name`. -/
def discriminator (sha256 : List UInt8 → Vector UInt8 32) (name : String) : List UInt8 :=
  (sha256 (Worker.utf8 name)).toList.take 8

@[simp] theorem discriminator_length (sha256 : List UInt8 → Vector UInt8 32) (name : String) :
    (discriminator sha256 name).length = 8 := by
  simp [discriminator]

def Pubkey.codec : Codec Pubkey :=
  (Codec.byte.vector 32).map ⟨Pubkey.mk, Pubkey.bytes, fun _ => rfl, fun _ => rfl⟩

theorem Pubkey.sized : Pubkey.codec.Sized 32 := (Codec.sized_byte.vector 32).map _

theorem Pubkey.encode_eq (key : Pubkey) : Pubkey.codec.encode key = key.asRef := by
  have bytes (l : List UInt8) : l.flatMap Codec.byte.encode = l := by
    induction l with
    | nil => rfl
    | cons b l ih => exact congrArg (b :: ·) ih
  exact bytes key.bytes.toList

theorem Pubkey.asRef_injective : Function.Injective Pubkey.asRef := by
  intro key key' same
  apply Pubkey.codec.encode_injective
  rw [Pubkey.encode_eq, Pubkey.encode_eq, same]

section Layouts
variable (sha256 : List UInt8 → Vector UInt8 32)

/-! ## The donor registry -/

namespace DonorRegistry
open Codec

def DonorAccount.fields : Codec DonorAccount :=
  (Pubkey.codec.seq (u32.seq (u16.seq (bool.seq byte)))).map
    { toFun := fun p => ⟨p.1, p.2.1, p.2.2.1, p.2.2.2.1, p.2.2.2.2⟩
      invFun := fun donor =>
        (donor.payout, donor.donorId, donor.shareBasisPoints, donor.active, donor.bump)
      left_inv := fun _ => rfl
      right_inv := fun _ => rfl }

def DonorAccount.codec : Codec DonorAccount :=
  DonorAccount.fields.tagged (discriminator sha256 "account:DonorAccount")

theorem DonorAccount.sized : (DonorAccount.codec sha256).Sized DonorAccount.size := by
  intro donor
  have fields : DonorAccount.fields.Sized (32 + (4 + (2 + (1 + 1)))) :=
    (Pubkey.sized.seq (sized_u32.seq (sized_u16.seq (sized_bool.seq sized_byte)))).map _
  rw [DonorAccount.codec, fields.tagged, discriminator_length]
  rfl

def SplitOwed.fields : Codec SplitOwed :=
  (u32.seq (Pubkey.codec.seq (u64.seq (u64.seq (byte.vector 16))))).map
    { toFun := fun p => ⟨p.1, p.2.1, p.2.2.1, p.2.2.2.1, p.2.2.2.2⟩
      invFun := fun e => (e.donorId, e.payout, e.owedMicrosUsdc, e.grossMicrosUsdc, e.jobId)
      left_inv := fun _ => rfl
      right_inv := fun _ => rfl }

def SplitOwed.codec : Codec SplitOwed :=
  SplitOwed.fields.tagged (discriminator sha256 "event:SplitOwed")

end DonorRegistry

/-! ## The pricing schedule -/

namespace PricingSchedule
open Codec

def Tier.codec : Codec Tier :=
  (byte.seq u64).map
    { toFun := fun p => ⟨p.1, p.2⟩
      invFun := fun tier => (tier.maxLog2, tier.microsUsdc)
      left_inv := fun _ => rfl
      right_inv := fun _ => rfl }

theorem Tier.sized : Tier.codec.Sized Tier.size := (sized_byte.seq sized_u64).map _

def ScheduleAccount.fields : Codec ScheduleAccount :=
  ((Tier.codec.vector 4).seq byte).map
    { toFun := fun p => ⟨p.1, p.2⟩
      invFun := fun schedule => (schedule.tiers, schedule.bump)
      left_inv := fun _ => rfl
      right_inv := fun _ => rfl }

def ScheduleAccount.codec : Codec ScheduleAccount :=
  ScheduleAccount.fields.tagged (discriminator sha256 "account:ScheduleAccount")

theorem ScheduleAccount.sized : (ScheduleAccount.codec sha256).Sized ScheduleAccount.size := by
  intro schedule
  have fields : ScheduleAccount.fields.Sized (4 * Tier.size + 1) :=
    ((Tier.sized.vector 4).seq sized_byte).map _
  rw [ScheduleAccount.codec, fields.tagged, discriminator_length]
  rfl

end PricingSchedule

/-! ## The receipt registry -/

namespace ReceiptRegistry
open Codec

def ReceiptEmitted.fields : Codec ReceiptEmitted :=
  (Pubkey.codec.seq ((byte.vector 16).seq ((byte.vector 32).seq ((byte.vector 64).seq
      ((byte.vector 32).seq (u64.seq byte)))))).map
    { toFun := fun p => ⟨p.1, p.2.1, p.2.2.1, p.2.2.2.1, p.2.2.2.2.1, p.2.2.2.2.2.1,
        p.2.2.2.2.2.2⟩
      invFun := fun e => (e.emitter, e.jobId, e.callerAddrHash, e.paymentTx, e.proofOfExecution,
        e.timestamp, e.backendTag)
      left_inv := fun _ => rfl
      right_inv := fun _ => rfl }

def ReceiptEmitted.codec : Codec ReceiptEmitted :=
  ReceiptEmitted.fields.tagged (discriminator sha256 "event:ReceiptEmitted")

end ReceiptRegistry
end Layouts
end NttX402.Programs
