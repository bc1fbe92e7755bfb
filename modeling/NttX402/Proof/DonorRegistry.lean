import NttX402.Library.Portion
import NttX402.Programs.DonorRegistry
import Mathlib.Tactic.Common

namespace NttX402.Proof
open Library Programs Programs.DonorRegistry

/-! ## What an instruction does -/

inductive Effect (R : Runtime) (s : Registry) : Instruction → Registry → List SplitOwed → Prop
  | register {ctx : Context RegisterDonor} {shareBasisPoints : UInt16} {donorId : UInt32}
      {bump : UInt8} (accepted : ctx.accounts.tryAccounts R s = .ok bump)
      (within : shareBasisPoints ≤ maxBasisPoints) :
      Effect R s (.register ctx shareBasisPoints donorId)
        (Function.update s ctx.accounts.donor.key
          (some ⟨ctx.accounts.payout.key, donorId, shareBasisPoints, true, bump⟩)) []
  | updateShare {ctx : Context UpdateShare} {shareBasisPoints : UInt16} {donor : DonorAccount}
      (accepted : existingDonor R s ctx.accounts.donor ctx.accounts.registrar = .ok donor)
      (within : shareBasisPoints ≤ maxBasisPoints) :
      Effect R s (.updateShare ctx shareBasisPoints)
        (Function.update s ctx.accounts.donor.key
          (some { donor with shareBasisPoints := shareBasisPoints })) []
  | setActive {ctx : Context SetActive} {active : Bool} {donor : DonorAccount}
      (accepted : existingDonor R s ctx.accounts.donor ctx.accounts.registrar = .ok donor) :
      Effect R s (.setActive ctx active)
        (Function.update s ctx.accounts.donor.key (some { donor with active := active })) []
  | emitSplit {ctx : Context SetActive} {gross : UInt64} {jobId : Vector UInt8 16}
      {donor : DonorAccount} {event : SplitOwed}
      (accepted : existingDonor R s ctx.accounts.donor ctx.accounts.registrar = .ok donor)
      (owed : splitOwed donor gross jobId = .ok event) :
      Effect R s (.emitSplit ctx gross jobId) s [event]

variable {R : Runtime}

theorem Effect.of_exec {s s' : Registry} {i : Instruction} {events : List SplitOwed}
    (ok : (program R).exec s i = .ok (s', events)) : Effect R s i s' events := by
  cases i with
  | register ctx share donorId =>
      obtain ⟨bump, accepted, ok⟩ := bind_eq_ok.mp ok
      obtain ⟨within, ok⟩ := ite_error_eq_ok.mp ok
      obtain ⟨rfl, rfl⟩ := Prod.mk.inj (Except.ok.inj ok)
      exact .register (mapError_eq_ok.mp accepted) (UInt16.not_lt.mp within)
  | updateShare ctx share =>
      obtain ⟨donor, accepted, ok⟩ := bind_eq_ok.mp ok
      obtain ⟨within, ok⟩ := ite_error_eq_ok.mp ok
      obtain ⟨rfl, rfl⟩ := Prod.mk.inj (Except.ok.inj ok)
      exact .updateShare (mapError_eq_ok.mp accepted) (UInt16.not_lt.mp within)
  | setActive ctx active =>
      obtain ⟨donor, accepted, ok⟩ := bind_eq_ok.mp ok
      obtain ⟨rfl, rfl⟩ := Prod.mk.inj (Except.ok.inj ok)
      exact .setActive (mapError_eq_ok.mp accepted)
  | emitSplit ctx gross jobId =>
      obtain ⟨donor, accepted, ok⟩ := bind_eq_ok.mp ok
      obtain ⟨event, owed, ok⟩ := bind_eq_ok.mp ok
      obtain ⟨rfl, rfl⟩ := Prod.mk.inj (Except.ok.inj ok)
      exact .emitSplit (mapError_eq_ok.mp accepted) (mapError_eq_ok.mp owed)

theorem Effect.exec {s s' : Registry} {i : Instruction} {events : List SplitOwed}
    (effect : Effect R s i s' events) : (program R).exec s i = .ok (s', events) := by
  cases effect with
  | register accepted within =>
      refine bind_eq_ok.mpr ⟨_, mapError_eq_ok.mpr accepted, ?_⟩
      exact ite_error_eq_ok.mpr ⟨UInt16.not_lt.mpr within, rfl⟩
  | updateShare accepted within =>
      refine bind_eq_ok.mpr ⟨_, mapError_eq_ok.mpr accepted, ?_⟩
      exact ite_error_eq_ok.mpr ⟨UInt16.not_lt.mpr within, rfl⟩
  | setActive accepted => exact bind_eq_ok.mpr ⟨_, mapError_eq_ok.mpr accepted, rfl⟩
  | emitSplit accepted owed =>
      refine bind_eq_ok.mpr ⟨_, mapError_eq_ok.mpr accepted, ?_⟩
      exact bind_eq_ok.mpr ⟨_, mapError_eq_ok.mpr owed, rfl⟩

theorem exec_eq_ok_iff {s s' : Registry} {i : Instruction} {events : List SplitOwed} :
    (program R).exec s i = .ok (s', events) ↔ Effect R s i s' events :=
  ⟨.of_exec, Effect.exec⟩

abbrev Step := Transition Registry Instruction Error SplitOwed

theorem step_cases (s : Registry) (i : Instruction) :
    (∃ e, (program R).step s i = ⟨s, i, .error e⟩) ∨
      ∃ s' events, (program R).step s i = ⟨s, i, .ok (s', events)⟩ ∧ Effect R s i s' events := by
  rcases (program R).step_cases s i with failed | ⟨s', events, step, ok⟩
  · exact .inl failed
  · exact .inr ⟨s', events, step, exec_eq_ok_iff.mp ok⟩

/-! ## Splits -/

theorem shareBasisPoints_le {share : UInt16} (within : share ≤ maxBasisPoints) :
    share.toNat ≤ 10000 := UInt16.le_iff_toNat_le.mp within

section SplitOwed
variable (donor : DonorAccount) (gross : UInt64) (jobId : Vector UInt8 16)

def owed : UInt64 := UInt64.ofNat (portion 10000 gross.toNat donor.shareBasisPoints.toNat)

variable {donor} (within : donor.shareBasisPoints ≤ maxBasisPoints)
include within

theorem owed_toNat :
    (owed donor gross).toNat = portion 10000 gross.toNat donor.shareBasisPoints.toNat := by
  have bound : portion 10000 gross.toNat donor.shareBasisPoints.toNat ≤ gross.toNat :=
    portion_le (shareBasisPoints_le within)
  have size := gross.toNat_lt_size
  exact UInt64.toNat_ofNat_of_lt' (Nat.lt_of_le_of_lt bound size)

theorem splitOwed_eq : splitOwed donor gross jobId =
    .ok ⟨donor.donorId, donor.payout, owed donor gross, gross, jobId⟩ := by
  have share := shareBasisPoints_le within
  have size : gross.toNat < 2 ^ 64 := gross.toNat_lt
  have multiplied : checkedMul gross.toNat donor.shareBasisPoints.toNat =
      some (gross.toNat * donor.shareBasisPoints.toNat) :=
    if_pos (Nat.lt_of_le_of_lt (Nat.mul_le_mul_left _ share) (by omega))
  have divided : checkedDiv (gross.toNat * donor.shareBasisPoints.toNat) maxBasisPoints.toNat =
      some (portion 10000 gross.toNat donor.shareBasisPoints.toNat) := rfl
  have narrowed : u64TryFrom (portion 10000 gross.toNat donor.shareBasisPoints.toNat) =
      some (owed donor gross) :=
    if_pos (Nat.lt_of_le_of_lt (portion_le share) size)
  simp only [splitOwed, multiplied, Option.bind_some, divided, narrowed]

end SplitOwed

/-! ## Concrete instructions -/

def solePubkey (byte : UInt8) : Pubkey := ⟨Vector.replicate 32 byte⟩

/-- The donor account address of `solePubkey 5`. -/
def donorFive : Pubkey :=
  ⟨#v[43, 148, 219, 202, 202, 235, 66, 8, 170, 103, 176, 139, 83, 99, 71, 153, 6, 17, 224, 13, 59,
    90, 41, 248, 43, 54, 53, 92, 24, 28, 126, 110]⟩

/-- The donor account address of `solePubkey 6`. -/
def donorSix : Pubkey :=
  ⟨#v[41, 183, 65, 137, 142, 49, 72, 71, 129, 201, 178, 138, 224, 250, 139, 92, 183, 41, 131, 202,
    221, 104, 149, 139, 77, 60, 116, 193, 32, 22, 145, 254]⟩

/-- The runtime as far as two payout keys and the rent of an account need it. -/
def referenceRuntime : Runtime where
  createProgramAddress seeds program :=
    if program ≠ programId then none
    else if seeds = donorSeeds (solePubkey 5) ++ [[255]] then some donorFive
    else if seeds = donorSeeds (solePubkey 6) ++ [[255]] then some donorSix
    else none
  fund payer account space :=
    if ¬(payer.isSigner ∧ payer.isWritable ∧ account.isWritable) then
      .error "Cross-program invocation with unauthorized signer or writable account"
    else if payer.lamports.toNat + account.lamports.toNat < (128 + space) * 6960 then
      .error "account does not have enough SOL to perform the operation"
    else .ok ()

def walletInfo (byte : UInt8) : AccountInfo := ⟨solePubkey byte, true, true, 1000000000⟩

def registerBy (registrar payout : UInt8) (donor : Pubkey) (shareBasisPoints : UInt16)
    (donorId : UInt32) : Instruction :=
  .register ⟨⟨⟨donor, false, true, 0⟩, ⟨solePubkey payout, false, false, 0⟩, walletInfo registrar,
    ⟨systemProgramId, false, false, 1⟩⟩, []⟩ shareBasisPoints donorId

def updateShareBy (registrar : UInt8) (donor : Pubkey) (shareBasisPoints : UInt16) : Instruction :=
  .updateShare ⟨⟨⟨donor, false, true, 1224960⟩, walletInfo registrar⟩, []⟩ shareBasisPoints

def emitSplitBy (registrar : UInt8) (donor : Pubkey) (gross : UInt64) (jobId : Vector UInt8 16) :
    Instruction :=
  .emitSplit ⟨⟨⟨donor, false, true, 1224960⟩, walletInfo registrar⟩, []⟩ gross jobId

def jobZero : Vector UInt8 16 := Vector.replicate 16 0

/-! ## What holds in every reached state -/

structure WellFormed (R : Runtime) (s : Registry) : Prop where
  within : ∀ a donor, s a = some donor → donor.shareBasisPoints ≤ maxBasisPoints
  address : ∀ a donor, s a = some donor →
    R.findProgramAddress (donorSeeds donor.payout) programId = some (a, donor.bump)

theorem wellFormed_empty : WellFormed R empty where
  within _ _ stored := by cases stored
  address _ _ stored := by cases stored

theorem WellFormed.update {s : Registry} (wellFormed : WellFormed R s) {key : Pubkey}
    {written : DonorAccount} (within : written.shareBasisPoints ≤ maxBasisPoints)
    (address : R.findProgramAddress (donorSeeds written.payout) programId =
      some (key, written.bump)) :
    WellFormed R (Function.update s key (some written)) where
  within := forall_stored_update wellFormed.within within
  address := forall_stored_update wellFormed.address address

theorem keeps_wellFormed : (program R).Keeps (WellFormed R) := by
  intro s i s' events wellFormed ok
  cases exec_eq_ok_iff.mp ok with
  | register accepted within =>
      exact wellFormed.update within (RegisterDonor.address accepted)
  | updateShare accepted within =>
      have stored := existingDonor_stored accepted
      have address := wellFormed.address _ _ stored
      exact wellFormed.update within address
  | setActive accepted =>
      have stored := existingDonor_stored accepted
      have within := wellFormed.within _ _ stored
      have address := wellFormed.address _ _ stored
      exact wellFormed.update within address
  | emitSplit accepted owed => exact wellFormed

theorem wellFormed_after (is : List Instruction) :
    WellFormed R ((program R).after empty is) :=
  keeps_wellFormed.after wellFormed_empty is

theorem WellFormed.key_unique {s : Registry} (wellFormed : WellFormed R s) {a a' : Pubkey}
    {donor donor' : DonorAccount} (stored : s a = some donor) (stored' : s a' = some donor')
    (same : donor.payout = donor'.payout) : a = a' := by
  have address := wellFormed.address a donor stored
  rw [same, wellFormed.address a' donor' stored'] at address
  exact (Prod.mk.inj (Option.some.inj address)).1.symm

theorem WellFormed.existingDonor_eq_ok_iff {s : Registry} (wellFormed : WellFormed R s)
    {donor registrar : AccountInfo} {account : DonorAccount} :
    existingDonor R s donor registrar = .ok account ↔
      s donor.key = some account ∧ registrar.isSigner = true ∧ donor.isWritable = true := by
  rw [existingDonor_eq_ok]
  constructor
  · rintro ⟨stored, signer, -, writable⟩
    exact ⟨stored, signer, writable⟩
  · rintro ⟨stored, signer, writable⟩
    have created := Runtime.createProgramAddress_of_find (wellFormed.address _ _ stored)
    exact ⟨stored, signer, created, writable⟩

theorem WellFormed.existingDonor_error {s : Registry} (wellFormed : WellFormed R s)
    {donor registrar : AccountInfo} {account : DonorAccount} (stored : s donor.key = some account)
    {e : AnchorError} (failed : existingDonor R s donor registrar = .error e) :
    (e = .accountNotSigner ∧ registrar.isSigner = false) ∨
      (e = .constraintMut ∧ donor.isWritable = false) := by
  have created := Runtime.createProgramAddress_of_find (wellFormed.address _ _ stored)
  have found : Account.tryFrom s donor = .ok account := Account.tryFrom_eq_ok.mpr stored
  have seeds :
      constraintSeeds R donor (donorSeeds account.payout) account.bump programId = .ok () :=
    constraintSeeds_eq_ok.mpr created
  cases signer : registrar.isSigner with
  | false =>
      simp [existingDonor, found, Signer.tryFrom, signer, bind, Except.bind] at failed
      exact .inl ⟨failed.symm, rfl⟩
  | true =>
      cases writable : donor.isWritable with
      | false =>
          simp [existingDonor, found, Signer.tryFrom, signer, seeds, constraintMut, writable, bind,
            Except.bind] at failed
          exact .inr ⟨failed.symm, rfl⟩
      | true =>
          rw [wellFormed.existingDonor_eq_ok_iff.mpr ⟨stored, signer, writable⟩] at failed
          cases failed

/-- A split for a stored donor fails only without its signature or with a read-only account, and
otherwise owes the share rounded down. -/
def SplitsExactly (t : Step) : Prop :=
  ∀ ctx gross jobId donor, t.instruction = .emitSplit ctx gross jobId →
    t.before ctx.accounts.donor.key = some donor →
    (∀ e, t.result = .error e →
      (e = .anchor .accountNotSigner ∧ ctx.accounts.registrar.isSigner = false) ∨
        (e = .anchor .constraintMut ∧ ctx.accounts.donor.isWritable = false)) ∧
    (ctx.accounts.registrar.isSigner = true → ctx.accounts.donor.isWritable = true →
      ∃ owed : UInt64,
        t.result = .ok (t.before, [⟨donor.donorId, donor.payout, owed, gross, jobId⟩]) ∧
        owed.toNat = gross.toNat * donor.shareBasisPoints.toNat / 10000 ∧ owed ≤ gross ∧
        (owed = gross ↔ gross = 0 ∨ donor.shareBasisPoints = 10000))

theorem WellFormed.splitsExactly {s : Registry} (wellFormed : WellFormed R s) (i : Instruction) :
    SplitsExactly ((program R).step s i) := by
  rintro ctx gross jobId donor rfl stored
  have within := wellFormed.within _ _ stored
  have share := shareBasisPoints_le within
  have split := splitOwed_eq gross jobId within
  constructor
  · intro e failed
    rcases bind_eq_error.mp failed with refused | ⟨account, accepted, failed⟩
    · obtain ⟨cause, unaccepted, rfl⟩ := mapError_eq_error.mp refused
      simpa using wellFormed.existingDonor_error stored unaccepted
    · have same := existingDonor_stored (mapError_eq_ok.mp accepted)
      obtain rfl := Option.some.inj (stored.symm.trans same)
      simp [split, Except.mapError, bind, Except.bind] at failed
  · intro signer writable
    have accepted := wellFormed.existingDonor_eq_ok_iff.mpr ⟨stored, signer, writable⟩
    have emitted := exec_eq_ok_iff.mpr (.emitSplit accepted split)
    refine ⟨owed donor gross, emitted, owed_toNat gross within, ?_, ?_⟩
    · rw [UInt64.le_iff_toNat_le, owed_toNat gross within]
      exact portion_le share
    · rw [← UInt64.toNat_inj, owed_toNat gross within, portion_eq_iff (by decide) share,
        ← UInt64.toNat_inj, ← UInt16.toNat_inj]
      rfl

/-- No donor is promised more than the whole, and every split for a donor is worked out exactly. -/
theorem shares_within_whole (R : Runtime) (is : List Instruction) :
    (∀ a donor, (program R).after empty is a = some donor →
      donor.shareBasisPoints.toNat ≤ 10000) ∧
    ∀ t ∈ (program R).trace empty is, SplitsExactly t := by
  constructor
  · intro a donor stored
    exact shareBasisPoints_le ((wellFormed_after is).within a donor stored)
  · exact keeps_wellFormed.trace wellFormed_empty
      (fun _ i wellFormed => wellFormed.splitsExactly i) is

/-- A donor with a share of 40 percent is owed 400 of 1001. -/
theorem shares_within_whole_split :
    let s := (program referenceRuntime).after empty [registerBy 1 5 donorFive 4000 7]
    let donor : DonorAccount := ⟨solePubkey 5, 7, 4000, true, 255⟩
    let t := (program referenceRuntime).step s (emitSplitBy 1 donorFive 1001 jobZero)
    s donorFive = some donor ∧ donor.shareBasisPoints.toNat ≤ 10000 ∧
    ∃ owed : UInt64, t.result = .ok (s, [⟨7, solePubkey 5, owed, 1001, jobZero⟩]) ∧
      owed.toNat = 400 ∧ owed ≤ 1001 := by
  intro s donor t
  have stored : s donorFive = some donor := by decide
  have within := (shares_within_whole referenceRuntime [registerBy 1 5 donorFive 4000 7]).1
    donorFive donor stored
  have made := (shares_within_whole referenceRuntime
    [registerBy 1 5 donorFive 4000 7, emitSplitBy 1 donorFive 1001 jobZero]).2 t (.tail _ (.head _))
  obtain ⟨owed, result, amount, bound, -⟩ := (made _ _ _ donor rfl stored).2 rfl rfl
  exact ⟨stored, within, owed, result, amount.trans (by decide), bound⟩

end NttX402.Proof
