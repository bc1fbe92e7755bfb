import NttX402.Library.Simulation
import NttX402.Proof.DonorRegistry

namespace NttX402.Proof
open Library Programs Programs.DonorRegistry
variable {R : Runtime}

/-! ## One donor at a time -/

def donorKey : Instruction → Pubkey
  | .register ctx _ _ => ctx.accounts.donor.key
  | .updateShare ctx _ => ctx.accounts.donor.key
  | .setActive ctx _ => ctx.accounts.donor.key
  | .emitSplit ctx _ _ => ctx.accounts.donor.key

theorem program_local (R : Runtime) : (program R).Local donorKey := by
  intro s i
  cases i with
  | register ctx share donorId =>
      have found : ctx.accounts.tryAccounts R (fun _ => s ctx.accounts.donor.key) =
          ctx.accounts.tryAccounts R s := rfl
      simp only [Machine.cell, program, register, donorKey, found]
      cases ctx.accounts.tryAccounts R s with
      | error e => rfl
      | ok bump =>
          by_cases above : share > maxBasisPoints
          · simp [bind, Except.bind, Except.mapError, Except.map, above]
          · simp [bind, Except.bind, Except.mapError, Except.map, above]
  | updateShare ctx share =>
      have found : ctx.accounts.tryAccounts R (fun _ => s ctx.accounts.donor.key) =
          ctx.accounts.tryAccounts R s := rfl
      simp only [Machine.cell, program, updateShare, donorKey, found]
      cases ctx.accounts.tryAccounts R s with
      | error e => rfl
      | ok donor =>
          by_cases above : share > maxBasisPoints
          · simp [bind, Except.bind, Except.mapError, Except.map, above]
          · simp [bind, Except.bind, Except.mapError, Except.map, above]
  | setActive ctx active =>
      have found : ctx.accounts.tryAccounts R (fun _ => s ctx.accounts.donor.key) =
          ctx.accounts.tryAccounts R s := rfl
      simp only [Machine.cell, program, setActive, donorKey, found]
      cases ctx.accounts.tryAccounts R s with
      | error e => rfl
      | ok donor => simp [bind, Except.bind, Except.mapError, Except.map]
  | emitSplit ctx gross jobId =>
      have found : ctx.accounts.tryAccounts R (fun _ => s ctx.accounts.donor.key) =
          ctx.accounts.tryAccounts R s := rfl
      simp only [Machine.cell, program, emitSplit, donorKey, found]
      cases ctx.accounts.tryAccounts R s with
      | error e => rfl
      | ok donor =>
          cases owed : splitOwed donor gross jobId with
          | error e => simp [bind, Except.bind, Except.mapError, Except.map, owed]
          | ok event => simp [bind, Except.bind, Except.mapError, Except.map, owed]

/-- Given the account infos that each call brings, loaded balances included, donors do not
interfere: what happens to a donor account is what its own instructions alone do to it, and any two
runs that agree on the order of the instructions for each account agree on every result, every
account and, up to order, every split. What a registrar pays for one donor lowers the balance that
its next call loads: that next call is then another instruction here. -/
theorem donors_independent_as_loaded (R : Runtime) (s : Registry) (is : List Instruction) :
    (∀ a, let own := is.filter fun i => donorKey i = a
      (program R).after s is a = (program R).after s own a ∧
        Machine.history donorKey a ((program R).trace s is) =
          Machine.history donorKey a ((program R).trace s own)) ∧
    ∀ js, (∀ a, is.filter (donorKey · = a) = js.filter (donorKey · = a)) →
      (program R).after s is = (program R).after s js ∧
      (∀ a, Machine.history donorKey a ((program R).trace s is) =
        Machine.history donorKey a ((program R).trace s js)) ∧
      ((program R).emitted s is).Perm ((program R).emitted s js) := by
  constructor
  · intro a
    have alone := (program_local R).alone s is a
    exact ⟨alone.1.symm, alone.2.symm⟩
  · intro js same
    exact (program_local R).interleaved s same

/-! ## The active flag -/

def activate (donor : DonorAccount) : DonorAccount := { donor with active := true }

def activated (s : Registry) : Registry := fun a => (s a).map activate

def togglesActive : Instruction → Bool
  | .setActive _ _ => true
  | _ => false

section Activated
variable (s : Registry)

theorem activated_update (key : Pubkey) (donor : DonorAccount) :
    activated (Function.update s key (some donor)) =
      Function.update (activated s) key (some (activate donor)) := by
  funext a
  by_cases here : a = key
  · subst here
    simp [activated]
  · simp [activated, here]

theorem existingDonor_activated (donor registrar : AccountInfo) :
    existingDonor R (activated s) donor registrar =
      (existingDonor R s donor registrar).map activate := by
  have found : Account.tryFrom (activated s) donor = (Account.tryFrom s donor).map activate := by
    unfold Account.tryFrom activated
    cases s donor.key with
    | some account => rfl
    | none => cases decEq donor.lamports 0 <;> simp [*, Except.map]
  unfold existingDonor
  rw [found]
  cases Account.tryFrom s donor with
  | error e => rfl
  | ok account =>
      have seeds : constraintSeeds R donor (donorSeeds (activate account).payout)
          (activate account).bump programId =
            constraintSeeds R donor (donorSeeds account.payout) account.bump programId := rfl
      simp only [Except.map, bind, Except.bind, seeds]
      cases Signer.tryFrom registrar with
      | error e => rfl
      | ok _ =>
          cases constraintSeeds R donor (donorSeeds account.payout) account.bump programId with
          | error e => rfl
          | ok _ => cases constraintMut donor <;> rfl

theorem RegisterDonor.tryAccounts_activated (accounts : RegisterDonor) :
    accounts.tryAccounts R (activated s) = accounts.tryAccounts R s := by
  have fresh : constraintInit R (activated s) accounts.donor accounts.registrar DonorAccount.size
      (donorSeeds accounts.payout.key) programId =
      constraintInit R s accounts.donor accounts.registrar DonorAccount.size
        (donorSeeds accounts.payout.key) programId := by
    unfold constraintInit activated
    simp only [Option.isSome_map]
  unfold RegisterDonor.tryAccounts initAccounts
  rw [fresh]

end Activated

theorem simulates_activated (R : Runtime) :
    (program R).Simulates (program R) activated (fun i => !togglesActive i) fun _ => True where
  keeps _ _ _ _ _ _ := trivial
  kept s i _ kept := by
    cases i with
    | register ctx share donorId =>
        simp only [program, register, RegisterDonor.tryAccounts_activated]
        cases ctx.accounts.tryAccounts R s with
        | error e => rfl
        | ok bump =>
            by_cases above : share > maxBasisPoints
            · simp [bind, Except.bind, Except.mapError, Except.map, above]
            · simp [bind, Except.bind, Except.mapError, Except.map, above, activated_update,
                activate]
    | updateShare ctx share =>
        simp only [program, updateShare, UpdateShare.tryAccounts, existingDonor_activated]
        cases existingDonor R s ctx.accounts.donor ctx.accounts.registrar with
        | error e => rfl
        | ok donor =>
            by_cases above : share > maxBasisPoints
            · simp [bind, Except.bind, Except.mapError, Except.map, above]
            · simp [bind, Except.bind, Except.mapError, Except.map, above, activated_update,
                activate]
    | setActive ctx active => cases kept
    | emitSplit ctx gross jobId =>
        simp only [program, emitSplit, SetActive.tryAccounts, existingDonor_activated]
        cases existingDonor R s ctx.accounts.donor ctx.accounts.registrar with
        | error e => rfl
        | ok donor =>
            have same : splitOwed (activate donor) gross jobId = splitOwed donor gross jobId := rfl
            cases owed : splitOwed donor gross jobId with
            | error e => simp [bind, Except.bind, Except.mapError, Except.map, same, owed]
            | ok event => simp [bind, Except.bind, Except.mapError, Except.map, same, owed]
  hidden s i _ hidden := by
    cases i with
    | setActive ctx active =>
        rcases step_cases (R := R) s (.setActive ctx active) with
          ⟨e, step⟩ | ⟨s', events, step, effect⟩
        · rw [step, Transition.after_error]
        · rw [step, Transition.after_ok]
          cases effect with
          | setActive accepted =>
              have stored := existingDonor_stored accepted
              rw [activated_update]
              apply Function.update_eq_self_iff.mpr
              simp [activated, stored, activate]
    | _ => cases hidden

theorem toggle_silent (s : Registry) (i : Instruction) (toggles : (!togglesActive i) = false) :
    ((program R).step s i).events = [] := by
  cases i with
  | setActive ctx active =>
      rcases step_cases (R := R) s (.setActive ctx active) with
        ⟨e, step⟩ | ⟨s', events, step, effect⟩
      · rw [step, Transition.events_error]
      · rw [step, Transition.events_ok]
        cases effect
        rfl
  | _ => cases toggles

/-- Nothing reads the active flag: without the `set_active` calls of a run, every other call has the
same result, the same splits are owed and every account is the same but for its flag. -/
theorem active_unread (R : Runtime) (is : List Instruction) :
    let others := is.filter fun i => !togglesActive i
    activated ((program R).after empty is) = (program R).after empty others ∧
    (program R).emitted empty is = (program R).emitted empty others ∧
    (((program R).trace empty is).filter fun t => !togglesActive t.instruction).map
        (Transition.map activated) = (program R).trace empty others := by
  have simulates := simulates_activated R
  refine ⟨simulates.after_map trivial is, ?_, simulates.trace_map trivial is⟩
  exact simulates.emitted_eq (fun s i _ toggles => toggle_silent s i toggles) trivial is

end NttX402.Proof
