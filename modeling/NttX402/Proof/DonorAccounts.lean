import NttX402.Proof.DonorRegistry

namespace NttX402.Proof
open Library Programs Programs.DonorRegistry
variable {R : Runtime}

/-- What an instruction leaves alone, and what it writes where it succeeds. -/
def Frame (R : Runtime) (t : Step) : Prop :=
  match t.result with
  | .error _ => t.after = t.before ∧ t.events = []
  | .ok _ =>
    match t.instruction with
    | .register ctx shareBasisPoints donorId =>
      t.events = [] ∧ t.before ctx.accounts.donor.key = none ∧
        ∃ bump, R.findProgramAddress (donorSeeds ctx.accounts.payout.key) programId =
            some (ctx.accounts.donor.key, bump) ∧
          t.after = Function.update t.before ctx.accounts.donor.key
            (some ⟨ctx.accounts.payout.key, donorId, shareBasisPoints, true, bump⟩)
    | .updateShare ctx shareBasisPoints =>
      t.events = [] ∧ ∃ donor, t.before ctx.accounts.donor.key = some donor ∧
        t.after = Function.update t.before ctx.accounts.donor.key
          (some { donor with shareBasisPoints := shareBasisPoints })
    | .setActive ctx active =>
      t.events = [] ∧ ∃ donor, t.before ctx.accounts.donor.key = some donor ∧
        t.after = Function.update t.before ctx.accounts.donor.key
          (some { donor with active := active })
    | .emitSplit _ _ _ => t.after = t.before

theorem frame_step (s : Registry) (i : Instruction) :
    Frame R ((program R).step s i) := by
  rcases step_cases (R := R) s i with ⟨e, step⟩ | ⟨s', events, step, effect⟩
  · rw [step]
    exact ⟨rfl, rfl⟩
  · rw [step]
    cases effect with
    | register accepted within =>
        have fresh := RegisterDonor.fresh accepted
        exact ⟨rfl, fresh, _, RegisterDonor.address accepted, rfl⟩
    | updateShare accepted within =>
        exact ⟨rfl, _, existingDonor_stored accepted, rfl⟩
    | setActive accepted => exact ⟨rfl, _, existingDonor_stored accepted, rfl⟩
    | emitSplit accepted owed => rfl

/-! ## Identities -/

/-- The parts of a donor account that no instruction rewrites. -/
def DonorAccount.identity (donor : DonorAccount) : Pubkey × UInt32 × UInt8 :=
  (donor.payout, donor.donorId, donor.bump)

def Continues (s s' : Registry) : Prop :=
  ∀ a donor, s a = some donor → ∃ donor', s' a = some donor' ∧
    DonorAccount.identity donor' = DonorAccount.identity donor

theorem continues_update {s : Registry} {key : Pubkey} {written : DonorAccount}
    (same : ∀ donor, s key = some donor →
      DonorAccount.identity written = DonorAccount.identity donor) :
    Continues s (Function.update s key (some written)) := by
  intro a donor stored
  by_cases here : a = key
  · subst here
    exact ⟨written, Function.update_self .., same donor stored⟩
  · exact ⟨donor, (Function.update_of_ne here ..).trans stored, rfl⟩

theorem continues_rewrite {s : Registry} {key : Pubkey} {donor written : DonorAccount}
    (found : s key = some donor)
    (same : DonorAccount.identity written = DonorAccount.identity donor) :
    Continues s (Function.update s key (some written)) := by
  apply continues_update
  intro donor' stored
  obtain rfl := Option.some.inj (found.symm.trans stored)
  exact same

theorem Effect.continues {s s' : Registry} {i : Instruction} {events : List SplitOwed}
    (effect : Effect R s i s' events) : Continues s s' := by
  cases effect with
  | register accepted within =>
      have fresh := RegisterDonor.fresh accepted
      apply continues_update
      intro donor stored
      rw [fresh] at stored
      cases stored
  | updateShare accepted within => exact continues_rewrite (existingDonor_stored accepted) rfl
  | setActive accepted => exact continues_rewrite (existingDonor_stored accepted) rfl
  | emitSplit accepted owed => exact fun a donor stored => ⟨donor, stored, rfl⟩

theorem continues_after (s : Registry) (is : List Instruction) :
    Continues s ((program R).after s is) := by
  apply Machine.after_related
  · exact fun s a donor stored => ⟨donor, stored, rfl⟩
  · intro s s' s'' first second a donor stored
    obtain ⟨donor', stored', same⟩ := first a donor stored
    obtain ⟨donor'', stored'', same'⟩ := second a donor' stored'
    exact ⟨donor'', stored'', same'.trans same⟩
  · exact fun s i s' events ok => (exec_eq_ok_iff.mp ok).continues

/-! ## Registrations -/

/-- A successful registration at this address. -/
def registers (a : Pubkey) (t : Step) : Bool :=
  match t.instruction, t.result with
  | .register ctx _ _, .ok _ => ctx.accounts.donor.key = a
  | _, _ => false

theorem registers_step_iff (s : Registry) (i : Instruction) (a : Pubkey) :
    registers a ((program R).step s i) = true ↔
      ¬(s a).isSome ∧ (((program R).step s i).after a).isSome := by
  rcases step_cases (R := R) s i with ⟨e, step⟩ | ⟨s', events, step, effect⟩
  · rw [step]
    cases i <;> simp [registers]
  · have kept {key : Pubkey} {donor written : DonorAccount} (stored : s key = some donor) :
        ¬(¬(s a).isSome ∧ (Function.update s key (some written) a).isSome) := by
      by_cases here : a = key
      · simp [here, stored]
      · simp [Function.update_of_ne here]
    rw [step]
    cases effect with
    | @register ctx share donorId bump accepted within =>
        have fresh := RegisterDonor.fresh accepted
        by_cases here : a = ctx.accounts.donor.key
        · simp [registers, here, fresh]
        · simp [registers, Function.update_of_ne here, Ne.symm here]
    | updateShare accepted within =>
        exact iff_of_false Bool.false_ne_true (kept (existingDonor_stored accepted))
    | setActive accepted =>
        exact iff_of_false Bool.false_ne_true (kept (existingDonor_stored accepted))
    | emitSplit accepted owed => simp [registers]

theorem keeps_isSome (a : Pubkey) : (program R).Keeps fun s => (s a).isSome := by
  intro s i s' events stored ok
  obtain ⟨donor, stored⟩ := Option.isSome_iff_exists.mp stored
  obtain ⟨donor', stored', -⟩ := (exec_eq_ok_iff.mp ok).continues a donor stored
  simp [stored']

/-- The registration wrote the identity that this account shows. -/
def Wrote (R : Runtime) (a : Pubkey) (donor : DonorAccount) (t : Step) : Prop :=
  ∃ ctx shareBasisPoints, t.instruction = .register ctx shareBasisPoints donor.donorId ∧
    ctx.accounts.donor.key = a ∧ ctx.accounts.payout.key = donor.payout ∧
    R.findProgramAddress (donorSeeds ctx.accounts.payout.key) programId = some (a, donor.bump)

theorem wrote_of_registers {s : Registry} {i : Instruction} {a : Pubkey} {later : List Instruction}
    {donor : DonorAccount} (registered : registers a ((program R).step s i) = true)
    (stored : (program R).after ((program R).step s i).after later a = some donor) :
    Wrote R a donor ((program R).step s i) := by
  rcases step_cases (R := R) s i with ⟨e, step⟩ | ⟨s', events, step, effect⟩
  · rw [step] at registered
    cases i <;> simp [registers] at registered
  · rw [step] at registered stored ⊢
    cases effect with
    | register accepted within =>
        have found := RegisterDonor.address accepted
        obtain rfl := of_decide_eq_true registered
        obtain ⟨donor', stored', same⟩ :=
          continues_after (R := R) _ later _ _ (Function.update_self ..)
        obtain rfl := Option.some.inj (stored'.symm.trans stored)
        obtain ⟨payout, donorId, bump⟩ := by simpa [DonorAccount.identity] using same
        exact ⟨_, _, by rw [donorId], rfl, payout.symm, bump ▸ found⟩
    | updateShare accepted within => cases registered
    | setActive accepted => cases registered
    | emitSplit accepted owed => cases registered

/-- Each donor account lies at the address of its payout key, was written by one registration, and
keeps its identity. -/
theorem donor_accounts (R : Runtime) (is : List Instruction) :
    (∀ a donor, (program R).after empty is a = some donor →
      R.findProgramAddress (donorSeeds donor.payout) programId = some (a, donor.bump) ∧
      (∃ t, ((program R).trace empty is).filter (registers a) = [t] ∧ Wrote R a donor t) ∧
      ∀ later, ∃ donor', (program R).after empty (is ++ later) a = some donor' ∧
        donor'.payout = donor.payout ∧ donor'.donorId = donor.donorId ∧
        donor'.bump = donor.bump) ∧
    (∀ a a' donor donor', (program R).after empty is a = some donor →
      (program R).after empty is a' = some donor' → donor.payout = donor'.payout → a = a') ∧
    ∀ t ∈ (program R).trace empty is, Frame R t := by
  have wellFormed := wellFormed_after (R := R) is
  refine ⟨?_, ?_, ?_⟩
  · intro a donor stored
    refine ⟨wellFormed.address a donor stored, ?_, ?_⟩
    · have once := Machine.filter_trace (keeps_isSome a)
        (fun s i => registers_step_iff (R := R) s i a) empty is
      simp only [stored, Option.isSome_some, true_and] at once
      obtain ⟨t, only⟩ := List.length_eq_one_iff.mp once
      have member : t ∈ ((program R).trace empty is).filter (registers a) := by simp [only]
      obtain ⟨member, registered⟩ := List.mem_filter.mp member
      obtain ⟨earlier, later, split, step⟩ := Machine.mem_trace_iff.mp member
      refine ⟨t, only, ?_⟩
      rw [split, Machine.after_append, Machine.after_cons] at stored
      rw [step] at registered ⊢
      exact wrote_of_registers registered stored
    · intro later
      obtain ⟨donor', stored', same⟩ := continues_after ((program R).after empty is) later a donor
        stored
      obtain ⟨payout, donorId, bump⟩ := by simpa [DonorAccount.identity] using same
      exact ⟨donor', Machine.after_append .. ▸ stored', payout, donorId, bump⟩
  · intro a a' donor donor' stored stored' same
    exact wellFormed.key_unique stored stored' same
  · exact keeps_wellFormed.trace wellFormed_empty (fun s i _ => frame_step s i) is

/-- A donor whose share was updated. -/
theorem donor_accounts_updated :
    let is := [registerBy 1 5 donorFive 1000 7, updateShareBy 1 donorFive 250]
    let donor : DonorAccount := ⟨solePubkey 5, 7, 250, true, 255⟩
    let t := (program referenceRuntime).step empty (registerBy 1 5 donorFive 1000 7)
    (program referenceRuntime).after empty is donorFive = some donor ∧
    referenceRuntime.findProgramAddress (donorSeeds (solePubkey 5)) programId =
      some (donorFive, 255) ∧
    (∃ t, ((program referenceRuntime).trace empty is).filter (registers donorFive) = [t] ∧
      Wrote referenceRuntime donorFive donor t) ∧
    (∃ donor', (program referenceRuntime).after empty (is ++ is) donorFive = some donor' ∧
      donor'.payout = solePubkey 5) ∧
    t.succeeded = true ∧ Frame referenceRuntime t := by
  intro is donor t
  have stored : (program referenceRuntime).after empty is donorFive = some donor := by decide
  obtain ⟨accounts, -, frames⟩ := donor_accounts referenceRuntime is
  obtain ⟨address, registered, kept⟩ := accounts donorFive donor stored
  obtain ⟨donor', stored', payout, -⟩ := kept is
  exact ⟨stored, address, registered, ⟨donor', stored', payout⟩, by decide, frames t (.head _)⟩

end NttX402.Proof
