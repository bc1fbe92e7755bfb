import NttX402.Proof.DonorAccounts

namespace NttX402.Proof
open Library Programs Programs.DonorRegistry
variable {R : Runtime}

/-! ## Who may act for a donor -/

/-- The account was registered in this run, by this signer and for this payout key. -/
def Registered (R : Runtime) (is : List Instruction) (a registrar payout : Pubkey) : Prop :=
  ∃ t ∈ (program R).trace empty is, registers a t = true ∧
    ∃ ctx shareBasisPoints donorId, t.instruction = .register ctx shareBasisPoints donorId ∧
      ctx.accounts.registrar.key = registrar ∧ ctx.accounts.payout.key = payout

def DonorAccount.terms (donor : DonorAccount) : UInt16 × Bool :=
  (donor.shareBasisPoints, donor.active)

/-- The step changes the donor's terms or creates a debt to it. -/
def Touches (t : Step) (a payout : Pubkey) : Prop :=
  (t.after a).map DonorAccount.terms ≠ (t.before a).map DonorAccount.terms ∨
    ∃ e ∈ t.events, e.payout = payout

/-- Only the registrar and the payout key touch a registered donor. -/
def OnlyByParties (R : Runtime) (is : List Instruction) : Prop :=
  ∀ earlier i later, is = earlier ++ i :: later →
    ∀ a registrar payout, Registered R earlier a registrar payout →
      Touches ((program R).step ((program R).after empty earlier) i) a payout →
      i.signedBy registrar = true ∨ i.signedBy payout = true

/-- The accounts that an instruction on the donor at `a` must be given. -/
def Given (a : Pubkey) (donor registrar : AccountInfo) : Prop :=
  donor.key = a ∧ donor.isWritable = true ∧ registrar.isSigner = true

/-- The instruction is an acceptable one on the donor at `a` that asks for other terms, or for a
split. -/
def WouldTouch (s : Registry) (a : Pubkey) : Instruction → Prop
  | .register _ _ _ => False
  | .updateShare ctx shareBasisPoints =>
    Given a ctx.accounts.donor ctx.accounts.registrar ∧ shareBasisPoints ≤ maxBasisPoints ∧
      ∀ donor, s a = some donor → shareBasisPoints ≠ donor.shareBasisPoints
  | .setActive ctx active =>
    Given a ctx.accounts.donor ctx.accounts.registrar ∧
      ∀ donor, s a = some donor → active ≠ donor.active
  | .emitSplit ctx _ _ => Given a ctx.accounts.donor ctx.accounts.registrar

theorem stored_of_registered {is : List Instruction} {a registrar payout : Pubkey}
    (registered : Registered R is a registrar payout) :
    ∃ donor, (program R).after empty is a = some donor ∧ donor.payout = payout := by
  obtain ⟨t, member, registered, ctx, share, donorId, instruction, -, rfl⟩ := registered
  obtain ⟨earlier, later, split, step⟩ := Machine.mem_trace_iff.mp member
  rw [step] at registered
  have created := ((registers_step_iff _ _ a).mp registered).2
  obtain ⟨donor, stored⟩ := Option.isSome_iff_exists.mp ((keeps_isSome a).after created later)
  obtain ⟨ctx', share', wrote, -, payout, -⟩ := wrote_of_registers registered stored
  rw [Machine.step_instruction, instruction] at wrote
  obtain ⟨rfl, -, -⟩ := Instruction.register.inj wrote
  exact ⟨donor, by rw [split, Machine.after_append, Machine.after_cons, stored], payout.symm⟩

theorem touches_update_iff {s : Registry} {i : Instruction} {key : Pubkey}
    {account written : DonorAccount} (found : s key = some account) (a payout : Pubkey) :
    Touches ⟨s, i, .ok (Function.update s key (some written), [])⟩ a payout ↔
      a = key ∧ DonorAccount.terms written ≠ DonorAccount.terms account := by
  by_cases here : a = key
  · subst here
    simp [Touches, found]
  · simp [Touches, here]

theorem WellFormed.wouldTouch_of_touches {s : Registry} (wellFormed : WellFormed R s) {a : Pubkey}
    {donor : DonorAccount} (stored : s a = some donor) {i : Instruction}
    (touches : Touches ((program R).step s i) a donor.payout) : WouldTouch s a i := by
  rcases step_cases (R := R) s i with ⟨e, step⟩ | ⟨s', events, step, effect⟩
  · rw [step] at touches
    simp [Touches] at touches
  · rw [step] at touches
    cases effect with
    | register accepted within =>
        have other := RegisterDonor.ne_of_stored accepted stored
        simp [Touches, Function.update_of_ne other] at touches
    | updateShare accepted within =>
        obtain ⟨found, signer, -, writable⟩ := existingDonor_eq_ok.mp accepted
        obtain ⟨rfl, changed⟩ := (touches_update_iff found a donor.payout).mp touches
        refine ⟨⟨rfl, writable, signer⟩, within, ?_⟩
        rintro account stored rfl
        obtain rfl := Option.some.inj (found.symm.trans stored)
        exact changed rfl
    | setActive accepted =>
        obtain ⟨found, signer, -, writable⟩ := existingDonor_eq_ok.mp accepted
        obtain ⟨rfl, changed⟩ := (touches_update_iff found a donor.payout).mp touches
        refine ⟨⟨rfl, writable, signer⟩, ?_⟩
        rintro account stored rfl
        obtain rfl := Option.some.inj (found.symm.trans stored)
        exact changed rfl
    | @emitSplit ctx gross jobId account event accepted owed =>
        obtain ⟨found, signer, -, writable⟩ := existingDonor_eq_ok.mp accepted
        rw [splitOwed_eq gross jobId (wellFormed.within _ _ found)] at owed
        obtain rfl := Except.ok.inj owed
        have same : account.payout = donor.payout := by simpa [Touches] using touches
        exact ⟨wellFormed.key_unique found stored same, writable, signer⟩

theorem WellFormed.touches_of_wouldTouch {s : Registry} (wellFormed : WellFormed R s) {a : Pubkey}
    {donor : DonorAccount} (stored : s a = some donor) {i : Instruction}
    (would : WouldTouch s a i) :
    Touches ((program R).step s i) a donor.payout := by
  cases i with
  | register ctx share donorId => cases would
  | updateShare ctx share =>
      obtain ⟨⟨rfl, writable, signer⟩, within, changed⟩ := would
      have accepted := wellFormed.existingDonor_eq_ok_iff.mpr ⟨stored, signer, writable⟩
      rw [Machine.step_of_exec (exec_eq_ok_iff.mpr (.updateShare accepted within)),
        touches_update_iff stored]
      exact ⟨rfl, fun same => changed donor stored (Prod.mk.inj same).1⟩
  | setActive ctx active =>
      obtain ⟨⟨rfl, writable, signer⟩, changed⟩ := would
      have accepted := wellFormed.existingDonor_eq_ok_iff.mpr ⟨stored, signer, writable⟩
      rw [Machine.step_of_exec (exec_eq_ok_iff.mpr (.setActive accepted)),
        touches_update_iff stored]
      exact ⟨rfl, fun same => changed donor stored (Prod.mk.inj same).2⟩
  | emitSplit ctx gross jobId =>
      obtain ⟨rfl, writable, signer⟩ := would
      have accepted := wellFormed.existingDonor_eq_ok_iff.mpr ⟨stored, signer, writable⟩
      have split := splitOwed_eq gross jobId (wellFormed.within _ _ stored)
      rw [Machine.step_of_exec (exec_eq_ok_iff.mpr (.emitSplit accepted split))]
      exact .inr ⟨_, List.mem_singleton_self _, rfl⟩

/-- The program itself asks for no authority: the parties are alone exactly where every acceptable
instruction on their account comes from one of them. -/
theorem onlyByParties_iff (R : Runtime) (is : List Instruction) :
    OnlyByParties R is ↔
      ∀ earlier i later, is = earlier ++ i :: later →
        ∀ a registrar payout, Registered R earlier a registrar payout →
          WouldTouch ((program R).after empty earlier) a i →
          i.signedBy registrar = true ∨ i.signedBy payout = true := by
  have touches_iff (earlier : List Instruction) (i : Instruction) {a registrar payout : Pubkey}
      (registered : Registered R earlier a registrar payout) :
      Touches ((program R).step ((program R).after empty earlier) i) a payout ↔
        WouldTouch ((program R).after empty earlier) a i := by
    have wellFormed := wellFormed_after (R := R) earlier
    obtain ⟨donor, stored, rfl⟩ := stored_of_registered registered
    exact ⟨wellFormed.wouldTouch_of_touches stored, wellFormed.touches_of_wouldTouch stored⟩
  constructor
  · intro only earlier i later split a registrar payout registered would
    exact only earlier i later split a registrar payout registered
      ((touches_iff earlier i registered).mpr would)
  · intro signed earlier i later split a registrar payout registered touches
    exact signed earlier i later split a registrar payout registered
      ((touches_iff earlier i registered).mp touches)

/-- A stranger sets the share of a registered donor to zero. -/
theorem stranger_updates_share : ¬OnlyByParties referenceRuntime
    [registerBy 1 5 donorFive 1000 7, updateShareBy 9 donorFive 0] := by
  intro only
  have touched := only [registerBy 1 5 donorFive 1000 7] (updateShareBy 9 donorFive 0) [] rfl
    donorFive (solePubkey 1) (solePubkey 5)
    ⟨_, List.mem_cons_self, by decide, _, _, _, rfl, rfl, rfl⟩ (.inl (by decide))
  revert touched
  decide

/-! ## Donor identifiers -/

/-- A donor identifier names one account. -/
def IdsIdentify (s : Registry) : Prop :=
  ∀ a a' donor donor', s a = some donor → s a' = some donor' → donor.donorId = donor'.donorId →
    a = a'

/-- An acceptable registration brings an identifier that no donor has. -/
def FreshId (R : Runtime) (s : Registry) : Instruction → Prop
  | .register ctx shareBasisPoints donorId =>
    ∀ bump, ctx.accounts.tryAccounts R s = .ok bump → shareBasisPoints ≤ maxBasisPoints →
      ∀ a donor, s a = some donor → donor.donorId ≠ donorId
  | _ => True

theorem idsIdentify_update {s : Registry} (identify : IdsIdentify s) {key : Pubkey}
    {written : DonorAccount}
    (own : ∀ a donor, s a = some donor → donor.donorId = written.donorId → a = key) :
    IdsIdentify (Function.update s key (some written)) := by
  intro a a' donor donor' stored stored' same
  by_cases here : a = key
  · by_cases here' : a' = key
    · rw [here, here']
    · subst here
      rw [Function.update_self] at stored
      rw [Function.update_of_ne here'] at stored'
      obtain rfl := Option.some.inj stored
      exact (own a' donor' stored' same.symm).symm
  · rw [Function.update_of_ne here] at stored
    by_cases here' : a' = key
    · subst here'
      rw [Function.update_self] at stored'
      obtain rfl := Option.some.inj stored'
      exact own a donor stored same
    · rw [Function.update_of_ne here'] at stored'
      exact identify a a' donor donor' stored stored' same

theorem idsIdentify_rewrite {s : Registry} (identify : IdsIdentify s) {key : Pubkey}
    {donor written : DonorAccount} (found : s key = some donor)
    (same : donor.donorId = written.donorId) :
    IdsIdentify (Function.update s key (some written)) := by
  apply idsIdentify_update identify
  intro a donor' stored same'
  exact identify a key donor' donor stored found (same'.trans same.symm)

theorem idsIdentify_step (s : Registry) (i : Instruction) (identify : IdsIdentify s)
    (fresh : FreshId R s i) : IdsIdentify ((program R).step s i).after := by
  rcases step_cases (R := R) s i with ⟨e, step⟩ | ⟨s', events, step, effect⟩
  · rwa [step]
  · rw [step]
    cases effect with
    | register accepted within =>
        apply idsIdentify_update identify
        intro a donor stored same
        exact absurd same (fresh _ accepted within a donor stored)
    | updateShare accepted within =>
        exact idsIdentify_rewrite identify (existingDonor_stored accepted) rfl
    | setActive accepted =>
        exact idsIdentify_rewrite identify (existingDonor_stored accepted) rfl
    | emitSplit accepted owed => exact identify

theorem freshId_of_idsIdentify {s : Registry} {i : Instruction}
    (identify : IdsIdentify ((program R).step s i).after) : FreshId R s i := by
  cases i with
  | register ctx share donorId =>
      rintro bump accepted within a donor stored rfl
      rw [Machine.step_of_exec (exec_eq_ok_iff.mpr (.register accepted within))] at identify
      have other := RegisterDonor.ne_of_stored accepted stored
      apply other
      exact identify a _ donor _ ((Function.update_of_ne other ..).trans stored)
        (Function.update_self ..) rfl
  | updateShare ctx share => trivial
  | setActive ctx active => trivial
  | emitSplit ctx gross jobId => trivial

/-- Identifiers name one account throughout a run exactly where every registration brings a new
one, which the program does not check. -/
theorem idsIdentify_iff (R : Runtime) (is : List Instruction) :
    (∀ earlier later, is = earlier ++ later → IdsIdentify ((program R).after empty earlier)) ↔
      ∀ earlier i later, is = earlier ++ i :: later →
        FreshId R ((program R).after empty earlier) i := by
  constructor
  · intro identify earlier i later split
    apply freshId_of_idsIdentify
    rw [← Machine.after_concat]
    exact identify (earlier ++ [i]) later (by simp [split])
  · intro fresh earlier later split
    refine Machine.after_of_each (C := FreshId R) idsIdentify_step ?_ ?_
    · intro a a' donor donor' stored
      cases stored
    · intro earlier' i later' split'
      exact fresh earlier' i (later' ++ later) (by simp [split, split'])

theorem shared_donor_id : ¬IdsIdentify ((program referenceRuntime).after empty
    [registerBy 1 5 donorFive 1000 7, registerBy 2 6 donorSix 2000 7]) := by
  intro identify
  have same := identify donorFive donorSix ⟨solePubkey 5, 7, 1000, true, 255⟩
    ⟨solePubkey 6, 7, 2000, true, 255⟩ (by decide) (by decide) rfl
  revert same
  decide

end NttX402.Proof
