import NttX402.Library.Simulation
import NttX402.Proof.DonorRegistry

/-!
# What the donor registry is for

A table of donors by their payout keys. It knows no accounts, no signatures and no addresses, and a
share above the whole cannot be written down. The program refines it: whatever succeeds is an order
that the table takes, and an instruction succeeds exactly when its accounts are in order and the
table takes what it orders.
-/

namespace NttX402.Proof
open Library Programs Programs.DonorRegistry

/-! ## The table -/

structure Share where
  basisPoints : ℕ
  within : basisPoints ≤ 10000

structure Donor where
  donorId : UInt32
  share : Share
  active : Bool

abbrev Table := Pubkey → Option Donor

inductive Order
  | register (payout : Pubkey) (share : Share) (donorId : UInt32)
  | updateShare (payout : Pubkey) (share : Share)
  | setActive (payout : Pubkey) (active : Bool)
  | emitSplit (payout : Pubkey) (gross : UInt64) (jobId : Vector UInt8 16)

inductive Refusal
  | alreadyRegistered
  | notRegistered

def Donor.split (payout : Pubkey) (donor : Donor) (gross : UInt64) (jobId : Vector UInt8 16) :
    SplitOwed :=
  ⟨donor.donorId, payout, UInt64.ofNat (portion 10000 gross.toNat donor.share.basisPoints), gross,
    jobId⟩

def Table.find (T : Table) (payout : Pubkey) : Except Refusal Donor :=
  match T payout with
  | some donor => .ok donor
  | none => .error .notRegistered

def table : Machine Table Order Refusal SplitOwed where
  exec T
    | .register payout share donorId =>
        match T payout with
        | some _ => .error .alreadyRegistered
        | none => .ok (Function.update T payout (some ⟨donorId, share, true⟩), [])
    | .updateShare payout share => do
        let donor ← T.find payout
        return (Function.update T payout (some { donor with share := share }), [])
    | .setActive payout active => do
        let donor ← T.find payout
        return (Function.update T payout (some { donor with active := active }), [])
    | .emitSplit payout gross jobId => do
        let donor ← T.find payout
        return (T, [donor.split payout gross jobId])

theorem Table.find_eq_ok {T : Table} {payout : Pubkey} {donor : Donor} :
    T.find payout = .ok donor ↔ T payout = some donor := by
  unfold Table.find
  split
  · rename_i found
    simp [found]
  · rename_i missing
    simp [missing]

/-! ## The table of a registry -/

def share? (basisPoints : UInt16) : Option Share :=
  if within : basisPoints.toNat ≤ 10000 then some ⟨basisPoints.toNat, within⟩ else none

theorem share?_of_within {basisPoints : UInt16} (within : basisPoints ≤ maxBasisPoints) :
    share? basisPoints = some ⟨basisPoints.toNat, shareBasisPoints_le within⟩ :=
  dif_pos (shareBasisPoints_le within)

theorem within_of_share? {basisPoints : UInt16} {share : Share}
    (fits : share? basisPoints = some share) : basisPoints ≤ maxBasisPoints := by
  obtain ⟨within, -⟩ := Option.dite_none_right_eq_some.mp fits
  exact UInt16.le_iff_toNat_le.mpr within

def donorOf (account : DonorAccount) : Option Donor :=
  (share? account.shareBasisPoints).map fun share => ⟨account.donorId, share, account.active⟩

theorem donorOf_of_within (account : DonorAccount)
    (within : account.shareBasisPoints ≤ maxBasisPoints) :
    donorOf account = some ⟨account.donorId,
      ⟨account.shareBasisPoints.toNat, shareBasisPoints_le within⟩, account.active⟩ := by
  rw [donorOf, share?_of_within within]
  rfl

def tableOf (R : Runtime) (s : Registry) : Table := fun payout => do
  let (key, _) ← R.findProgramAddress (donorSeeds payout) programId
  let account ← s key
  if account.payout = payout then donorOf account else none

/-- The order that an instruction gives, if the accounts it names are there. -/
def order (s : Registry) : Instruction → Option Order
  | .register ctx basisPoints donorId => do
      return .register ctx.accounts.payout.key (← share? basisPoints) donorId
  | .updateShare ctx basisPoints => do
      let account ← s ctx.accounts.donor.key
      return .updateShare account.payout (← share? basisPoints)
  | .setActive ctx active => do
      let account ← s ctx.accounts.donor.key
      return .setActive account.payout active
  | .emitSplit ctx gross jobId => do
      let account ← s ctx.accounts.donor.key
      return .emitSplit account.payout gross jobId

section TableOf
variable {R : Runtime} {s : Registry}

theorem tableOf_empty : tableOf R empty = fun _ => none := by
  funext payout
  simp [tableOf, empty]

theorem tableOf_of_found {payout key : Pubkey} {bump : UInt8}
    (found : R.findProgramAddress (donorSeeds payout) programId = some (key, bump)) :
    tableOf R s payout =
      (s key).bind fun account => if account.payout = payout then donorOf account else none := by
  simp only [tableOf, found]
  rfl

theorem WellFormed.tableOf_of_stored (wellFormed : WellFormed R s) {key : Pubkey}
    {account : DonorAccount} (stored : s key = some account) :
    tableOf R s account.payout = donorOf account := by
  rw [tableOf_of_found (wellFormed.address key account stored), stored, Option.bind_some,
    if_pos rfl]

theorem WellFormed.find_of_stored (wellFormed : WellFormed R s) {key : Pubkey}
    {account : DonorAccount} (stored : s key = some account) :
    (tableOf R s).find account.payout = .ok ⟨account.donorId,
      ⟨_, shareBasisPoints_le (wellFormed.within key account stored)⟩, account.active⟩ := by
  rw [Table.find_eq_ok, wellFormed.tableOf_of_stored stored]
  exact donorOf_of_within account (wellFormed.within key account stored)

/-- Writing an account where only accounts of the same payout have been writes one entry. -/
theorem tableOf_update {key : Pubkey} (written : DonorAccount)
    (address : R.findProgramAddress (donorSeeds written.payout) programId =
      some (key, written.bump))
    (same : ∀ account, s key = some account → account.payout = written.payout) :
    tableOf R (Function.update s key (some written)) =
      Function.update (tableOf R s) written.payout (donorOf written) := by
  funext payout
  by_cases own : payout = written.payout
  · subst own
    rw [Function.update_self, tableOf_of_found address, Function.update_self, Option.bind_some,
      if_pos rfl]
  · rw [Function.update_of_ne own]
    cases found : R.findProgramAddress (donorSeeds payout) programId with
    | none => simp [tableOf, found]
    | some place =>
        obtain ⟨key', bump⟩ := place
        rw [tableOf_of_found found, tableOf_of_found found]
        by_cases here : key' = key
        · subst here
          rw [Function.update_self, Option.bind_some, if_neg (Ne.symm own)]
          cases stored : s key' with
          | none => rfl
          | some account =>
              have other : account.payout ≠ payout := fun equal =>
                own (equal.symm.trans (same account stored))
              rw [Option.bind_some, if_neg other]
        · rw [Function.update_of_ne here]

theorem WellFormed.tableOf_rewrite (wellFormed : WellFormed R s) {key : Pubkey}
    {account : DonorAccount} (stored : s key = some account) (written : DonorAccount)
    (payout : written.payout = account.payout) (bump : written.bump = account.bump)
    (within : written.shareBasisPoints ≤ maxBasisPoints) :
    tableOf R (Function.update s key (some written)) =
      Function.update (tableOf R s) account.payout
        (some ⟨written.donorId, ⟨_, shareBasisPoints_le within⟩, written.active⟩) := by
  have address := wellFormed.address key account stored
  rw [← payout, ← bump] at address
  have same (account' : DonorAccount) (stored' : s key = some account') :
      account'.payout = written.payout := by
    rw [stored] at stored'
    rw [← Option.some.inj stored', payout]
  rw [tableOf_update written address same, donorOf_of_within written within, payout]

/-! ## Refinement -/

theorem orders_stored {key : Pubkey} {account : DonorAccount} (stored : s key = some account)
    (gives : DonorAccount → Option Order) : (s key >>= gives) = gives account := by
  rw [stored]
  rfl

theorem register_follows {ctx : Context RegisterDonor} {basisPoints : UInt16} {donorId : UInt32}
    {bump : UInt8} (accepted : ctx.accounts.tryAccounts R s = .ok bump)
    (within : basisPoints ≤ maxBasisPoints) :
    ∃ o, order s (.register ctx basisPoints donorId) = some o ∧
      table.exec (tableOf R s) o = .ok (tableOf R (Function.update s ctx.accounts.donor.key
        (some ⟨ctx.accounts.payout.key, donorId, basisPoints, true, bump⟩)), []) := by
  have address := RegisterDonor.address accepted
  have fresh := RegisterDonor.fresh accepted
  have absent : tableOf R s ctx.accounts.payout.key = none := by
    rw [tableOf_of_found address, fresh]
    rfl
  refine ⟨.register ctx.accounts.payout.key ⟨_, shareBasisPoints_le within⟩ donorId, ?_, ?_⟩
  · rw [order, share?_of_within within]
    rfl
  · rw [tableOf_update _ address, donorOf_of_within _ within]
    · simp only [table, absent]
    · intro account stored
      rw [fresh] at stored
      cases stored

theorem refines_table : (program R).Refines table (tableOf R) order (WellFormed R) where
  keeps := keeps_wellFormed
  follows s i s' events wellFormed ok := by
    cases exec_eq_ok_iff.mp ok with
    | register accepted within => exact register_follows accepted within
    | @updateShare ctx basisPoints account accepted within =>
        have stored := existingDonor_stored accepted
        refine ⟨.updateShare account.payout ⟨_, shareBasisPoints_le within⟩, ?_, ?_⟩
        · rw [order, orders_stored stored, share?_of_within within]
          rfl
        · rw [wellFormed.tableOf_rewrite stored
            { account with shareBasisPoints := basisPoints } rfl rfl within]
          exact bind_eq_ok.mpr ⟨_, wellFormed.find_of_stored stored, rfl⟩
    | @setActive ctx active account accepted =>
        have stored := existingDonor_stored accepted
        refine ⟨.setActive account.payout active, ?_, ?_⟩
        · rw [order, orders_stored stored]
          rfl
        · rw [wellFormed.tableOf_rewrite stored { account with active := active } rfl rfl
            (wellFormed.within _ account stored)]
          exact bind_eq_ok.mpr ⟨_, wellFormed.find_of_stored stored, rfl⟩
    | @emitSplit ctx gross jobId account event accepted owed =>
        have stored := existingDonor_stored accepted
        rw [splitOwed_eq gross jobId (wellFormed.within _ _ stored)] at owed
        refine ⟨.emitSplit account.payout gross jobId, ?_, ?_⟩
        · rw [order, orders_stored stored]
          rfl
        · rw [← Except.ok.inj owed]
          exact bind_eq_ok.mpr ⟨_, wellFormed.find_of_stored stored, rfl⟩

/-! ## Which instructions succeed -/

/-- What is asked of the accounts of an instruction, whatever it orders. No other donor's account
is at the address that a new one is made at. -/
def InOrder (R : Runtime) (s : Registry) : Instruction → Prop
  | .register ctx _ _ =>
      ctx.accounts.registrar.isSigner = true ∧ ctx.accounts.systemProgram.key = systemProgramId ∧
      (∃ bump, R.findProgramAddress (donorSeeds ctx.accounts.payout.key) programId =
        some (ctx.accounts.donor.key, bump)) ∧
      R.fund ctx.accounts.registrar ctx.accounts.donor DonorAccount.size = .ok () ∧
      ctx.accounts.donor.isWritable = true ∧ ctx.accounts.registrar.isWritable = true ∧
      ∀ account, s ctx.accounts.donor.key = some account →
        account.payout = ctx.accounts.payout.key
  | .updateShare ctx _ =>
      ctx.accounts.registrar.isSigner = true ∧ ctx.accounts.donor.isWritable = true
  | .setActive ctx _ =>
      ctx.accounts.registrar.isSigner = true ∧ ctx.accounts.donor.isWritable = true
  | .emitSplit ctx _ _ =>
      ctx.accounts.registrar.isSigner = true ∧ ctx.accounts.donor.isWritable = true

theorem Effect.inOrder {s' : Registry} {i : Instruction} {events : List SplitOwed}
    (effect : Effect R s i s' events) : InOrder R s i := by
  cases effect with
  | register accepted within =>
      obtain ⟨signer, system, address, fresh, funded, writable, payer⟩ :=
        RegisterDonor.tryAccounts_eq_ok.mp accepted
      refine ⟨signer, system, ⟨_, address⟩, funded, writable, payer, fun account stored => ?_⟩
      rw [fresh] at stored
      cases stored
  | updateShare accepted within =>
      obtain ⟨-, signer, -, writable⟩ := existingDonor_eq_ok.mp accepted
      exact ⟨signer, writable⟩
  | setActive accepted =>
      obtain ⟨-, signer, -, writable⟩ := existingDonor_eq_ok.mp accepted
      exact ⟨signer, writable⟩
  | emitSplit accepted owed =>
      obtain ⟨-, signer, -, writable⟩ := existingDonor_eq_ok.mp accepted
      exact ⟨signer, writable⟩

theorem WellFormed.exec_of_table (wellFormed : WellFormed R s) {i : Instruction}
    (inOrder : InOrder R s i) {o : Order} (ordered : order s i = some o) {T : Table}
    {events : List SplitOwed} (taken : table.exec (tableOf R s) o = .ok (T, events)) :
    ∃ s' events, (program R).exec s i = .ok (s', events) := by
  cases i with
  | register ctx basisPoints donorId =>
      obtain ⟨signer, system, ⟨bump, address⟩, funded, writable, payer, own⟩ := inOrder
      obtain ⟨share, fits, placed⟩ := Option.bind_eq_some_iff.mp ordered
      obtain rfl := Option.some.inj placed
      have within := within_of_share? fits
      have fresh : s ctx.accounts.donor.key = none := by
        cases stored : s ctx.accounts.donor.key with
        | none => rfl
        | some account =>
            have entry := wellFormed.tableOf_of_stored stored
            rw [own account stored, donorOf_of_within _ (wellFormed.within _ _ stored)] at entry
            simp [table, entry] at taken
      have accepted := RegisterDonor.tryAccounts_eq_ok.mpr
        ⟨signer, system, address, fresh, funded, writable, payer⟩
      exact ⟨_, _, exec_eq_ok_iff.mpr (.register accepted within)⟩
  | updateShare ctx basisPoints =>
      obtain ⟨account, stored, ordered⟩ := Option.bind_eq_some_iff.mp ordered
      obtain ⟨share, fits, -⟩ := Option.bind_eq_some_iff.mp ordered
      have accepted := wellFormed.existingDonor_eq_ok_iff.mpr ⟨stored, inOrder⟩
      exact ⟨_, _, exec_eq_ok_iff.mpr (.updateShare accepted (within_of_share? fits))⟩
  | setActive ctx active =>
      obtain ⟨account, stored, -⟩ := Option.bind_eq_some_iff.mp ordered
      have accepted := wellFormed.existingDonor_eq_ok_iff.mpr ⟨stored, inOrder⟩
      exact ⟨_, _, exec_eq_ok_iff.mpr (.setActive accepted)⟩
  | emitSplit ctx gross jobId =>
      obtain ⟨account, stored, -⟩ := Option.bind_eq_some_iff.mp ordered
      have accepted := wellFormed.existingDonor_eq_ok_iff.mpr ⟨stored, inOrder⟩
      have split := splitOwed_eq gross jobId (wellFormed.within _ _ stored)
      exact ⟨_, _, exec_eq_ok_iff.mpr (.emitSplit accepted split)⟩

theorem WellFormed.succeeds_iff (wellFormed : WellFormed R s) (i : Instruction) :
    ((program R).step s i).succeeded = true ↔
      InOrder R s i ∧ ∃ o, order s i = some o ∧
        (table.step (tableOf R s) o).succeeded = true := by
  constructor
  · intro succeeded
    obtain ⟨s', events, ok⟩ := Machine.succeeded_step_iff.mp succeeded
    obtain ⟨o, ordered, taken⟩ := refines_table.follows s i s' events wellFormed ok
    exact ⟨(exec_eq_ok_iff.mp ok).inOrder, o, ordered, Machine.succeeded_step_iff.mpr ⟨_, _, taken⟩⟩
  · intro ⟨inOrder, o, ordered, succeeded⟩
    obtain ⟨T, events, taken⟩ := Machine.succeeded_step_iff.mp succeeded
    exact Machine.succeeded_step_iff.mpr (wellFormed.exec_of_table inOrder ordered taken)

end TableOf

/-- The registry is a table of donors by payout key: a run leaves the table that its orders make,
emits what they emit, and takes the orders that come with their accounts in order and that the
table takes, and no others. -/
theorem donors_tabulated (R : Runtime) (is : List Instruction) :
    let s := (program R).after empty is
    let orders := (program R).orders order empty is
    table.after (fun _ => none) orders = tableOf R s ∧
    table.emitted (fun _ => none) orders = (program R).emitted empty is ∧
    (∀ t ∈ table.trace (fun _ => none) orders, t.succeeded = true) ∧
    ∀ i, ((program R).step s i).succeeded = true ↔
      InOrder R s i ∧ ∃ o, order s i = some o ∧
        (table.step (tableOf R s) o).succeeded = true := by
  intro s orders
  have run := refines_table.run (wellFormed_empty (R := R)) is
  rw [tableOf_empty] at run
  exact ⟨run.1, run.2.1, run.2.2, (wellFormed_after is).succeeds_iff⟩

/-- A donor that is registered and is owed a split, and an update that the table takes. -/
theorem donors_tabulated_split :
    let is := [registerBy 1 5 donorFive 4000 7, emitSplitBy 1 donorFive 1001 jobZero]
    let s := (program referenceRuntime).after empty is
    let orders := (program referenceRuntime).orders order empty is
    orders = [.register (solePubkey 5) ⟨4000, by decide⟩ 7,
      .emitSplit (solePubkey 5) 1001 jobZero] ∧
    table.after (fun _ => none) orders = tableOf referenceRuntime s ∧
    table.emitted (fun _ => none) orders = [⟨7, solePubkey 5, 400, 1001, jobZero⟩] ∧
    InOrder referenceRuntime s (updateShareBy 1 donorFive 250) ∧
    ∃ o, order s (updateShareBy 1 donorFive 250) = some o ∧
      (table.step (tableOf referenceRuntime s) o).succeeded = true := by
  intro is s orders
  obtain ⟨after, emitted, -, succeeds⟩ := donors_tabulated referenceRuntime is
  obtain ⟨inOrder, taken⟩ := (succeeds (updateShareBy 1 donorFive 250)).mp (by decide)
  exact ⟨rfl, after, emitted.trans (by decide), inOrder, taken⟩

end NttX402.Proof
