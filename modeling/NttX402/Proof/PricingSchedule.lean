import NttX402.Library.Ladder
import NttX402.Programs.PricingSchedule
import NttX402.Proof.DonorAuthority
import NttX402.Worker.Quote

namespace NttX402.Proof
open Library Programs Programs.PricingSchedule

/-! ## Tier tables -/

instance linearOrderUInt8 : LinearOrder UInt8 where
  le_refl := UInt8.le_refl
  le_trans _ _ _ := UInt8.le_trans
  le_antisymm _ _ := UInt8.le_antisymm
  le_total := UInt8.le_total
  lt_iff_le_not_ge := Std.LawfulOrderLT.lt_iff
  toDecidableLE := inferInstance

def OrderedTiers (tiers : Vector Tier 4) : Prop := Ascending Tier.maxLog2 tiers.toList

instance (tiers : Vector Tier 4) : Decidable (OrderedTiers tiers) :=
  inferInstanceAs (Decidable (Ascending _ _))

/-- The first tier up to at least this degree. -/
def tierFor (tiers : Vector Tier 4) (degree : UInt8) : Option Tier :=
  rungFor Tier.maxLog2 tiers.toList degree

def TightestTier (tiers : Vector Tier 4) (degree : UInt8) (tier : Tier) : Prop :=
  Tightest Tier.maxLog2 tiers.toList degree tier

/-- The table is strictly ascending, so that the first tier that a degree is within is the tightest
one. -/
def WellPriced (tiers : Vector Tier 4) : Prop :=
  OrderedTiers tiers ∧
    ∀ degree tier, tierFor tiers degree = some tier ↔ TightestTier tiers degree tier

theorem OrderedTiers.wellPriced {tiers : Vector Tier 4} (ordered : OrderedTiers tiers) :
    WellPriced tiers :=
  ⟨ordered, fun _ _ => ordered.rungFor_eq_some_iff⟩

/-- The arms of `price_micros_for`, of which the last one takes every degree. -/
def quoteTiers : Vector Tier 4 := #v[⟨8, 1000⟩, ⟨12, 10000⟩, ⟨16, 100000⟩, ⟨255, 1000000⟩]

theorem quoteTiers_wellPriced : WellPriced quoteTiers := OrderedTiers.wellPriced (by decide)

theorem tierFor_quoteTiers (degree : UInt8) :
    (tierFor quoteTiers degree).map Tier.microsUsdc = some (Worker.priceMicrosFor degree) := by
  have last : degree ≤ 255 := UInt8.le_iff_toNat_le.mpr (Nat.le_of_lt_succ degree.toNat_lt)
  simp only [tierFor, rungFor, quoteTiers, Worker.priceMicrosFor, Vector.toList_mk,
    List.find?_cons]
  by_cases eight : degree ≤ 8
  · simp [eight]
  · by_cases twelve : degree ≤ 12
    · simp [eight, twelve]
    · by_cases sixteen : degree ≤ 16
      · simp [eight, twelve, sixteen]
      · simp [eight, twelve, sixteen, last]

theorem quoteFor_ok_iff_tierFor (degree : Worker.PolyDegreeLog2) (cap : Worker.MaxDegreeLog2)
    (price : Worker.NttCallPriceMicrosUsdc) :
    Worker.quoteFor degree cap = .ok price ↔
      degree.get ≤ cap.get ∧ ∃ tier, tierFor quoteTiers degree.get = some tier ∧
        price = ⟨tier.microsUsdc⟩ := by
  obtain ⟨tier, found, priced⟩ := Option.map_eq_some_iff.mp (tierFor_quoteTiers degree.get)
  simp only [Worker.quoteFor_ok_iff, found, Option.some.injEq, exists_eq_left', priced]

/-! ## What a call does -/

section Calls
variable {R : Runtime} {programId : Pubkey}

theorem initializes_iff {s s' : Schedules} {i : Instruction} {events : List Empty} :
    (program R programId).exec s i = .ok (s', events) ↔
      ∃ bump, i.ctx.accounts.tryAccounts R programId s = .ok bump ∧
        s' = Function.update s i.ctx.accounts.schedule.key (some ⟨i.tiers, bump⟩) ∧
        events = [] := by
  constructor
  · intro ok
    obtain ⟨bump, accepted, ok⟩ := bind_eq_ok.mp ok
    obtain ⟨rfl, rfl⟩ := Prod.mk.inj (Except.ok.inj ok)
    exact ⟨bump, accepted, rfl, rfl⟩
  · rintro ⟨bump, accepted, rfl, rfl⟩
    exact bind_eq_ok.mpr ⟨bump, accepted, rfl⟩

/-! ## One schedule for ever -/

def hasSchedule (R : Runtime) (programId : Pubkey) (s : Schedules) : Bool :=
  (R.findProgramAddress [scheduleSeed] programId).any fun found => (s found.1).isSome

theorem succeeded_step_iff (s : Schedules) (i : Instruction) :
    ((program R programId).step s i).succeeded = true ↔
      ¬hasSchedule R programId s = true ∧
        hasSchedule R programId ((program R programId).step s i).after = true := by
  rcases Machine.step_cases (M := program R programId) s i with
    ⟨e, step⟩ | ⟨s', events, step, ok⟩
  · simp [step]
  · obtain ⟨bump, accepted, rfl, rfl⟩ := initializes_iff.mp ok
    simp [step, hasSchedule, Initialize.address accepted, Initialize.fresh accepted]

theorem keeps_stored (a : Pubkey) (schedule : ScheduleAccount) :
    (program R programId).Keeps fun s => s a = some schedule := by
  intro s i s' events stored ok
  obtain ⟨bump, accepted, rfl, -⟩ := initializes_iff.mp ok
  exact stored_of_update (Initialize.fresh accepted) _ stored

theorem keeps_hasSchedule :
    (program R programId).Keeps fun s => hasSchedule R programId s = true := by
  intro s i s' events has ok
  obtain ⟨found, address, stored⟩ := (Option.any_eq_true ..).mp has
  obtain ⟨schedule, stored⟩ := Option.isSome_iff_exists.mp stored
  have kept := keeps_stored found.1 schedule s i s' events stored ok
  exact (Option.any_eq_true ..).mpr ⟨found, address, by simp [kept]⟩

/-! ## The order of the stored tiers -/

def AllWellPriced (s : Schedules) : Prop :=
  ∀ a schedule, s a = some schedule → WellPriced schedule.tiers

def AlwaysWellPriced (R : Runtime) (programId : Pubkey) (is : List Instruction) : Prop :=
  ∀ earlier later, is = earlier ++ later →
    AllWellPriced ((program R programId).after empty earlier)

/-- If the accounts of the call are accepted, then its table is strictly ascending. -/
def BringsOrder (R : Runtime) (programId : Pubkey) (s : Schedules) (i : Instruction) : Prop :=
  ∀ bump, i.ctx.accounts.tryAccounts R programId s = .ok bump → OrderedTiers i.tiers

theorem AllWellPriced.update {s : Schedules} (priced : AllWellPriced s) {key : Pubkey}
    {written : ScheduleAccount} (own : WellPriced written.tiers) :
    AllWellPriced (Function.update s key (some written)) :=
  forall_stored_update (P := fun _ schedule => WellPriced (ScheduleAccount.tiers schedule)) priced
    own

theorem allWellPriced_step (s : Schedules) (i : Instruction) (priced : AllWellPriced s)
    (order : BringsOrder R programId s i) :
    AllWellPriced ((program R programId).step s i).after := by
  rcases Machine.step_cases (M := program R programId) s i with
    ⟨e, step⟩ | ⟨s', events, step, ok⟩
  · rwa [step]
  · obtain ⟨bump, accepted, rfl, -⟩ := initializes_iff.mp ok
    rw [step]
    exact priced.update (order bump accepted).wellPriced

theorem bringsOrder_of_allWellPriced {s : Schedules} {i : Instruction}
    (priced : AllWellPriced ((program R programId).step s i).after) :
    BringsOrder R programId s i := by
  intro bump accepted
  rw [Machine.step_of_exec (initializes_iff.mpr ⟨bump, accepted, rfl, rfl⟩)] at priced
  exact (priced _ _ (Function.update_self ..)).1

theorem alwaysWellPriced_iff (is : List Instruction) :
    AlwaysWellPriced R programId is ↔
      ∀ earlier i later, is = earlier ++ i :: later →
        BringsOrder R programId ((program R programId).after empty earlier) i := by
  constructor
  · intro always earlier i later split
    apply bringsOrder_of_allWellPriced
    rw [← Machine.after_concat]
    exact always (earlier ++ [i]) later (by simp [split])
  · intro order earlier later split
    have start : AllWellPriced empty := by
      intro a schedule stored
      cases stored
    apply Machine.after_of_each allWellPriced_step start
    intro earlier' i later' split'
    exact order earlier' i (later' ++ later) (by simp [split, split'])

/-- At most one call succeeds, and what it stored stays. The stored table is well priced, as the one
behind the quotes is, throughout a run in which no call with accepted accounts brings tiers out of
order, and in no other. -/
theorem schedule_written_once (R : Runtime) (programId : Pubkey) (is : List Instruction) :
    (((program R programId).trace empty is).filter Transition.succeeded).length ≤ 1 ∧
    (∀ earlier later, is = earlier ++ later → ∀ a schedule,
      (program R programId).after empty earlier a = some schedule →
        (program R programId).after empty is a = some schedule) ∧
    (AlwaysWellPriced R programId is ↔
      ∀ earlier i later, is = earlier ++ i :: later →
        BringsOrder R programId ((program R programId).after empty earlier) i) ∧
    WellPriced quoteTiers ∧
    ∀ degree cap price, Worker.quoteFor degree cap = .ok price ↔
      degree.get ≤ cap.get ∧ ∃ tier, tierFor quoteTiers degree.get = some tier ∧
        price = ⟨tier.microsUsdc⟩ := by
  refine ⟨?_, ?_, alwaysWellPriced_iff is, quoteTiers_wellPriced, quoteFor_ok_iff_tierFor⟩
  · rw [Machine.filter_trace keeps_hasSchedule succeeded_step_iff]
    split <;> simp
  · intro earlier later split a schedule stored
    rw [split, Machine.after_append]
    exact (keeps_stored a schedule).after stored later

end Calls

/-! ## A table out of order -/

/-- The address of the schedule under the program `solePubkey 1`. -/
def scheduleOne : Pubkey :=
  ⟨#v[124, 48, 4, 218, 166, 155, 10, 133, 140, 37, 255, 86, 63, 105, 165, 173, 134, 208, 24, 178,
    200, 230, 215, 43, 75, 9, 232, 190, 175, 180, 110, 147]⟩

def scheduleRuntime : Runtime where
  createProgramAddress seeds program :=
    if program = solePubkey 1 ∧ seeds = [scheduleSeed, [255]] then some scheduleOne else none
  fund := referenceRuntime.fund

def initializeBy (deployer : UInt8) (tiers : Vector Tier 4) : Instruction :=
  ⟨⟨⟨⟨scheduleOne, false, true, 0⟩, walletInfo deployer, ⟨systemProgramId, false, false, 1⟩⟩, []⟩,
    tiers⟩

def descendingTiers : Vector Tier 4 :=
  #v[⟨30, 1000000⟩, ⟨16, 100000⟩, ⟨12, 10000⟩, ⟨8, 1000⟩]

/-- Whoever calls first fixes a table out of order, by which every degree has the highest price. -/
theorem descending_tiers_stored :
    ¬AlwaysWellPriced scheduleRuntime (solePubkey 1) [initializeBy 9 descendingTiers] := by
  intro always
  have stored : (program scheduleRuntime (solePubkey 1)).after empty
      [initializeBy 9 descendingTiers] scheduleOne = some ⟨descendingTiers, 255⟩ := by decide
  have ordered := (always [initializeBy 9 descendingTiers] [] rfl _ _ stored).1
  revert ordered
  decide

end NttX402.Proof
