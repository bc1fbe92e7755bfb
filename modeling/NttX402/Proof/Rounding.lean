import NttX402.Proof.Splits

namespace NttX402.Proof
open Library Programs Programs.DonorRegistry
variable {R : Runtime}

/-! ## The splits of a donor -/

def splits (a : Pubkey) (t : Step) : Bool :=
  match t.instruction with
  | .emitSplit ctx _ _ => ctx.accounts.donor.key = a
  | _ => false

def splitsFor (trace : List Step) (a : Pubkey) : List SplitOwed :=
  (trace.filter (splits a)).flatMap Transition.events

/-- The donor at `a` has this share whenever a split is made for it. -/
def StaysAt (trace : List Step) (a : Pubkey) (share : UInt16) : Prop :=
  ∀ t ∈ trace, splits a t = true → ∀ donor, t.before a = some donor →
    donor.shareBasisPoints = share

/-- In total at most the share of the total is owed, and it is less than one unit short of it for
every event. -/
def WithoutDrift (share : UInt16) (events : List SplitOwed) : Prop :=
  let total := (events.map (·.owedMicrosUsdc.toNat)).sum
  let exact := share.toNat * (events.map (·.grossMicrosUsdc.toNat)).sum / 10000
  total ≤ exact ∧ exact ≤ total + (events.length - 1)

theorem withoutDrift_of_portions {share : UInt16} {events : List SplitOwed}
    (owes : ∀ e ∈ events,
      e.owedMicrosUsdc.toNat = portion 10000 e.grossMicrosUsdc.toNat share.toNat) :
    WithoutDrift share events := by
  have total : events.map (·.owedMicrosUsdc.toNat) =
      (events.map (·.grossMicrosUsdc.toNat)).map (portion 10000 share.toNat) := by
    rw [List.map_map]
    exact List.map_congr_left fun e member => (owes e member).trans portion_comm
  have length : (events.map (·.grossMicrosUsdc.toNat)).length = events.length := List.length_map ..
  rw [WithoutDrift, total, ← length]
  exact ⟨sum_portion_le_portion_sum _ _ _ (by decide), portion_sum_le_sum_portion _ _ _ (by decide)⟩

theorem share_of_splits {s : Registry} {i : Instruction} {a : Pubkey}
    (split : splits a ((program R).step s i) = true)
    {e : SplitOwed} (emitted : e ∈ ((program R).step s i).events) :
    ∃ donor, s a = some donor ∧
      shareInForce ((program R).step s i) = donor.shareBasisPoints.toNat := by
  rcases step_cases (R := R) s i with ⟨e', step⟩ | ⟨s', events, step, effect⟩
  · rw [step] at emitted
    cases emitted
  · rw [step] at split emitted ⊢
    cases effect with
    | @emitSplit ctx gross jobId donor event accepted owed =>
        have stored := existingDonor_stored accepted
        obtain rfl := of_decide_eq_true split
        exact ⟨donor, stored, by simp [shareInForce, stored]⟩
    | _ => cases emitted

theorem splitsFor_owes {s : Registry} (wellFormed : WellFormed R s) {is : List Instruction}
    {a : Pubkey} {share : UInt16} (stays : StaysAt ((program R).trace s is) a share) :
    ∀ e ∈ splitsFor ((program R).trace s is) a,
      e.owedMicrosUsdc.toNat = portion 10000 e.grossMicrosUsdc.toNat share.toNat := by
  intro e member
  obtain ⟨t, listed, emitted⟩ := List.mem_flatMap.mp member
  obtain ⟨listed, split⟩ := List.mem_filter.mp listed
  have owes := wellFormed.trace_owesShare is t listed
  obtain ⟨earlier, later, -, step⟩ := Machine.mem_trace_iff.mp listed
  have inForce : shareInForce t = share.toNat := by
    rw [step] at split emitted
    obtain ⟨donor, stored, force⟩ := share_of_splits split emitted
    rw [← step] at split force
    rw [force, stays t listed split donor (by rw [step]; exact stored)]
  rw [owes.2 e emitted, inForce]

/-! ## A list of splits -/

/-- A split for the donor at `a`, with the accounts that it must be given. -/
structure SplitCall (a : Pubkey) where
  ctx : Context SetActive
  gross : UInt64
  jobId : Vector UInt8 16
  given : Given a ctx.accounts.donor ctx.accounts.registrar

def SplitCall.instruction {a : Pubkey} (call : SplitCall a) : Instruction :=
  .emitSplit call.ctx call.gross call.jobId

def SplitCall.event {a : Pubkey} (call : SplitCall a) (donor : DonorAccount) : SplitOwed :=
  ⟨donor.donorId, donor.payout, owed donor call.gross, call.gross, call.jobId⟩

def splitFive (gross : UInt64) : SplitCall donorFive where
  ctx := ⟨⟨⟨donorFive, false, true, 1224960⟩, walletInfo 1⟩, []⟩
  gross := gross
  jobId := jobZero
  given := ⟨rfl, rfl, rfl⟩

theorem WellFormed.step_splitCall {s : Registry} (wellFormed : WellFormed R s) {a : Pubkey}
    {donor : DonorAccount} (stored : s a = some donor) (call : SplitCall a) :
    (program R).step s call.instruction = ⟨s, call.instruction, .ok (s, [call.event donor])⟩ := by
  obtain ⟨ctx, gross, jobId, rfl, writable, signer⟩ := call
  have accepted := wellFormed.existingDonor_eq_ok_iff.mpr ⟨stored, signer, writable⟩
  have split := splitOwed_eq gross jobId (wellFormed.within _ _ stored)
  exact Machine.step_of_exec (exec_eq_ok_iff.mpr (.emitSplit accepted split))

theorem WellFormed.trace_splitCalls {s : Registry} (wellFormed : WellFormed R s) {a : Pubkey}
    {donor : DonorAccount} (stored : s a = some donor) (calls : List (SplitCall a)) :
    (program R).trace s (calls.map SplitCall.instruction) =
      calls.map fun call => ⟨s, call.instruction, .ok (s, [call.event donor])⟩ := by
  induction calls with
  | nil => rfl
  | cons call calls ih =>
      rw [List.map_cons, Machine.trace, wellFormed.step_splitCall stored call]
      exact congrArg _ ih

theorem WellFormed.splitsFor_splitCalls {s : Registry} (wellFormed : WellFormed R s) {a : Pubkey}
    {donor : DonorAccount} (stored : s a = some donor) (calls : List (SplitCall a)) :
    splitsFor ((program R).trace s (calls.map SplitCall.instruction)) a =
      calls.map fun call => call.event donor := by
  rw [wellFormed.trace_splitCalls stored, splitsFor]
  induction calls with
  | nil => rfl
  | cons call calls ih =>
      have own : splits a (⟨s, call.instruction, .ok (s, [call.event donor])⟩ : Step) = true :=
        decide_eq_true call.given.1
      rw [List.map_cons, List.filter_cons_of_pos own, List.flatMap_cons, ih]
      rfl

/-! ## The result -/

/-- A donor whose share stays the same is owed, over any number of splits, the share of the total
up to less than one unit for each; every list of splits is made in full; and what one split owes
grows with the gross amount and with the share. -/
theorem splits_without_drift (R : Runtime) (earlier : List Instruction) :
    let s := (program R).after empty earlier
    (∀ is a share, StaysAt ((program R).trace s is) a share →
      WithoutDrift share (splitsFor ((program R).trace s is) a)) ∧
    (∀ a donor, s a = some donor → ∀ calls : List (SplitCall a),
      let events := splitsFor ((program R).trace s (calls.map SplitCall.instruction)) a
      events.map (·.grossMicrosUsdc) = calls.map (·.gross) ∧
        WithoutDrift donor.shareBasisPoints events) ∧
    ∀ is is', ∀ t ∈ (program R).trace s is, ∀ t' ∈ (program R).trace s is',
      ∀ e ∈ t.events, ∀ e' ∈ t'.events, e.grossMicrosUsdc ≤ e'.grossMicrosUsdc →
        shareInForce t ≤ shareInForce t' → e.owedMicrosUsdc ≤ e'.owedMicrosUsdc := by
  intro s
  have wellFormed : WellFormed R s := wellFormed_after earlier
  refine ⟨?_, ?_, ?_⟩
  · intro is a share stays
    exact withoutDrift_of_portions (splitsFor_owes wellFormed stays)
  · intro a donor stored calls events
    have made : events = calls.map fun call => call.event donor :=
      wellFormed.splitsFor_splitCalls stored calls
    rw [made]
    refine ⟨by rw [List.map_map]; rfl, withoutDrift_of_portions ?_⟩
    intro e member
    obtain ⟨call, -, rfl⟩ := List.mem_map.mp member
    exact owed_toNat call.gross (wellFormed.within a donor stored)
  · intro is is' t listed t' listed' e emitted e' emitted' gross share
    have owes := wellFormed.trace_owesShare is t listed
    have owes' := wellFormed.trace_owesShare is' t' listed'
    rw [UInt64.le_iff_toNat_le, owes.2 e emitted, owes'.2 e' emitted']
    exact portion_mono (UInt64.le_iff_toNat_le.mp gross) share

/-- Two splits of 5 for a donor with a share of 50 percent: 2 and 2 are owed, 5 in exact terms. -/
theorem splits_without_drift_halves :
    let s := (program referenceRuntime).after empty [registerBy 1 5 donorFive 5000 7]
    let donor : DonorAccount := ⟨solePubkey 5, 7, 5000, true, 255⟩
    let calls := [splitFive 5, splitFive 5]
    let trace := (program referenceRuntime).trace s (calls.map SplitCall.instruction)
    s donorFive = some donor ∧
    (splitsFor trace donorFive).map (·.owedMicrosUsdc) = [2, 2] ∧
    (splitsFor trace donorFive).map (·.grossMicrosUsdc) = [5, 5] ∧
    WithoutDrift 5000 (splitsFor trace donorFive) := by
  intro s donor calls trace
  have stored : s donorFive = some donor := by decide
  obtain ⟨-, listed, -⟩ :=
    splits_without_drift referenceRuntime [registerBy 1 5 donorFive 5000 7]
  obtain ⟨made, drift⟩ := listed donorFive donor stored calls
  exact ⟨stored, by decide, made, drift⟩

end NttX402.Proof
