import NttX402.Proof.DonorAuthority

namespace NttX402.Proof
open Library Programs Programs.DonorRegistry
variable {R : Runtime}

/-! ## What a job owes -/

def owedFor (trace : List Step) (jobId : Vector UInt8 16) : List Nat :=
  ((trace.flatMap Transition.events).filter (·.jobId = jobId)).map (·.owedMicrosUsdc.toNat)

/-- The splits of a job never add up to more than the gross amount that they all state. -/
def Conserves (R : Runtime) (is : List Instruction) : Prop :=
  ∀ (jobId : Vector UInt8 16) (gross : UInt64),
    (∀ e ∈ (program R).emitted empty is, e.jobId = jobId → e.grossMicrosUsdc = gross) →
    (owedFor ((program R).trace empty is) jobId).sum ≤ gross.toNat

/-- A replayed split, for a donor that gets everything. -/
theorem replayed_split : ¬Conserves referenceRuntime
    [registerBy 1 5 donorFive 10000 7, emitSplitBy 1 donorFive 100 (Vector.replicate 16 0),
      emitSplitBy 1 donorFive 100 (Vector.replicate 16 0)] := by
  intro conserves
  have total := conserves (Vector.replicate 16 0) 100 (by decide)
  revert total
  decide

/-- The share of the donor that a split is for, before the step. -/
def shareInForce (t : Step) : Nat :=
  match t.instruction with
  | .emitSplit ctx _ _ =>
    ((t.before ctx.accounts.donor.key).map fun donor => donor.shareBasisPoints.toNat).getD 0
  | _ => 0

def sharesFor (trace : List Step) (jobId : Vector UInt8 16) : List Nat :=
  trace.flatMap fun t => (t.events.filter (·.jobId = jobId)).map fun _ => shareInForce t

def OwesShare (t : Step) : Prop :=
  shareInForce t ≤ 10000 ∧
    ∀ e ∈ t.events, e.owedMicrosUsdc.toNat = portion 10000 e.grossMicrosUsdc.toNat (shareInForce t)

theorem WellFormed.owesShare {s : Registry} (wellFormed : WellFormed R s) (i : Instruction) :
    OwesShare ((program R).step s i) := by
  constructor
  · cases i with
    | emitSplit ctx gross jobId =>
        simp only [shareInForce, Machine.step_instruction, Machine.step_before]
        cases stored : s ctx.accounts.donor.key with
        | none => simp
        | some donor => exact shareBasisPoints_le (wellFormed.within _ _ stored)
    | _ => exact Nat.zero_le _
  · rcases step_cases (R := R) s i with ⟨e, step⟩ | ⟨s', events, step, effect⟩
    · rw [step]
      simp
    · rw [step]
      cases effect with
      | @emitSplit ctx gross jobId donor event accepted owed =>
          have stored := existingDonor_stored accepted
          have within := wellFormed.within _ _ stored
          obtain rfl := Except.ok.inj ((splitOwed_eq gross jobId within).symm.trans owed)
          simp [shareInForce, stored, owed_toNat gross within]
      | _ => simp

theorem WellFormed.trace_owesShare {s : Registry} (wellFormed : WellFormed R s)
    (is : List Instruction) : ∀ t ∈ (program R).trace s is, OwesShare t :=
  keeps_wellFormed.trace wellFormed (fun _ i wellFormed => wellFormed.owesShare i) is

theorem owedFor_eq {trace : List Step} (owes : ∀ t ∈ trace, OwesShare t) {jobId : Vector UInt8 16}
    {gross : UInt64} (stated : ∀ e ∈ trace.flatMap Transition.events, e.jobId = jobId →
      e.grossMicrosUsdc = gross) :
    owedFor trace jobId = (sharesFor trace jobId).map (portion 10000 gross.toNat) := by
  induction trace with
  | nil => rfl
  | cons t trace ih =>
      obtain ⟨first, rest⟩ := List.forall_mem_cons.mp owes
      rw [List.flatMap_cons] at stated
      have one : ((t.events.filter (·.jobId = jobId)).map (·.owedMicrosUsdc.toNat)) =
          ((t.events.filter (·.jobId = jobId)).map fun _ => shareInForce t).map
            (portion 10000 gross.toNat) := by
        rw [List.map_map]
        apply List.map_congr_left
        intro e member
        obtain ⟨member, same⟩ := List.mem_filter.mp member
        have job := stated e (List.mem_append_left _ member) (of_decide_eq_true same)
        rw [first.2 e member, job]
        rfl
      have others := ih rest fun e member => stated e (List.mem_append_right _ member)
      unfold owedFor sharesFor at others ⊢
      rw [List.flatMap_cons, List.flatMap_cons, List.filter_append, List.map_append,
        List.map_append, one, others]

/-- What the splits of a job owe is worked out from the shares in force at each of them: it stays
within the gross amount as long as these shares do not exceed the whole. -/
theorem owedFor_le (R : Runtime) (is : List Instruction) (jobId : Vector UInt8 16) (gross : UInt64)
    (stated : ∀ e ∈ (program R).emitted empty is, e.jobId = jobId → e.grossMicrosUsdc = gross) :
    let trace := (program R).trace empty is
    owedFor trace jobId = (sharesFor trace jobId).map (portion 10000 gross.toNat) ∧
    (∀ amount ∈ owedFor trace jobId, amount ≤ gross.toNat) ∧
    (owedFor trace jobId).sum * 10000 ≤ gross.toNat * (sharesFor trace jobId).sum ∧
    gross.toNat * (sharesFor trace jobId).sum ≤
      (owedFor trace jobId).sum * 10000 + (sharesFor trace jobId).length * 9999 ∧
    ((sharesFor trace jobId).sum ≤ 10000 → (owedFor trace jobId).sum ≤ gross.toNat) := by
  have owes := (wellFormed_empty (R := R)).trace_owesShare is
  have amounts := owedFor_eq owes stated
  have within : ∀ share ∈ sharesFor ((program R).trace empty is) jobId, share ≤ 10000 := by
    intro share member
    obtain ⟨t, step, shares⟩ := List.mem_flatMap.mp member
    obtain ⟨-, -, rfl⟩ := List.mem_map.mp shares
    exact (owes t step).1
  intro trace
  refine ⟨amounts, ?_⟩
  rw [amounts]
  refine ⟨?_, sum_portion_mul_le .., le_sum_portion_mul _ _ _ (by decide),
    sum_portion_le _ _ _ (by decide)⟩
  intro amount member
  obtain ⟨share, listed, rfl⟩ := List.mem_map.mp member
  exact portion_le (within share listed)

theorem owedFor_le_two_donors :
    let trace := (program referenceRuntime).trace empty
      [registerBy 1 5 donorFive 4000 7, registerBy 2 6 donorSix 6000 8,
        emitSplitBy 1 donorFive 1001 (Vector.replicate 16 0),
        emitSplitBy 1 donorSix 1001 (Vector.replicate 16 0)]
    let jobId : Vector UInt8 16 := Vector.replicate 16 0
    owedFor trace jobId = (sharesFor trace jobId).map (portion 10000 (1001 : UInt64).toNat) ∧
    (∀ amount ∈ owedFor trace jobId, amount ≤ (1001 : UInt64).toNat) ∧
    (owedFor trace jobId).sum * 10000 ≤ (1001 : UInt64).toNat * (sharesFor trace jobId).sum ∧
    (1001 : UInt64).toNat * (sharesFor trace jobId).sum ≤
      (owedFor trace jobId).sum * 10000 + (sharesFor trace jobId).length * 9999 ∧
    ((sharesFor trace jobId).sum ≤ 10000 →
      (owedFor trace jobId).sum ≤ (1001 : UInt64).toNat) :=
  owedFor_le referenceRuntime _ _ 1001 (by decide)

end NttX402.Proof
