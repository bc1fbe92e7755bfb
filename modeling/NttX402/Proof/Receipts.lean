import NttX402.Programs.Layout

namespace NttX402.Proof
open Library Programs Programs.ReceiptRegistry

/-! ## What a call logs -/

def receipt (i : Instruction) : ReceiptEmitted :=
  ⟨i.ctx.accounts.emitter.key, i.jobId, i.callerAddrHash, i.paymentTx, i.proofOfExecution,
    i.timestamp, i.backendTag⟩

def signed (i : Instruction) : Bool := i.ctx.accounts.emitter.isSigner

theorem step_events (i : Instruction) :
    (program.step () i).events = if signed i then [receipt i] else [] := by
  cases given : i.ctx.accounts.emitter.isSigner with
  | false =>
      have refused : program.exec () i = .error .accountNotSigner := by
        simp [program, emit, EmitReceipt.tryAccounts, Signer.tryFrom, given, bind, Except.bind,
          Except.map]
      rw [Machine.step_of_exec refused, Transition.events_error, signed, given]
      rfl
  | true =>
      have emitted : program.exec () i = .ok ((), [receipt i]) := by
        simp [program, emit, EmitReceipt.tryAccounts, Signer.tryFrom, given, bind, Except.bind,
          Except.map, receipt]
      rw [Machine.step_of_exec emitted, Transition.events_ok, signed, given]
      rfl

theorem log_eq (is : List Instruction) :
    program.emitted () is = (is.filter signed).map receipt := by
  induction is with
  | nil => rfl
  | cons i is ih =>
      have rest : (program.trace () is).flatMap Transition.events = program.emitted () is := rfl
      rw [Machine.emitted, Machine.trace, List.flatMap_cons, rest, ih, step_events]
      cases given : signed i with
      | false => simp [given]
      | true => simp [given]

/-! ## The receipts of one emitter -/

def emittedBy (key : Pubkey) (i : Instruction) : Bool :=
  signed i && decide (i.ctx.accounts.emitter.key = key)

theorem signedBy_of_emittedBy {key : Pubkey} {i : Instruction} (emitted : emittedBy key i = true) :
    i.signedBy key = true := by
  obtain ⟨given, own⟩ := (Bool.and_eq_true ..).mp emitted
  apply List.any_eq_true.mpr
  exact ⟨_, List.mem_cons_self, decide_eq_true ⟨of_decide_eq_true own, given⟩⟩

theorem log_filter (key : Pubkey) (is : List Instruction) :
    (program.emitted () is).filter (·.emitter = key) = (is.filter (emittedBy key)).map receipt := by
  rw [log_eq, List.filter_map, List.filter_filter]
  congr 1
  apply List.filter_congr
  intro i _
  exact Bool.and_comm ..

theorem filter_signedBy (key : Pubkey) (is : List Instruction) :
    (is.filter (·.signedBy key)).filter (emittedBy key) = is.filter (emittedBy key) := by
  rw [List.filter_filter]
  apply List.filter_congr
  intro i _
  cases emitted : emittedBy key i with
  | false => rfl
  | true => exact signedBy_of_emittedBy emitted

/-! ## The bytes of the log -/

theorem slice_receipt (sha256 : List UInt8 → Vector UInt8 32) (e : ReceiptEmitted) :
    Codec.slice 8 32 ((ReceiptEmitted.codec sha256).encode e) = e.emitter.asRef := by
  have size : e.emitter.asRef.length = 32 := by simp [Pubkey.asRef]
  rw [← Pubkey.encode_eq] at size ⊢
  exact Codec.slice_middle (discriminator_length sha256 _) size

/-- The log holds one receipt for each signed call, in order, with the emitter's own signature
behind it. The part of the log that names an emitter depends on nothing but the calls that the
emitter signed, and it can be picked out of the bytes by comparing those of the emitter. -/
theorem receipts_logged (sha256 : List UInt8 → Vector UInt8 32) (is : List Instruction) :
    let log := program.emitted () is
    let raw := log.map (ReceiptEmitted.codec sha256).encode
    log = (is.filter signed).map receipt ∧
    (∀ e ∈ log, ∃ i ∈ is, i.signedBy e.emitter = true ∧ e = receipt i) ∧
    (∀ key js, is.filter (·.signedBy key) = js.filter (·.signedBy key) →
      log.filter (·.emitter = key) = (program.emitted () js).filter (·.emitter = key)) ∧
    raw.map (ReceiptEmitted.codec sha256).decode = log.map (fun e => some (e, [])) ∧
    ∀ key : Pubkey, raw.filter (Codec.slice 8 32 · = key.asRef) =
      (log.filter (·.emitter = key)).map (ReceiptEmitted.codec sha256).encode := by
  refine ⟨log_eq is, ?_, ?_, ?_, ?_⟩
  · intro e member
    rw [log_eq] at member
    obtain ⟨i, listed, rfl⟩ := List.mem_map.mp member
    obtain ⟨listed, given⟩ := List.mem_filter.mp listed
    refine ⟨i, listed, signedBy_of_emittedBy ?_, rfl⟩
    exact (Bool.and_eq_true ..).mpr ⟨given, decide_eq_true rfl⟩
  · intro key js same
    rw [log_filter, log_filter, ← filter_signedBy, same, filter_signedBy]
  · exact Codec.map_decode_encode _ _
  · intro key
    exact Codec.filter_slice _ Pubkey.asRef_injective (slice_receipt sha256) _ key

end NttX402.Proof
