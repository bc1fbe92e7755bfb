import NttX402.Proof.PaidRun
import NttX402.Proof.Response

namespace NttX402.Proof
open Worker Library Library.Json

/-! ## The amount in the requirements -/

theorem toString_injective {a b : UInt64} (equal : toString a = toString b) : a = b := by
  have digits := congrArg (fun s => Nat.ofDigitChars 10 s.toList 0) equal
  simp only [toString_toList] at digits
  rw [Nat.ofDigitChars_toDigits (by decide) (by decide),
    Nat.ofDigitChars_toDigits (by decide) (by decide)] at digits
  exact UInt64.toNat_inj.mp digits

theorem requirementsTemplate_injective {network mint seller feePayer s t : String}
    (equal : requirementsTemplate network mint s seller feePayer =
      requirementsTemplate network mint t seller feePayer) : s = t := by
  unfold requirementsTemplate at equal
  simpa using equal

theorem requirementsAt_injective {env : Env} {a b : UInt64}
    (equal : requirementsAt env a = requirementsAt env b) : a = b :=
  toString_injective (requirementsTemplate_injective (PaymentRequirementsJson.mk.inj equal))

/-- The variables that the requirements quote need no escaping. -/
structure PlainEnv (env : Env) : Prop where
  mint : Every isPlain
    (varOr env "USDC_MINT" "4zMMC9srt5Ri5X14GAgXhaHii3GnPAEERYPJgZJDncDU").toList
  seller : Every isPlain (varOr env "SELLER_PUBKEY" "11111111111111111111111111111111").toList
  feePayer : Every isPlain
    (varOr env "FACILITATOR_FEE_PAYER" "CKPKJWNdJEqa81x7CkZ14BVPiY6y16Sxs7owznqtWYp5").toList

theorem plain_networkOf (env : Env) : Every isPlain (networkOf env).toList := by
  unfold networkOf
  split
  · split <;> decide
  · decide

def requirementsMembers (env : Env) (amount : UInt64) : List (List Item × Value) :=
  [(literal "scheme", .string (literal "exact")),
    (literal "network", .string (literal (networkOf env))),
    (literal "asset", .string (literal
      (varOr env "USDC_MINT" "4zMMC9srt5Ri5X14GAgXhaHii3GnPAEERYPJgZJDncDU"))),
    (literal "maxAmountRequired", .string (literal (toString amount))),
    (literal "resource", .string (literal resourceUrl)),
    (literal "description", .string (literal tierDescription)),
    (literal "payTo", .string (literal
      (varOr env "SELLER_PUBKEY" "11111111111111111111111111111111"))),
    (literal "maxTimeoutSeconds",
      .number (Number.ofNat maxTimeoutSeconds.toNat)),
    (literal "extra",
      .object [(literal "feePayer", .string (literal
        (varOr env "FACILITATOR_FEE_PAYER" "CKPKJWNdJEqa81x7CkZ14BVPiY6y16Sxs7owznqtWYp5")))])]

set_option maxRecDepth 2000 in
theorem renders_requirementsAt (env : Env) (plain : PlainEnv env) (amount : UInt64) :
    Renders (.object (requirementsMembers env amount))
      (requirementsAt env amount).asStr.toList := by
  apply renders_of_compact
  unfold requirementsAt requirementsTemplate
  dsimp only
  simp (disch := decide) only [compact_object, requirementsMembers, List.map_cons, List.map_nil,
    memberText_literal, compact_string, compact_number, itemsText_literal,
    itemsText_literal (plain_networkOf _), itemsText_literal (plain_toString _),
    itemsText_literal plain.mint, itemsText_literal plain.seller, itemsText_literal plain.feePayer,
    List.intercalate_cons_cons, List.intercalate_singleton, String.toList_append,
    List.append_assoc, List.cons_append, List.nil_append]
  rfl

/-- The amount that a requirements text states to a JSON reader. -/
def StatesAmount (requirements amount : String) : Prop :=
  ∃ v, Renders v requirements.toList ∧ (v.get "maxAmountRequired").bind Value.asStr = some amount

theorem statesAmount_iff {env : Env} (plain : PlainEnv env) (amount : UInt64) (stated : String) :
    StatesAmount (requirementsAt env amount).asStr stated ↔ toString amount = stated := by
  have renders := renders_requirementsAt env plain amount
  have read : ((Value.object (requirementsMembers env amount)).get "maxAmountRequired").bind
      Value.asStr = some (toString amount) := by
    simp [Value.get, lookup, requirementsMembers, Value.asStr]
  exact renders.seen_iff (fun v => (v.get "maxAmountRequired").bind Value.asStr) read stated

/-! ## The quote -/

theorem amount_eq_price_iff {degree : UInt8} (within : degree ≤ 12) :
    freeTierMaxMicrosUsdc = priceMicrosFor degree ↔ 8 < degree := by
  unfold priceMicrosFor freeTierMaxMicrosUsdc
  split_ifs with small
  · simp [UInt8.not_lt.mpr small]
  · simp [UInt8.not_le.mp small]

/-- What a sale asks the buyer to pay is the quoted price exactly for the degrees above 8. -/
theorem charged_quote_iff (X : Crates) (req : Request) (env : Env) {events : List (Event host)}
    {response : Response} (run : Run (handleNtt X req env) events (.ok response))
    (ok : response.status = 200) :
    ∃ facilitator payload verifyReply settleReply body v ntt outcome price,
      events = posted ⟨facilitator ++ "/verify",
          facilitatorBody payload (buildRequirementsJson env).asStr⟩ verifyReply ++
        bodyRead :: (posted ⟨facilitator ++ "/settle",
          facilitatorBody payload (buildRequirementsJson env).asStr⟩ settleReply ++
            [responseBuilt 200]) ∧
      req.body = .ok body ∧ X.fromSlice body = .ok v ∧ Asks v ntt ∧
      response.body = (buildResponseBytes ntt outcome).asSlice ∧
      quoteFor ntt.degreeLog2 ⟨freeTierMaxLog2⟩ = .ok price ∧
      (buildRequirementsJson env = requirementsAt env price.get ↔ 8 < ntt.degreeLog2.get) ∧
      (PlainEnv env → (StatesAmount (buildRequirementsJson env).asStr (toString price.get) ↔
        8 < ntt.degreeLog2.get)) := by
  obtain ⟨sale, rfl, rfl⟩ := sale_of_run run ok
  obtain ⟨v, ntt, outcome, read, asks, within, -, output⟩ := serve_ok_inv X sale.served
  obtain ⟨payload, -, built⟩ := sale.exists_payload
  have charged := amount_eq_price_iff within
  refine ⟨sale.facilitator, payload, sale.verifyReply, sale.settleReply, sale.body, v, ntt, outcome,
    ⟨priceMicrosFor ntt.degreeLog2.get⟩, ?_, sale.received, read, asks, ?_,
    (quoteFor_ok_iff _ _ _).mpr ⟨within, rfl⟩, ?_, fun plain => ?_⟩
  · rw [built, Sale.events]
  · rw [← output, Sale.response]
  · rw [← charged]
    exact ⟨requirementsAt_injective, fun equal => congrArg (requirementsAt env) equal⟩
  · rw [← charged, buildRequirementsJson, statesAmount_iff plain]
    exact ⟨toString_injective, congrArg toString⟩

theorem charged_quote_iff_pair :
    ∃ events response, (Run (handleNtt referenceCrates pairPost devnetEnv) events (.ok response) ∧
        response.status = 200) ∧
      ∃ facilitator payload verifyReply settleReply body v ntt outcome price,
        events = posted ⟨facilitator ++ "/verify",
            facilitatorBody payload (buildRequirementsJson devnetEnv).asStr⟩ verifyReply ++
          bodyRead :: (posted ⟨facilitator ++ "/settle",
            facilitatorBody payload (buildRequirementsJson devnetEnv).asStr⟩ settleReply ++
              [responseBuilt 200]) ∧
        pairPost.body = .ok body ∧ referenceCrates.fromSlice body = .ok v ∧ Asks v ntt ∧
        response.body = (buildResponseBytes ntt outcome).asSlice ∧
        quoteFor ntt.degreeLog2 ⟨freeTierMaxLog2⟩ = .ok price ∧
        (buildRequirementsJson devnetEnv = requirementsAt devnetEnv price.get ↔
          8 < ntt.degreeLog2.get) ∧
        (PlainEnv devnetEnv →
          (StatesAmount (buildRequirementsJson devnetEnv).asStr (toString price.get) ↔
            8 < ntt.degreeLog2.get)) := by
  obtain ⟨output, served⟩ := serve_pairBody
  exact ⟨_, _, ⟨(pairSale output served).run, rfl⟩,
    charged_quote_iff referenceCrates pairPost devnetEnv (pairSale output served).run rfl⟩

theorem plainEnv_devnet : PlainEnv devnetEnv := ⟨by decide, by decide, by decide⟩

/-- A buyer of a transform of degree 1, quoted at 1000, is asked for 10000. -/
theorem charged_quote_small :
    ∃ sale : Sale referenceCrates pairPost devnetEnv,
      Run (handleNtt referenceCrates pairPost devnetEnv) sale.events (.ok sale.response) ∧
      sale.response.status = 200 ∧ referenceCrates.fromSlice sale.body = .ok pairValue ∧
      Asks pairValue pairRequest ∧
      quoteFor pairRequest.degreeLog2 ⟨freeTierMaxLog2⟩ = .ok ⟨1000⟩ ∧
      sale.payload = facilitatorBody pairPayload (buildRequirementsJson devnetEnv).asStr ∧
      StatesAmount (buildRequirementsJson devnetEnv).asStr "10000" ∧
      ¬ StatesAmount (buildRequirementsJson devnetEnv).asStr "1000" := by
  obtain ⟨output, served⟩ := serve_pairBody
  have states (amount : String) := statesAmount_iff plainEnv_devnet freeTierMaxMicrosUsdc amount
  refine ⟨pairSale output served, (pairSale output served).run, rfl, fromSlice_pairBody,
    asks_pairValue, by decide, rfl, (states _).mpr (by decide), ?_⟩
  rw [buildRequirementsJson, states]
  decide

end NttX402.Proof
