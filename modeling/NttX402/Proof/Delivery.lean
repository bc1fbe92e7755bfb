import NttX402.Proof.Decoding
import NttX402.Proof.Payments
import NttX402.Proof.Pipeline
import NttX402.Proof.SettlementReply

namespace NttX402.Proof
open Worker Library Library.Json

/-- What a buyer is owed for a request: the exact transform, with its proof of execution. -/
def owedContent (X : Crates) (ntt : NttRequest) : ResponseContent :=
  let output := (transform ntt.direction ntt.degreeLog2.get.toNat
    (X.goldilocks.val (X.goldilocks.twoAdicGenerator ntt.degreeLog2.get.toNat))
    ntt.coefficients).map canonicalU64
  ⟨output, computeProof X.sha256 .Goldilocks ntt.direction ntt.degreeLog2 output, .Wasm,
    .Goldilocks, ntt.direction, ntt.degreeLog2⟩

theorem serve_decodes {X : Crates} (exact : X.goldilocks.Exact) {body : List UInt8}
    {output : ResponseBytes} (served : serve X ⟨body⟩ = .ok output) :
    ∃ v ntt, X.fromSlice body = .ok v ∧ Asks v ntt ∧ ntt.field = .Goldilocks ∧
      ntt.degreeLog2.get ≤ 12 ∧ ntt.coefficients.length = 2 ^ ntt.degreeLog2.get.toNat ∧
      decodeResponse output = some (owedContent X ntt) := by
  obtain ⟨v, ntt, outcome, read, asks, within, computed, rfl⟩ := serve_ok_inv X served
  rcases computeWasm_result exact X.sha256 ntt.field ntt.direction ntt.degreeLog2
      ntt.coefficients with ⟨-, -, goldilocks, length⟩ | ⟨b, failed, -⟩
  · have computed' := computeWasm_eq exact X.sha256 ntt.direction ntt.degreeLog2 ntt.coefficients
      length
    rw [goldilocks, computed', Except.ok.injEq] at computed
    refine ⟨v, ntt, read, asks, goldilocks, within, length, ?_⟩
    rw [decodeResponse_buildResponseBytes, contentOf, ← computed, goldilocks]
    rfl
  · rw [failed] at computed
    cases computed

section Crowd
variable {X : Crates} (exact : X.goldilocks.Exact) {env : Env} {ι : Type} [DecidableEq ι]
  {requests : ι → Request} {events : List (ι × Event host)} {final : ι → Host WorkerResult}
  (interleaved : Interleaved (fun i => handleNtt X (requests i) env) events final)
  {i : ι} {response : Response} (finished : final i = .done (.ok response))
  (sold : response.status = 200)
include exact interleaved finished sold

/-- However requests are interleaved, a buyer is sent the transform that its own body asks for, and
the transaction that the scan reads in the reply to its own settlement call. Where that reply is
written plainly, this is the one that the facilitator names in it. -/
theorem buyers_served :
    ∃ body v ntt payload facilitator reply tx, (requests i).body = .ok body ∧
      X.fromSlice body = .ok v ∧ Asks v ntt ∧ ntt.field = .Goldilocks ∧ ntt.degreeLog2.get ≤ 12 ∧
      ntt.coefficients.length = 2 ^ ntt.degreeLog2.get.toNat ∧
      decodeResponse ⟨response.body⟩ = some (owedContent X ntt) ∧
      Presents X (requests i) payload ∧ env "FACILITATOR_URL" = .ok facilitator ∧
      answered ⟨facilitator ++ "/settle",
        facilitatorBody payload (buildRequirementsJson env).asStr⟩ reply ∈ own i events ∧
      parseSettleResponse X reply = .ok tx ∧ Carries X response tx ∧
      ∀ w, Renders w reply.toList → SettleInPlain X w → Settles X w tx := by
  have run := interleaved_iff.mp interleaved i
  rw [finished] at run
  obtain ⟨sale, mine, rfl⟩ := sale_of_run run sold
  obtain ⟨v, ntt, read, asks, goldilocks, within, length, decoded⟩ :=
    serve_decodes exact sale.served
  obtain ⟨payload, presented, built⟩ := sale.exists_payload
  have settled : answered ⟨sale.facilitator ++ "/settle", sale.payload⟩ sale.settleReply ∈
      own i events := by
    simp [mine, Sale.events, posted, answered]
  rw [← built] at settled
  exact ⟨sale.body, v, ntt, payload, sale.facilitator, sale.settleReply, sale.tx, sale.received,
    read, asks, goldilocks, within, length, decoded, ⟨sale.envelope, sale.present, presented⟩,
    sale.configured, settled, sale.settled,
    ⟨rfl, by simp [Sale.response, paymentResponseHeaders]⟩, fun w renders plain =>
      (parseSettleResponse_of_plain renders plain sale.tx).mp sale.settled⟩

end Crowd

theorem buyers_served_pair : ∃ events final response,
    Interleaved (fun _ : Fin 2 => handleNtt referenceCrates pairPost devnetEnv) events final ∧
    final 1 = .done (.ok response) ∧
    ∃ body v ntt payload facilitator reply tx, pairPost.body = .ok body ∧
      referenceCrates.fromSlice body = .ok v ∧ Asks v ntt ∧ ntt.field = .Goldilocks ∧
      ntt.degreeLog2.get ≤ 12 ∧ ntt.coefficients.length = 2 ^ ntt.degreeLog2.get.toNat ∧
      decodeResponse ⟨response.body⟩ = some (owedContent referenceCrates ntt) ∧
      Presents referenceCrates pairPost payload ∧
      devnetEnv "FACILITATOR_URL" = .ok facilitator ∧
      answered ⟨facilitator ++ "/settle",
        facilitatorBody payload (buildRequirementsJson devnetEnv).asStr⟩ reply ∈ own 1 events ∧
      parseSettleResponse referenceCrates reply = .ok tx ∧ Carries referenceCrates response tx ∧
      ∀ w, Renders w reply.toList → SettleInPlain referenceCrates w →
        Settles referenceCrates w tx := by
  obtain ⟨events, final, response, interleaved, -, -, finished, carries⟩ := interleaved_pair
  exact ⟨events, final, response, interleaved, finished 1,
    buyers_served referenceGoldilocks_exact interleaved (finished 1) carries.1⟩

/-! ## The transaction that is passed on -/

theorem quote_not_mem_extractStringField {text key s : String}
    (found : extractStringField text key = some s) : '"' ∉ s.toList := by
  rw [extractStringField_eq_afterFirst, Option.bind_eq_some_iff] at found
  obtain ⟨tail, -, found⟩ := found
  obtain ⟨stop, first, rfl⟩ := Option.map_eq_some_iff.mp found
  rw [String.toList_ofList]
  intro member
  obtain ⟨i, bound, quote⟩ := List.mem_take_iff_getElem.mp member
  obtain ⟨inside, -, before⟩ := List.findIdx?_eq_some_iff_getElem.mp first
  have other := before i (by omega)
  simp [quote] at other

def headerFor (transaction : String) : String :=
  "\x7b\"network\":\"solana\",\"transaction\":\"" ++ transaction ++ "\"\x7d"

theorem extractStringField_headerFor {s : String} (plain : '"' ∉ s.toList) :
    extractStringField (headerFor s) "transaction" = some s := by
  have shape : (headerFor s).toList =
      "\x7b\"network\":\"solana\",\"transaction\":\"".toList ++ (s.toList ++ '"' :: ['\x7d']) := by
    unfold headerFor
    simp only [String.toList_append, List.append_assoc]
    rfl
  have found : afterFirst (needle "transaction".toList ['"']) (headerFor s).toList =
      some (s.toList ++ '"' :: ['\x7d']) := by
    rw [shape]
    rfl
  rw [extractStringField_of_afterFirst found plain, String.ofList_toList]

/-- Whatever the reply looks like, what is accepted of it is the text that the scan found. -/
theorem parseSettleResponse_names {X : Crates} {reply : String} {tx : PaymentTxHash}
    (settled : parseSettleResponse X reply = .ok tx) :
    ∃ s, extractStringField (stripWhitespace reply) "transaction" = some s ∧ Names X s tx := by
  simp only [parseSettleResponse] at settled
  split_ifs at settled
  split at settled
  · cases settled
  · rename_i s found
    obtain ⟨bytes, decoded, rfl⟩ := map_eq_ok.mp settled
    exact ⟨s, found, (decodeSolanaSignature_ok_iff X s bytes).mp decoded⟩

/-- A buyer reads in the header of a sale the very text that the scan found in the settlement reply,
and it names a transaction of 64 bytes. -/
theorem transaction_forwarded {X : Crates}
    (canonical : ∀ s bytes, X.bs58Decode s = .ok bytes → X.bs58Encode bytes = s) (req : Request)
    {env : Env} {events : List (Event host)} {response : Response}
    (run : Run (dispatch X .Post "/ntt" req env) events (.ok response))
    (sold : response.status = 200) :
    ∃ facilitator payload reply s tx, env "FACILITATOR_URL" = .ok facilitator ∧
      answered ⟨facilitator ++ "/settle", payload⟩ reply ∈ events ∧
      extractStringField (stripWhitespace reply) "transaction" = some s ∧ Names X s tx ∧
      ("X-Payment-Response", headerFor s) ∈ response.headers ∧
      extractStringField (headerFor s) "transaction" = some s := by
  obtain ⟨sale, rfl, rfl⟩ := sale_of_run run sold
  obtain ⟨s, found, names⟩ := parseSettleResponse_names sale.settled
  have header : paymentResponseValue X sale.tx = headerFor s :=
    paymentResponseValue_of_names canonical names
  refine ⟨sale.facilitator, sale.payload, sale.settleReply, s, sale.tx, sale.configured, ?_, found,
    names, ?_, extractStringField_headerFor (quote_not_mem_extractStringField found)⟩
  · simp [Sale.events, posted, answered]
  · simp [Sale.response, paymentResponseHeaders, header]

theorem transaction_forwarded_pair : ∃ sale : Sale referenceCrates pairPost devnetEnv,
    ∃ facilitator payload reply s tx, devnetEnv "FACILITATOR_URL" = .ok facilitator ∧
      answered ⟨facilitator ++ "/settle", payload⟩ reply ∈ sale.events ∧
      extractStringField (stripWhitespace reply) "transaction" = some s ∧
      Names referenceCrates s tx ∧
      ("X-Payment-Response", headerFor s) ∈ sale.response.headers ∧
      extractStringField (headerFor s) "transaction" = some s := by
  obtain ⟨output, served⟩ := serve_pairBody
  exact ⟨pairSale output served,
    transaction_forwarded bs58Encode_of_decode pairPost (pairSale output served).run rfl⟩

/-! ## One payment -/

/-- A reply to a settlement call for this payment that `parse_settle_response` accepts. -/
def acceptsSettlement (X : Crates) (env : Env) (facilitator payload : String) : Event host → Bool
  | ⟨.text request, .ok reply⟩ =>
      request = ⟨facilitator ++ "/settle",
        facilitatorBody payload (buildRequirementsJson env).asStr⟩ ∧
        (parseSettleResponse X reply).isOk
  | _ => false

theorem acceptsSettlement_iff {X : Crates} {env : Env} {facilitator payload : String}
    {e : Event host} : acceptsSettlement X env facilitator payload e = true ↔
      ∃ reply tx, e = answered ⟨facilitator ++ "/settle",
          facilitatorBody payload (buildRequirementsJson env).asStr⟩ reply ∧
        parseSettleResponse X reply = .ok tx := by
  constructor
  · intro accepts
    unfold acceptsSettlement at accepts
    split at accepts
    · rename_i request reply
      obtain ⟨rfl, parsed⟩ := of_decide_eq_true accepts
      cases outcome : parseSettleResponse X reply with
      | error e => simp [outcome, Except.isOk, Except.toBool] at parsed
      | ok tx => exact ⟨reply, tx, rfl, outcome⟩
    · cases accepts
  · rintro ⟨reply, tx, rfl, parsed⟩
    simp [acceptsSettlement, answered, parsed, Except.isOk, Except.toBool]

theorem Presents.unique {X : Crates} {req : Request} {payload payload' : String}
    (one : Presents X req payload) (two : Presents X req payload') : payload = payload' := by
  obtain ⟨header, present, decoded⟩ := one
  obtain ⟨header', present', decoded'⟩ := two
  obtain rfl : header = header' := Option.some.inj (Except.ok.inj (present.symm.trans present'))
  exact utf8_injective (Except.ok.inj (decoded.symm.trans decoded'))

theorem Sale.accepts {X : Crates} {req : Request} {env : Env} (sale : Sale X req env)
    {payload : String} (presents : Presents X req payload) :
    0 < sale.events.countP (acceptsSettlement X env sale.facilitator payload) := by
  obtain ⟨payload', decoded, built⟩ := sale.exists_payload
  obtain rfl := presents.unique ⟨sale.envelope, sale.present, decoded⟩
  apply List.countP_pos_iff.mpr
  refine ⟨answered ⟨sale.facilitator ++ "/settle", sale.payload⟩ sale.settleReply, ?_, ?_⟩
  · simp [Sale.events, posted, answered]
  · exact acceptsSettlement_iff.mpr ⟨sale.settleReply, sale.tx, by rw [built], sale.settled⟩

end NttX402.Proof
