import NttX402.Proof.PaidRun

namespace NttX402.Proof
open Worker Library Library.Json

/-! ## A truthful facilitator -/

/-- What the payments of buyers come to on chain. -/
structure Chain where
  Transfer : Type
  /-- The transfer that a payment payload asks for. -/
  asked : String → Transfer
  /-- The transfers that are payable or already submitted. -/
  valid : Transfer → Prop
  /-- The transfer that a transaction made. -/
  made : PaymentTxHash → Option Transfer

def answered (request : PostRequest) (reply : String) : Event host := ⟨.text request, .ok reply⟩

theorem answered_mem_posted {request request' : PostRequest} {reply reply' : String}
    (member : answered request reply ∈ posted request' reply') :
    request = request' ∧ reply = reply' := by
  simp only [posted, answered, List.mem_cons, List.not_mem_nil, or_false] at member
  rcases member with equal | equal | equal
  · cases equal
  · cases equal
  · cases equal
    exact ⟨rfl, rfl⟩

/-- A reply that calls a payment valid is about a transfer that is, and one that names a
transaction names one that made the transfer. -/
structure Truthful (X : Crates) (chain : Chain) (env : Env) (events : List (Event host)) :
    Prop where
  verify : ∀ facilitator payload reply v, env "FACILITATOR_URL" = .ok facilitator →
    answered ⟨facilitator ++ "/verify",
      facilitatorBody payload (buildRequirementsJson env).asStr⟩ reply ∈ events →
    Renders v reply.toList → v.get "isValid" = some (.bool true) →
      chain.valid (chain.asked payload)
  settle : ∀ facilitator payload reply v tx, env "FACILITATOR_URL" = .ok facilitator →
    answered ⟨facilitator ++ "/settle",
      facilitatorBody payload (buildRequirementsJson env).asStr⟩ reply ∈ events →
    Renders v reply.toList → Settles X v tx → chain.made tx = some (chain.asked payload)

/-- Every settlement reply is a JSON text that the scan reads as it is meant. -/
def PlainSettlements (X : Crates) (env : Env) (events : List (Event host)) : Prop :=
  ∀ facilitator body reply, env "FACILITATOR_URL" = .ok facilitator →
    answered ⟨facilitator ++ "/settle", body⟩ reply ∈ events →
      ∃ v, Renders v reply.toList ∧ SettleInPlain X v

/-! ## What a sale says about the chain -/

def Carries (X : Crates) (response : Response) (tx : PaymentTxHash) : Prop :=
  response.status = 200 ∧ ("X-Payment-Response", paymentResponseValue X tx) ∈ response.headers

def Presents (X : Crates) (req : Request) (payload : String) : Prop :=
  ∃ header, req.xPayment = .ok (some header) ∧ X.base64Decode (utf8 header) = .ok (utf8 payload)

section Sales
variable {X : Crates}

theorem paymentResponseValue_injective
    (roundTrip : ∀ bytes, X.bs58Decode (X.bs58Encode bytes) = .ok bytes) {tx tx' : PaymentTxHash}
    (equal : paymentResponseValue X tx = paymentResponseValue X tx') : tx = tx' := by
  have texts : X.bs58Encode tx.asBytes.toList = X.bs58Encode tx'.asBytes.toList := by
    unfold paymentResponseValue at equal
    simpa using equal
  have decoded := roundTrip tx.asBytes.toList
  rw [texts, roundTrip, Except.ok.injEq] at decoded
  obtain ⟨tx⟩ := tx
  obtain ⟨tx'⟩ := tx'
  exact congrArg PaymentTxHash.mk (Vector.toList_inj.mp decoded.symm)

theorem Sale.tx_of_carries (roundTrip : ∀ bytes, X.bs58Decode (X.bs58Encode bytes) = .ok bytes)
    {req : Request} {env : Env} (sale : Sale X req env) {tx : PaymentTxHash}
    (carries : Carries X sale.response tx) : sale.tx = tx := by
  have header := carries.2
  simp only [Sale.response, paymentResponseHeaders, List.mem_cons, Prod.mk.injEq,
    List.not_mem_nil, or_false] at header
  rcases header with ⟨name, -⟩ | ⟨name, -⟩ | ⟨-, value⟩
  · simp at name
  · simp at name
  · exact (paymentResponseValue_injective roundTrip value).symm

theorem Sale.made {chain : Chain} {req : Request} {env : Env} (sale : Sale X req env)
    {events : List (Event host)} (includes : ∀ e ∈ sale.events, e ∈ events)
    (truthful : Truthful X chain env events) (plain : PlainSettlements X env events) :
    ∃ payload, Presents X req payload ∧ chain.made sale.tx = some (chain.asked payload) := by
  obtain ⟨payload, decoded, built⟩ := sale.exists_payload
  have member : answered ⟨sale.facilitator ++ "/settle", sale.payload⟩ sale.settleReply ∈ events :=
    includes _ (by simp [Sale.events, posted, answered])
  obtain ⟨v, renders, inPlain⟩ := plain _ _ _ sale.configured member
  have settles : Settles X v sale.tx :=
    (parseSettleResponse_of_plain renders inPlain sale.tx).mp sale.settled
  rw [← built] at member
  exact ⟨payload, ⟨sale.envelope, sale.present, decoded⟩,
    truthful.settle _ _ _ v _ sale.configured member renders settles⟩

end Sales
/-! ## Concurrent requests -/

/-- Requests that are answered with one transaction present payloads that ask for one transfer; and
any two requests that could each be sold a transform can both be, since no payment is ever marked
as spent. -/
theorem shared_transaction {X : Crates}
    (roundTrip : ∀ bytes, X.bs58Decode (X.bs58Encode bytes) = .ok bytes) (chain : Chain)
    (env : Env) {ι : Type} [DecidableEq ι] (requests : ι → Request) :
    (∀ events final, Interleaved (fun i => handleNtt X (requests i) env) events final →
      Truthful X chain env (events.map Prod.snd) → PlainSettlements X env (events.map Prod.snd) →
      ∀ i j response response' tx, final i = .done (.ok response) →
        final j = .done (.ok response') →
        Carries X response tx → Carries X response' tx →
        ∃ payload payload', Presents X (requests i) payload ∧ Presents X (requests j) payload' ∧
          chain.asked payload = chain.asked payload') ∧
    (∀ i j, i ≠ j → ∀ (sale : Sale X (requests i) env) (sale' : Sale X (requests j) env),
      ∃ events final, Interleaved (fun i => handleNtt X (requests i) env) events final ∧
        final i = .done (.ok sale.response) ∧ final j = .done (.ok sale'.response)) := by
  constructor
  · intro events final interleaved truthful plain
    have made (i : ι) (response : Response) (tx : PaymentTxHash)
        (finished : final i = .done (.ok response)) (carries : Carries X response tx) :
        ∃ payload, Presents X (requests i) payload ∧
          chain.made tx = some (chain.asked payload) := by
      have run := interleaved_iff.mp interleaved i
      rw [finished] at run
      obtain ⟨sale, own, rfl⟩ := sale_of_run run carries.1
      have includes : ∀ e ∈ sale.events, e ∈ events.map Prod.snd := fun e member =>
        List.mem_map_of_mem (mem_of_mem_own (own ▸ member))
      rw [← sale.tx_of_carries roundTrip carries]
      exact sale.made includes truthful plain
    intro i j response response' tx done done' carries carries'
    obtain ⟨payload, presents, asked⟩ := made i response tx done carries
    obtain ⟨payload', presents', asked'⟩ := made j response' tx done' carries'
    exact ⟨payload, payload', presents, presents', Option.some.inj (asked.symm.trans asked')⟩
  · intro i j different sale sale'
    obtain ⟨final, interleaved, done, done'⟩ :=
      Interleaved.pair (fun i => handleNtt X (requests i) env) different sale.run sale'.run
    exact ⟨_, final, interleaved, done, done'⟩

theorem bs58_round_trip (bytes : List UInt8) :
    referenceCrates.bs58Decode (referenceCrates.bs58Encode bytes) = .ok bytes := by
  simp only [referenceCrates, base58Bytes_base58Text, orError]

def pairChain : Chain where
  Transfer := String
  asked := id
  valid transfer := transfer = pairPayload
  made tx := if tx = zeroTx then some pairPayload else none

theorem shared_transaction_pair :
    (∀ events final,
      Interleaved (fun _ : Fin 2 => handleNtt referenceCrates pairPost devnetEnv) events final →
      Truthful referenceCrates pairChain devnetEnv (events.map Prod.snd) →
      PlainSettlements referenceCrates devnetEnv (events.map Prod.snd) →
      ∀ i j response response' tx, final i = .done (.ok response) →
        final j = .done (.ok response') →
        Carries referenceCrates response tx → Carries referenceCrates response' tx →
        ∃ payload payload', Presents referenceCrates pairPost payload ∧
          Presents referenceCrates pairPost payload' ∧
          pairChain.asked payload = pairChain.asked payload') ∧
    (∀ i j : Fin 2, i ≠ j → ∀ (sale : Sale referenceCrates pairPost devnetEnv)
      (sale' : Sale referenceCrates pairPost devnetEnv), ∃ events final,
        Interleaved (fun _ : Fin 2 => handleNtt referenceCrates pairPost devnetEnv) events final ∧
        final i = .done (.ok sale.response) ∧ final j = .done (.ok sale'.response)) :=
  shared_transaction bs58_round_trip pairChain devnetEnv fun _ => pairPost

/-! ## A replayed payment -/

theorem Sale.answered_mem {X : Crates} {req : Request} {env : Env} (sale : Sale X req env)
    {request : PostRequest} {reply : String} (member : answered request reply ∈ sale.events) :
    (request = ⟨sale.facilitator ++ "/verify", sale.payload⟩ ∧ reply = sale.verifyReply) ∨
      (request = ⟨sale.facilitator ++ "/settle", sale.payload⟩ ∧ reply = sale.settleReply) := by
  rcases List.mem_append.mp member with verify | rest
  · exact .inl (answered_mem_posted verify)
  · rcases List.mem_cons.mp rest with read | rest
    · cases read
    · rcases List.mem_append.mp rest with settle | built
      · exact .inr (answered_mem_posted settle)
      · cases List.mem_singleton.mp built

theorem facilitatorBody_injective {payload payload' requirements : String}
    (equal : facilitatorBody payload requirements = facilitatorBody payload' requirements) :
    payload = payload' := by
  unfold facilitatorBody at equal
  simpa using equal

theorem pairSale_truthful {output : ResponseBytes}
    (served : serve referenceCrates ⟨utf8 pairBody⟩ = .ok output) {events : List (Event host)}
    (only : ∀ e ∈ events, e ∈ (pairSale output served).events) :
    Truthful referenceCrates pairChain devnetEnv events where
  verify facilitator payload reply v _ member _ _ := by
    rcases (pairSale output served).answered_mem (only _ member) with ⟨request, -⟩ | ⟨request, -⟩
    all_goals exact facilitatorBody_injective (PostRequest.mk.inj request).2
  settle facilitator payload reply v tx configured member renders settles := by
    obtain rfl : "https://www.x402.org/facilitator" = facilitator := Except.ok.inj configured
    rcases (pairSale output served).answered_mem (only _ member) with
      ⟨request, -⟩ | ⟨request, rfl⟩
    · exact absurd (PostRequest.mk.inj request).1.symm (verify_ne_settle _)
    · obtain rfl := renders.unique renders_settledReply
      obtain rfl := (settles_settledReply tx).mp settles
      obtain rfl : payload = pairPayload :=
        facilitatorBody_injective (PostRequest.mk.inj request).2
      rfl

theorem pairSale_plain {output : ResponseBytes}
    (served : serve referenceCrates ⟨utf8 pairBody⟩ = .ok output) {events : List (Event host)}
    (only : ∀ e ∈ events, e ∈ (pairSale output served).events) :
    PlainSettlements referenceCrates devnetEnv events := by
  intro facilitator body reply configured member
  obtain rfl : "https://www.x402.org/facilitator" = facilitator := Except.ok.inj configured
  rcases (pairSale output served).answered_mem (only _ member) with ⟨request, -⟩ | ⟨-, rfl⟩
  · exact absurd (PostRequest.mk.inj request).1.symm (verify_ne_settle _)
  · exact ⟨settledReply, renders_settledReply, settledReply_inPlain⟩

theorem interleaved_pair : ∃ events final response,
    Interleaved (fun _ : Fin 2 => handleNtt referenceCrates pairPost devnetEnv) events final ∧
      Truthful referenceCrates pairChain devnetEnv (events.map Prod.snd) ∧
      PlainSettlements referenceCrates devnetEnv (events.map Prod.snd) ∧
      (∀ i, final i = .done (.ok response)) ∧ Carries referenceCrates response zeroTx := by
  obtain ⟨output, served⟩ := serve_pairBody
  have run := (pairSale output served).run
  obtain ⟨final, interleaved, one, two⟩ := Interleaved.pair
    (fun _ : Fin 2 => handleNtt referenceCrates pairPost devnetEnv)
    (i := 0) (j := 1) (by decide) run run
  have carries : Carries referenceCrates (pairSale output served).response zeroTx :=
    ⟨rfl, List.mem_cons_of_mem _ (List.mem_cons_of_mem _ List.mem_cons_self)⟩
  have only : ∀ e ∈ ((pairSale output served).events.map (Prod.mk (0 : Fin 2)) ++
      (pairSale output served).events.map (Prod.mk (1 : Fin 2))).map Prod.snd,
      e ∈ (pairSale output served).events := by
    simp [Function.comp_def]
  refine ⟨_, final, _, interleaved, pairSale_truthful served only, pairSale_plain served only,
    fun i => ?_, carries⟩
  fin_cases i
  · exact one
  · exact two

/-- One header sent twice is answered twice with a transform, and with one transaction. -/
theorem replayed_payment : ∃ events final response response',
    Interleaved (fun _ : Fin 2 => handleNtt referenceCrates pairPost devnetEnv) events final ∧
      Truthful referenceCrates pairChain devnetEnv (events.map Prod.snd) ∧
      PlainSettlements referenceCrates devnetEnv (events.map Prod.snd) ∧
      final 0 = .done (.ok response) ∧ final 1 = .done (.ok response') ∧
      Carries referenceCrates response zeroTx ∧ Carries referenceCrates response' zeroTx := by
  obtain ⟨events, final, response, interleaved, truthful, plain, finished, carries⟩ :=
    interleaved_pair
  exact ⟨events, final, response, response, interleaved, truthful, plain, finished 0, finished 1,
    carries, carries⟩

end NttX402.Proof
