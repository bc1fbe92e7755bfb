import NttX402.Proof.PaidAnswers
import NttX402.Proof.Price
import NttX402.Proof.ServedRoundTrip

namespace NttX402.Proof
open Worker Library Library.Json

/-! ## Posts -/

def PostsTerms (terms : String) : HostOp → Prop
  | .newRequest request => ∃ payload, request.body = facilitatorBody payload terms
  | .send request => ∃ payload, request.body = facilitatorBody payload terms
  | .text request => ∃ payload, request.body = facilitatorBody payload terms
  | .bytes => True
  | .newResponse _ => True

section Posts
variable {X : Crates} {terms : String}

theorem postJson_calls (url payload : String) :
    Calls (I := host) (PostsTerms terms) (postJson url (facilitatorBody payload terms)) := by
  refine .call ⟨payload, rfl⟩ fun built => ?_
  cases built with
  | error e => exact .done _
  | ok _ =>
      refine .call ⟨payload, rfl⟩ fun sent => ?_
      cases sent with
      | error e => exact .done _
      | ok _ => exact .call ⟨payload, rfl⟩ fun read => .done _

theorem verifyAsync_calls (facilitator : FacilitatorUrl) (envelope : PaymentEnvelope) :
    Calls (I := host) (PostsTerms terms) (verifyAsync X facilitator envelope ⟨terms⟩) := by
  unfold verifyAsync
  cases built : buildVerifyBody X envelope ⟨terms⟩ with
  | error e => exact .done _
  | ok body =>
      obtain ⟨payload, -, rfl⟩ := (buildVerifyBody_ok_iff X).mp built
      exact (postJson_calls _ payload).bind fun reply => .done _

theorem settleAsync_calls (facilitator : FacilitatorUrl) (envelope : PaymentEnvelope) :
    Calls (I := host) (PostsTerms terms) (settleAsync X facilitator envelope ⟨terms⟩) := by
  unfold settleAsync
  cases built : buildSettleBody X envelope ⟨terms⟩ with
  | error e => exact .done _
  | ok body =>
      obtain ⟨payload, -, rfl⟩ := (buildSettleBody_ok_iff X).mp built
      exact (postJson_calls _ payload).bind fun reply => .done _

theorem respond_calls (status : Nat) (headers : List (String × String)) (body : List UInt8) :
    Calls (I := host) (PostsTerms terms) (respond status headers body) :=
  .call trivial fun _ => .done _

theorem handleNtt_calls (X : Crates) (req : Request) (env : Env) :
    Calls (I := host) (PostsTerms (buildRequirementsJson env).asStr) (handleNtt X req env) := by
  unfold handleNtt
  cases req.xPayment.toOption.join with
  | none => exact respond_calls 402 _ _
  | some envelope =>
      simp only [settleAndServe, readSettlementConfig]
      cases env "FACILITATOR_URL" with
      | error e => exact respond_calls _ _ _
      | ok facilitator =>
          refine (verifyAsync_calls _ _).bind fun verified => ?_
          cases verified with
          | error e => exact respond_calls _ _ _
          | ok _ =>
              refine .call trivial fun _ => ?_
              cases req.body with
              | error e => exact .done _
              | ok body =>
                  dsimp only
                  cases serve X ⟨body⟩ with
                  | error e => exact respond_calls _ _ _
                  | ok output =>
                      refine (settleAsync_calls _ _).bind fun settled => ?_
                      cases settled with
                      | error e => exact respond_calls _ _ _
                      | ok tx => exact respond_calls _ _ _

end Posts

/-! ## The named network -/

/-- The network that a text names, read as the worker reads a field of a reply. -/
def namedNetwork (text : String) : Option String := extractStringField text "network"

theorem extractStringField_of_afterFirst {text key : String} {value rest : List Char}
    (found : afterFirst (needle key.toList ['"']) text.toList = some (value ++ '"' :: rest))
    (plain : '"' ∉ value) : extractStringField text key = some (String.ofList value) := by
  have whole : value.takeWhile (· ≠ '"') = value := by
    rw [List.takeWhile_eq_self_iff]
    intro c member
    simpa using fun quote : c = '"' => plain (quote ▸ member)
  have stop := congrArg (Option.map String.ofList) (take_findIdx? '"' value rest)
  rw [Option.map_map, Option.map_some, whole] at stop
  rw [extractStringField_eq_afterFirst, found, Option.bind_some]
  exact stop

theorem quote_not_mem_networkOf (env : Env) : '"' ∉ (networkOf env).toList := by
  unfold networkOf
  split
  · split <;> decide
  · decide

theorem namedNetwork_requirements (env : Env) (amount : UInt64) :
    namedNetwork (requirementsAt env amount).asStr = some (networkOf env) := by
  obtain ⟨rest, shape⟩ : ∃ rest, (requirementsAt env amount).asStr.toList =
      "\x7b\"scheme\":\"exact\",\"network\":\"".toList ++
        ((networkOf env).toList ++ '"' :: rest) := by
    have opening : "\x7b\"scheme\":\"exact\",\"network\":\"".toList =
        "\x7b\"scheme\":\"exact\",".toList ++ "\"network\":\"".toList := rfl
    unfold requirementsAt requirementsTemplate
    simp only [String.toList_append, List.append_assoc, opening]
    exact ⟨_, rfl⟩
  have found : afterFirst (needle "network".toList ['"']) (requirementsAt env amount).asStr.toList =
      some ((networkOf env).toList ++ '"' :: rest) := by
    rw [shape]
    rfl
  rw [namedNetwork, extractStringField_of_afterFirst found (quote_not_mem_networkOf env),
    String.ofList_toList]

theorem namedNetwork_paymentResponse (X : Crates) (tx : PaymentTxHash) :
    namedNetwork (paymentResponseValue X tx) = some "solana" := by
  obtain ⟨rest, shape⟩ : ∃ rest, (paymentResponseValue X tx).toList =
      "\x7b\"network\":\"".toList ++ ("solana".toList ++ '"' :: rest) := by
    unfold paymentResponseValue
    simp only [String.toList_append, List.append_assoc]
    exact ⟨_, rfl⟩
  have found : afterFirst (needle "network".toList ['"']) (paymentResponseValue X tx).toList =
      some ("solana".toList ++ '"' :: rest) := by
    rw [shape]
    rfl
  rw [namedNetwork, extractStringField_of_afterFirst found (by decide), String.ofList_toList]

theorem networkOf_eq_solana_iff (env : Env) :
    networkOf env = "solana" ↔ env "SOLANA_CLUSTER" ≠ .ok "devnet" := by
  unfold networkOf
  cases env "SOLANA_CLUSTER" with
  | error e => simp
  | ok cluster => by_cases devnet : cluster = "devnet" <;> simp [devnet]

/-! ## What a JSON reader sees -/

def acceptsMembers (requirements : Value) : List (List Item × Value) :=
  [(literal "x402Version", .number (Number.ofNat 1)),
    (literal "accepts", .array [requirements])]

theorem renders_accepts {v : Value} {terms : String} (renders : Renders v terms.toList) :
    Renders (.object (acceptsMembers v))
      ("\x7b\"x402Version\":1,\"accepts\":[" ++ terms ++ "]\x7d").toList := by
  have version : Renders (.number (Number.ofNat 1)) ['1'] := renders_of_compact (by decide)
  apply renders_object ⟨"x402Version", by decide, _, _, version⟩
    [⟨"accepts", by decide, _, _, renders_singleton renders⟩]
  simp only [RenderedMember.chars, String.toList_append, List.flatMap_cons, List.flatMap_nil,
    List.append_assoc, List.cons_append, List.nil_append]
  rfl

def sampleResponseValue : Value := .object
  [(literal "output", .array [.string (literal "<u64 as string>")]),
    (literal "proof_of_execution", .string (literal "<32-byte sha256 hex>")),
    (literal "backend", .string (literal "Wasm|Donor|CloudFpga")),
    (literal "field", .string (literal "Goldilocks|BabyBear")),
    (literal "direction", .string (literal "Forward|Inverse")),
    (literal "degree_log2", .string (literal "<0..30>"))]

set_option maxRecDepth 2000 in
theorem renders_sampleResponseShape :
    Renders sampleResponseValue sampleResponseShape.toList := by
  apply renders_of_compact
  unfold sampleResponseValue sampleResponseShape
  simp (disch := decide) only [compact_object, compact_array, compact_string, List.map_cons,
    List.map_nil, memberText_literal, itemsText_literal, List.intercalate_cons_cons,
    List.intercalate_singleton, String.toList_append, List.append_assoc, List.cons_append,
    List.nil_append]
  rfl

def sampleRequestValue : Value :=
  .object (requestMembers .Forward ⟨2, by decide⟩ [1, 2, 3, 4])

theorem renders_sampleRequest : Renders sampleRequestValue sampleRequest.toList := by
  have same : requestBody .Forward ⟨2, by decide⟩ [1, 2, 3, 4] = sampleRequest := by decide
  rw [← same]
  exact renders_requestBody .Forward ⟨2, by decide⟩ [1, 2, 3, 4]

def endpointMembers (requirements : Value) : List (List Item × Value) :=
  [(literal "method", .string (literal "POST")),
    (literal "accepts", requirements),
    (literal "sampleRequest", sampleRequestValue),
    (literal "sampleResponseShape", sampleResponseValue)]

def manifestMembers (requirements : Value) : List (List Item × Value) :=
  [(literal "x402Version", .number (Number.ofNat 1)),
    (literal "service", .string (literal "ntt-x402")),
    (literal "version", .string (literal "0.1.0")),
    (literal "endpoints", .array [.object (endpointMembers requirements)])]

def endpointText (terms : String) : String :=
  "\x7b\"method\":\"POST\"," ++ "\"accepts\":" ++ terms ++ "," ++
    "\"sampleRequest\":" ++ sampleRequest ++ "," ++
    "\"sampleResponseShape\":" ++ sampleResponseShape ++ "\x7d"

theorem renders_endpoint {v : Value} {terms : String} (renders : Renders v terms.toList) :
    Renders (.object (endpointMembers v)) (endpointText terms).toList := by
  have post : Renders (.string (literal "POST")) "\"POST\"".toList :=
    renders_of_compact (by decide)
  -- the samples are left opaque, or comparing the two texts would unfold them
  have samples (request response : String) (one : Renders sampleRequestValue request.toList)
      (two : Renders sampleResponseValue response.toList) :
      Renders (.object (endpointMembers v)) ("\x7b\"method\":\"POST\"," ++ "\"accepts\":" ++
        terms ++ "," ++ "\"sampleRequest\":" ++ request ++ "," ++
        "\"sampleResponseShape\":" ++ response ++ "\x7d").toList := by
    apply renders_object ⟨"method", by decide, _, _, post⟩
      [⟨"accepts", by decide, _, _, renders⟩, ⟨"sampleRequest", by decide, _, _, one⟩,
        ⟨"sampleResponseShape", by decide, _, _, two⟩]
    simp only [RenderedMember.chars, String.toList_append, List.flatMap_cons, List.flatMap_nil,
      List.append_assoc, List.cons_append, List.nil_append]
    rfl
  exact samples sampleRequest sampleResponseShape renders_sampleRequest
    renders_sampleResponseShape

theorem renders_manifest {v : Value} {terms : String} (renders : Renders v terms.toList) :
    Renders (.object (manifestMembers v)) (bazaarManifest terms).toList := by
  have version : Renders (.number (Number.ofNat 1)) ['1'] := renders_of_compact (by decide)
  have service : Renders (.string (literal "ntt-x402")) "\"ntt-x402\"".toList :=
    renders_of_compact (by decide)
  have release : Renders (.string (literal "0.1.0")) "\"0.1.0\"".toList :=
    renders_of_compact (by decide)
  apply renders_object ⟨"x402Version", by decide, _, _, version⟩
    [⟨"service", by decide, _, _, service⟩, ⟨"version", by decide, _, _, release⟩,
      ⟨"endpoints", by decide, _, _, renders_singleton (renders_endpoint renders)⟩]
  unfold bazaarManifest endpointText
  simp only [RenderedMember.chars, String.toList_append, List.flatMap_cons, List.flatMap_nil,
    List.append_assoc, List.cons_append, List.nil_append]
  rfl

def StatesNetwork (text network : String) : Prop :=
  ∃ v, Renders v text.toList ∧ (v.get "network").bind Value.asStr = some network

theorem statesNetwork_requirements_iff {env : Env} (plain : PlainEnv env) (network : String) :
    StatesNetwork (buildRequirementsJson env).asStr network ↔ networkOf env = network := by
  have renders := renders_requirementsAt env plain freeTierMaxMicrosUsdc
  have read : ((Value.object (requirementsMembers env freeTierMaxMicrosUsdc)).get
      "network").bind Value.asStr = some (networkOf env) := by
    simp [Value.get, lookup, requirementsMembers, Value.asStr]
  exact renders.seen_iff (fun v => (v.get "network").bind Value.asStr) read network

def paymentResponseMembers (signature : String) : List (List Item × Value) :=
  [(literal "network", .string (literal "solana")),
    (literal "transaction", .string (literal signature))]

theorem renders_paymentResponseValue {X : Crates} {tx : PaymentTxHash}
    (plain : Every isPlain (X.bs58Encode tx.asBytes.toList).toList) :
    Renders (.object (paymentResponseMembers (X.bs58Encode tx.asBytes.toList)))
      (paymentResponseValue X tx).toList := by
  apply renders_of_compact
  unfold paymentResponseValue
  simp (disch := decide) only [paymentResponseMembers, compact_object, List.map_cons,
    List.map_nil, memberText_literal, compact_string, itemsText_literal, itemsText_literal plain,
    List.intercalate_cons_cons, List.intercalate_singleton, String.toList_append,
    List.append_assoc, List.cons_append, List.nil_append]
  rfl

theorem statesNetwork_paymentResponse_iff {X : Crates} {tx : PaymentTxHash}
    (plain : Every isPlain (X.bs58Encode tx.asBytes.toList).toList) (network : String) :
    StatesNetwork (paymentResponseValue X tx) network ↔ "solana" = network := by
  have renders := renders_paymentResponseValue plain
  have read : ((Value.object (paymentResponseMembers (X.bs58Encode tx.asBytes.toList))).get
      "network").bind Value.asStr = some "solana" := by
    simp [Value.get, lookup, paymentResponseMembers, Value.asStr]
  exact renders.seen_iff (fun v => (v.get "network").bind Value.asStr) read network

set_option maxRecDepth 2000 in
theorem plain_base58Text (bytes : List UInt8) : Every isPlain (base58Text bytes).toList := by
  have letters : Every isPlain ('1' :: base58Alphabet) := by decide
  intro c member
  rw [base58Text, String.toList_ofList] at member
  obtain ⟨d, -, rfl⟩ := List.mem_map.mp member
  apply letters
  rw [List.getD_eq_getElem?_getD]
  cases found : base58Alphabet[d]? with
  | none => exact List.mem_cons_self
  | some letter => exact List.mem_cons_of_mem _ (List.mem_of_getElem? found)

/-! ## The result -/

/-- The requirements are the same bytes in every text that states them; what a sale says about its
network agrees with them exactly off devnet. -/
theorem payment_terms (X : Crates) (env : Env) :
    let terms := (buildRequirementsJson env).asStr
    (∀ req events response,
      Run (dispatch X .Get "/.well-known/x402" req env) events (.ok response) →
        response.body = utf8 (bazaarManifest terms)) ∧
    (∀ req events response, req.xPayment.toOption.join = none →
      Run (dispatch X .Post "/ntt" req env) events (.ok response) →
        response.body = utf8 ("\x7b\"x402Version\":1,\"accepts\":[" ++ terms ++ "]\x7d")) ∧
    (∀ req events rest, Steps (dispatch X .Post "/ntt" req env) events rest →
      ∀ e ∈ events, PostsTerms terms e.op) ∧
    (∀ v, Renders v terms.toList →
      Renders (.object (manifestMembers v)) (bazaarManifest terms).toList ∧
      Renders (.object (acceptsMembers v))
        ("\x7b\"x402Version\":1,\"accepts\":[" ++ terms ++ "]\x7d").toList ∧
      ∀ payload w, Renders w payload.toList →
        Renders (.object (facilitatorMembers w v)) (facilitatorBody payload terms).toList) ∧
    ∀ req events response, Run (dispatch X .Post "/ntt" req env) events (.ok response) →
      response.status = 200 →
        ∃ tx, ("X-Payment-Response", paymentResponseValue X tx) ∈ response.headers ∧
          (namedNetwork (paymentResponseValue X tx) = namedNetwork terms ↔
            env "SOLANA_CLUSTER" ≠ .ok "devnet") ∧
          (PlainEnv env → Every isPlain (X.bs58Encode tx.asBytes.toList).toList →
            ((∃ network, StatesNetwork (paymentResponseValue X tx) network ∧
              StatesNetwork terms network) ↔ env "SOLANA_CLUSTER" ≠ .ok "devnet")) := by
  intro terms
  refine ⟨?_, ?_, ?_, ?_, ?_⟩
  · intro req events response run
    obtain ⟨-, rfl⟩ := run_respond_iff.mp run
    rfl
  · intro req events response unpaid run
    simp only [dispatch, handleNtt, unpaid] at run
    obtain ⟨-, rfl⟩ := run_respond_iff.mp run
    rfl
  · intro req events rest steps
    exact (handleNtt_calls X req env).of_steps steps
  · intro v renders
    exact ⟨renders_manifest renders, renders_accepts renders,
      fun payload w rendersPayload => renders_facilitatorBody rendersPayload renders⟩
  · intro req events response run ok
    obtain ⟨sale, rfl, rfl⟩ := sale_of_run run ok
    refine ⟨sale.tx, by simp [Sale.response, paymentResponseHeaders], ?_, ?_⟩
    · have named : namedNetwork terms = some (networkOf env) := namedNetwork_requirements env _
      rw [← networkOf_eq_solana_iff, namedNetwork_paymentResponse, named, Option.some.injEq,
        eq_comm]
    · intro plain plainTx
      rw [← networkOf_eq_solana_iff]
      simp only [statesNetwork_paymentResponse_iff plainTx, terms,
        statesNetwork_requirements_iff plain, exists_eq_left']

/-- A sale on devnet is confirmed as one on mainnet. -/
theorem payment_terms_devnet :
    ∃ sale : Sale referenceCrates pairPost devnetEnv,
      Run (dispatch referenceCrates .Post "/ntt" pairPost devnetEnv) sale.events
        (.ok sale.response) ∧
      sale.response.status = 200 ∧
      ("X-Payment-Response", paymentResponseValue referenceCrates sale.tx) ∈
        sale.response.headers ∧
      namedNetwork (paymentResponseValue referenceCrates sale.tx) = some "solana" ∧
      namedNetwork (buildRequirementsJson devnetEnv).asStr = some "solana-devnet" ∧
      ¬∃ network, StatesNetwork (paymentResponseValue referenceCrates sale.tx) network ∧
        StatesNetwork (buildRequirementsJson devnetEnv).asStr network := by
  obtain ⟨output, served⟩ := serve_pairBody
  have plainTx : Every isPlain (referenceCrates.bs58Encode
      (pairSale output served).tx.asBytes.toList).toList := plain_base58Text _
  refine ⟨pairSale output served, (pairSale output served).run, rfl, ?_,
    namedNetwork_paymentResponse _ _, namedNetwork_requirements devnetEnv _, ?_⟩
  · simp [Sale.response, paymentResponseHeaders]
  · rintro ⟨network, header, terms⟩
    obtain rfl := (statesNetwork_paymentResponse_iff plainTx network).mp header
    have named := (statesNetwork_requirements_iff plainEnv_devnet "solana").mp terms
    revert named
    decide

end NttX402.Proof
