import NttX402.Library.Json.Refusal
import NttX402.Proof.PaymentTerms

namespace NttX402.Proof
open Worker Library Library.Json

/-! ## Which calls a request can cause -/

inductive Posts (request : PostRequest) : HostOp → Prop
  | newRequest : Posts request (.newRequest request)
  | send : Posts request (.send request)
  | text : Posts request (.text request)

def Routed (method : Method) (path : String) : Prop :=
  (method = .Get ∧ (path = "/" ∨ path = "/.well-known/x402")) ∨ (method = .Post ∧ path = "/ntt")

theorem not_routed_of_other {method : Method} {path : String}
    (descriptor : ¬(method = .Get ∧ path = "/"))
    (manifest : ¬(method = .Get ∧ path = "/.well-known/x402"))
    (post : ¬(method = .Post ∧ path = "/ntt")) : ¬Routed method path := by
  rintro (⟨get, rfl | rfl⟩ | routed)
  · exact descriptor ⟨get, rfl⟩
  · exact manifest ⟨get, rfl⟩
  · exact post routed

inductive Permitted (X : Crates) (method : Method) (path : String) (req : Request) (env : Env) :
    HostOp → Prop
  | discovery : method = .Get → path = "/" ∨ path = "/.well-known/x402" →
      Permitted X method path req env (.newResponse 200)
  | missing : ¬Routed method path → Permitted X method path req env (.newResponse 404)
  | answer {status : Nat} : method = .Post → path = "/ntt" → status ∈ [200, 400, 402, 413, 500] →
      Permitted X method path req env (.newResponse status)
  | bytes {envelope : String} : method = .Post → path = "/ntt" →
      req.xPayment = .ok (some envelope) → Permitted X method path req env .bytes
  | post {envelope facilitator payload endpoint : String} {op : HostOp} : method = .Post →
      path = "/ntt" → req.xPayment = .ok (some envelope) →
      env "FACILITATOR_URL" = .ok facilitator →
      buildVerifyBody X ⟨envelope⟩ (buildRequirementsJson env) = .ok payload →
      endpoint ∈ ["/verify", "/settle"] → Posts ⟨facilitator ++ endpoint, payload⟩ op →
      Permitted X method path req env op

/-! ## Stages that fail in settlement -/

def FailsInSettlement {α : Type} (result : Except Error α) : Prop :=
  ∀ e, result = .error e → ∃ s, e = .settlement s

section Stages
variable {X : Crates} {α : Type}

theorem failsInSettlement_ok (a : α) : FailsInSettlement (.ok a) := by
  intro e equal
  cases equal

theorem failsInSettlement_error (s : SettlementError) :
    FailsInSettlement (.error (.settlement s) : Except Error α) := by
  intro e equal
  exact ⟨s, (Except.error.inj equal).symm⟩

theorem decodePaymentPayload_fails (envelope : String) :
    FailsInSettlement (decodePaymentPayload X envelope) := by
  unfold decodePaymentPayload
  split
  · exact failsInSettlement_error _
  · split
    · exact failsInSettlement_ok _
    · exact failsInSettlement_error _

theorem buildVerifyBody_fails (envelope : PaymentEnvelope)
    (requirements : PaymentRequirementsJson) :
    FailsInSettlement (buildVerifyBody X envelope requirements) := fun e failed =>
  decodePaymentPayload_fails _ e (buildVerifyBody_error.mp failed)

theorem parseVerifyResponse_fails (reply : String) :
    FailsInSettlement (parseVerifyResponse reply) := by
  simp only [parseVerifyResponse]
  split
  · exact failsInSettlement_ok _
  · exact failsInSettlement_error _

theorem parseSettleResponse_fails (reply : String) :
    FailsInSettlement (parseSettleResponse X reply) := by
  intro e failed
  obtain ⟨d, rfl⟩ := parseSettleResponse_error failed
  exact ⟨_, rfl⟩

variable {P : HostOp → Prop}

theorem postJson_confined {url body : String} (allowed : ∀ op, Posts ⟨url, body⟩ op → P op) :
    Confined (I := host) P FailsInSettlement 3 (postJson url body) := by
  simp only [postJson, newRequest_bind, send_bind, text_bind]
  refine .call (allowed _ .newRequest) fun built => ?_
  cases built with
  | error e => exact .done (failsInSettlement_error _)
  | ok _ =>
      refine .call (allowed _ .send) fun sent => ?_
      cases sent with
      | error e => exact .done (failsInSettlement_error _)
      | ok _ =>
          refine .call (allowed _ .text) fun read => .done ?_
          cases read with
          | error e => exact failsInSettlement_error _
          | ok reply => exact failsInSettlement_ok _

theorem exchange_confined {url body : String} {parse : String → Except Error α}
    (allowed : ∀ op, Posts ⟨url, body⟩ op → P op)
    (parsed : ∀ reply, FailsInSettlement (parse reply)) :
    Confined (I := host) P FailsInSettlement 3
      (postJson url body >>= fun reply => pure (reply >>= parse)) := by
  apply (postJson_confined allowed).bind (m := 0)
  intro reply fails
  apply Confined.done
  cases reply with
  | error e =>
      obtain ⟨s, rfl⟩ := fails e rfl
      exact failsInSettlement_error s
  | ok text => exact parsed text

end Stages

/-! ## Paid requests -/

inductive PaidOutcome (X : Crates) : WorkerResult → Prop
  | failed (detail : String) : PaidOutcome X (.error detail)
  | refused {e : Error} : (errorStatusAndBody e).1 ∈ [400, 402, 413, 500] →
      PaidOutcome X (.ok (errorResponse e))
  | sold (tx : PaymentTxHash) (ntt : NttRequest) (outcome : ComputeOutcome) :
      PaidOutcome X (.ok ⟨200, paymentResponseHeaders (paymentResponseValue X tx),
        utf8 (responseBody ntt outcome)⟩)

section Paid
variable {X : Crates} {req : Request} {env : Env}

theorem respond_confined {P : HostOp → Prop} {Q : WorkerResult → Prop} {status : Nat}
    {headers : List (String × String)} {body : List UInt8} (allowed : P (.newResponse status))
    (built : Q (.ok ⟨status, headers, body⟩)) (failed : ∀ detail, Q (.error detail)) :
    Confined (I := host) P Q 1 (respond status headers body) := by
  rw [respond, newResponse_bind]
  refine .call allowed fun reply => .done ?_
  cases reply with
  | error detail => exact failed detail
  | ok _ => exact built

theorem refusal_confined {e : Error} (status : (errorStatusAndBody e).1 ∈ [400, 402, 413, 500]) :
    Confined (I := host) (Permitted X .Post "/ntt" req env) (PaidOutcome X) 1
      (domainErrorResponse e) :=
  respond_confined (.answer rfl rfl (List.mem_cons_of_mem _ status)) (.refused status) .failed

theorem serve_refusal_status {body : List UInt8} {e : Error}
    (refusal : serve X ⟨body⟩ = .error e) : (errorStatusAndBody e).1 ∈ [400, 402, 413, 500] := by
  rcases serve_error refusal with ⟨p, rfl⟩ | ⟨o, rfl⟩ | ⟨b, rfl⟩ <;> simp [errorStatusAndBody]

theorem settlement_status {α : Type} {result : Except Error α} (fails : FailsInSettlement result)
    {e : Error} (failed : result = .error e) :
    (errorStatusAndBody e).1 ∈ [400, 402, 413, 500] := by
  obtain ⟨s, rfl⟩ := fails e failed
  simp [errorStatusAndBody]

theorem settleAndServe_confined {envelope : String}
    (present : req.xPayment = .ok (some envelope)) :
    Confined (I := host) (Permitted X .Post "/ntt" req env) (PaidOutcome X) 8
      (settleAndServe X req env envelope) := by
  simp only [settleAndServe, readSettlementConfig]
  cases configured : env "FACILITATOR_URL" with
  | error detail => exact (refusal_confined (by simp [errorStatusAndBody])).mono (by omega)
  | ok facilitator =>
      simp only [verifyAsync]
      cases built : buildVerifyBody X ⟨envelope⟩ (buildRequirementsJson env) with
      | error e =>
          exact (refusal_confined (settlement_status (buildVerifyBody_fails _ _) built)).mono
            (by omega)
      | ok payload =>
          have allowed (endpoint : String) (known : endpoint ∈ ["/verify", "/settle"]) (op : HostOp)
              (posts : Posts ⟨facilitator ++ endpoint, payload⟩ op) :
              Permitted X .Post "/ntt" req env op :=
            .post rfl rfl present configured built known posts
          refine (exchange_confined (allowed "/verify" (by simp))
            parseVerifyResponse_fails).bind (m := 5) fun verified fails => ?_
          cases verified with
          | error e => exact (refusal_confined (settlement_status fails rfl)).mono (by omega)
          | ok _ =>
              simp only [afterVerify, awaitBytes_bind]
              refine .call (.bytes rfl rfl present) fun _ => ?_
              cases received : req.body with
              | error detail => exact .done (.failed detail)
              | ok body =>
                  cases served : serve X ⟨body⟩ with
                  | error e =>
                      simp only [served]
                      exact (refusal_confined (serve_refusal_status served)).mono (by omega)
                  | ok output =>
                      obtain ⟨-, ntt, outcome, -, -, -, -, rfl⟩ := serve_ok_inv X served
                      have settleBody : buildSettleBody X ⟨envelope⟩ (buildRequirementsJson env) =
                          .ok payload := (buildSettleBody_ok_iff_verify X).mpr built
                      simp only [served, settleAsync, settleBody]
                      refine (exchange_confined (allowed "/settle" (by simp))
                        parseSettleResponse_fails).bind (m := 1) fun settled fails => ?_
                      cases settled with
                      | error e => exact refusal_confined (settlement_status fails rfl)
                      | ok tx =>
                          exact respond_confined (.answer rfl rfl (by simp)) (.sold tx ntt outcome)
                            .failed

theorem handleNtt_confined :
    Confined (I := host) (Permitted X .Post "/ntt" req env) (fun _ => True) 8
      (handleNtt X req env) := by
  unfold handleNtt
  cases header : req.xPayment.toOption.join with
  | none =>
      exact (respond_confined (.answer rfl rfl (by simp)) trivial fun _ => trivial).mono (by omega)
  | some envelope =>
      exact (settleAndServe_confined (toOption_join_eq_some.mp header)).weaken fun _ _ => trivial

theorem dispatch_confined (method : Method) (path : String) :
    Confined (I := host) (Permitted X method path req env) (fun _ => True) 8
      (dispatch X method path req env) := by
  have direct {status : Nat} {headers : List (String × String)} {body : List UInt8}
      (allowed : Permitted X method path req env (.newResponse status)) :
      Confined (I := host) (Permitted X method path req env) (fun _ => True) 8
        (respond status headers body) :=
    (respond_confined allowed trivial fun _ => trivial).mono (by omega)
  unfold dispatch
  split_ifs with descriptor manifest post
  · exact direct (.discovery descriptor.1 (.inl descriptor.2))
  · exact direct (.discovery manifest.1 (.inr manifest.2))
  · obtain ⟨rfl, rfl⟩ := post
    exact handleNtt_confined
  · exact direct (.missing (not_routed_of_other descriptor manifest post))

end Paid

/-! ## Bodies that are JSON -/

def HoldsJson (body : List UInt8) : Prop := ∃ text v, body = utf8 text ∧ Renders v text.toList

theorem holdsJson_utf8 {text : String} : HoldsJson (utf8 text) ↔ ∃ v, Renders v text.toList := by
  constructor
  · rintro ⟨other, v, equal, renders⟩
    obtain rfl := utf8_injective equal
    exact ⟨v, renders⟩
  · rintro ⟨v, renders⟩
    exact ⟨text, v, rfl, renders⟩

set_option maxRecDepth 2000 in
theorem renders_serviceDescriptor : ∃ v, Renders v serviceDescriptor.toList := by
  have parsed : (parse serviceDescriptor.toList).isSome = true := by
    -- the text is evaluated line by line, since decoding it whole is quadratic
    unfold serviceDescriptor
    simp only [String.toList_append, String.reduceToList]
    decide +kernel
  obtain ⟨v, parsed⟩ := Option.isSome_iff_exists.mp parsed
  exact ⟨v, parse_eq_some_iff.mp parsed⟩

def errorPrefix : Error → String
  | .parse _ => "parse error: "
  | .outOfTier _ => "out of tier: "
  | .settlement _ => "settlement error: "
  | .registry _ => "registry error: "
  | .backend _ => "backend error: "
  | .faucet _ => "faucet error: "
  | .notYetImplemented _ => "not yet implemented: "

def errorDetail : Error → String
  | .parse e => e.display
  | .outOfTier e => e.display
  | .settlement e => e.display
  | .registry e => e.display
  | .backend e => e.display
  | .faucet e => e.display
  | .notYetImplemented e => e.display

theorem errorText_eq (e : Error) :
    (errorStatusAndBody e).2 = errorPrefix e ++ errorDetail e := by
  cases e <;> rfl

/-- Every error text opens with a word of English. -/
theorem errorPrefix_opens (e : Error) : ∃ w rest, (errorPrefix e).toList = w ++ ' ' :: rest ∧
    IsWord w ∧ scalar? w = none := by
  refine ⟨(errorPrefix e).toList.takeWhile (· ≠ ' '),
    ((errorPrefix e).toList.dropWhile (· ≠ ' ')).tail, ?_⟩
  cases e <;> simp only [errorPrefix] <;> exact ⟨by decide, ⟨by decide, by decide⟩, by decide⟩

theorem errorText_not_json (e : Error) : ¬HoldsJson (utf8 (errorStatusAndBody e).2) := by
  rw [holdsJson_utf8, errorText_eq]
  rintro ⟨v, renders⟩
  obtain ⟨w, rest, opens, isWord, notScalar⟩ := errorPrefix_opens e
  rw [String.toList_append, opens, List.append_assoc, List.cons_append] at renders
  exact not_renders_of_word isWord (by decide) notScalar v renders

theorem notFound_not_json : ¬HoldsJson (utf8 "not found") := by
  rw [holdsJson_utf8]
  rintro ⟨v, renders⟩
  exact not_renders_of_word (w := "not".toList) (c := ' ') ⟨by decide, by decide⟩ (by decide)
    (by decide) v renders

/-! ## The results -/

section Results
variable (X : Crates) (method : Method) (path : String) (req : Request) (env : Env)

/-- A request causes at most eight calls. On the discovery routes these are responses of 200, and of
404 where nothing is routed; on the paid route, five statuses, the request's own body, and posts
of one text to the two endpoints of the configured facilitator. -/
theorem dispatch_contained {events : List (Event host)} {rest : Host WorkerResult}
    (steps : Steps (dispatch X method path req env) events rest) :
    events.length ≤ 8 ∧ ∀ e ∈ events, Permitted X method path req env e.op :=
  (dispatch_confined method path).of_steps steps

theorem dispatch_contained_pair : ∃ sale : Sale referenceCrates pairPost devnetEnv,
    sale.events.length = 8 ∧ (sale.events.length ≤ 8 ∧
      ∀ e ∈ sale.events, Permitted referenceCrates .Post "/ntt" pairPost devnetEnv e.op) := by
  obtain ⟨output, served⟩ := serve_pairBody
  exact ⟨pairSale output served, rfl,
    dispatch_contained referenceCrates .Post "/ntt" pairPost devnetEnv (pairSale output served).run⟩

/-- Every response to a routed request is labelled as JSON, but the body is JSON exactly when it is
an offer or the answer is 200. -/
theorem labelled_json {events : List (Event host)} {response : Response} (plain : PlainEnv env)
    (run : Run (dispatch X method path req env) events (.ok response)) :
    (("Content-Type", "application/json") ∈ response.headers ↔ response.status ≠ 404) ∧
    (response.status = 404 ↔ ¬Routed method path) ∧
    (HoldsJson response.body ↔ response.status = 200 ∨
      (method = .Post ∧ path = "/ntt" ∧ req.xPayment.toOption.join = none)) := by
  have terms : Renders (.object (requirementsMembers env freeTierMaxMicrosUsdc))
      (buildRequirementsJson env).asStr.toList := renders_requirementsAt env plain _
  have label : ("Content-Type", "application/json") ∈ jsonHeaders := List.mem_cons_self
  have ok : 200 ≠ 404 := by decide
  have offered : 402 ≠ 404 := by decide
  unfold dispatch at run
  split_ifs at run with descriptor manifest post
  · obtain ⟨-, rfl⟩ := run_respond_iff.mp run
    exact ⟨iff_of_true label ok, iff_of_false ok (by simp [Routed, descriptor]),
      iff_of_true (holdsJson_utf8.mpr renders_serviceDescriptor) (.inl rfl)⟩
  · obtain ⟨-, rfl⟩ := run_respond_iff.mp run
    exact ⟨iff_of_true label ok, iff_of_false ok (by simp [Routed, manifest]),
      iff_of_true (holdsJson_utf8.mpr ⟨_, renders_manifest terms⟩) (.inl rfl)⟩
  · obtain ⟨rfl, rfl⟩ := post
    have routed : ¬¬Routed .Post "/ntt" := not_not.mpr (.inr ⟨rfl, rfl⟩)
    cases header : req.xPayment.toOption.join with
    | none =>
        simp only [handleNtt, header] at run
        obtain ⟨-, rfl⟩ := run_respond_iff.mp run
        exact ⟨iff_of_true label offered, iff_of_false offered routed,
          iff_of_true (holdsJson_utf8.mpr ⟨_, renders_accepts terms⟩) (.inr ⟨rfl, rfl, rfl⟩)⟩
    | some envelope =>
        simp only [handleNtt, header] at run
        have outcome := (settleAndServe_confined (toOption_join_eq_some.mp header)).of_run run
        cases outcome with
        | @refused e status =>
            have code : (errorStatusAndBody e).1 ≠ 200 ∧ (errorStatusAndBody e).1 ≠ 404 := by
              simp only [List.mem_cons, List.not_mem_nil, or_false] at status
              omega
            exact ⟨iff_of_true label code.2, iff_of_false code.2 routed,
              iff_of_false (errorText_not_json e) (by simp [errorResponse, code.1])⟩
        | sold tx ntt outcome =>
            exact ⟨iff_of_true List.mem_cons_self ok, iff_of_false ok routed,
              iff_of_true (holdsJson_utf8.mpr ⟨_, renders_responseBody ntt outcome⟩) (.inl rfl)⟩
  · obtain ⟨-, rfl⟩ := run_respond_iff.mp run
    have unrouted := not_routed_of_other descriptor manifest post
    exact ⟨iff_of_false (by simp) (by simp), iff_of_true rfl unrouted,
      iff_of_false notFound_not_json fun served => served.elim (by simp) fun offer =>
        post ⟨offer.1, offer.2.1⟩⟩

theorem labelled_json_pair : ∃ sale : Sale referenceCrates pairPost devnetEnv,
    (("Content-Type", "application/json") ∈ sale.response.headers ↔ sale.response.status ≠ 404) ∧
    (sale.response.status = 404 ↔ ¬Routed .Post "/ntt") ∧
    (HoldsJson sale.response.body ↔ sale.response.status = 200 ∨
      (Method.Post = .Post ∧ "/ntt" = "/ntt" ∧ pairPost.xPayment.toOption.join = none)) := by
  obtain ⟨output, served⟩ := serve_pairBody
  exact ⟨pairSale output served, labelled_json referenceCrates .Post "/ntt" pairPost devnetEnv
    plainEnv_devnet (pairSale output served).run⟩

end Results
end NttX402.Proof
