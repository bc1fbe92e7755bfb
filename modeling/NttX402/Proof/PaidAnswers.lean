import NttX402.Proof.PaidRun

namespace NttX402.Proof
open Worker Library

/-! ## Posts -/

/-- A post that the runtime fails to build, to send or to read the reply of. -/
inductive Unreached (request : PostRequest) : List (Event host) → String → Prop
  | built (detail : String) : Unreached request [⟨.newRequest request, .error detail⟩] detail
  | sent (detail : String) :
      Unreached request [⟨.newRequest request, .ok ()⟩, ⟨.send request, .error detail⟩] detail
  | read (detail : String) :
      Unreached request [⟨.newRequest request, .ok ()⟩, ⟨.send request, .ok ()⟩,
        ⟨.text request, .error detail⟩] detail

def isTransportFailure : Event host → Bool
  | ⟨.newRequest _, .error _⟩ => true
  | ⟨.send _, .error _⟩ => true
  | ⟨.text _, .error _⟩ => true
  | _ => false

theorem run_postJson_iff {url body : String} {events : List (Event host)}
    {result : Except Error String} :
    Run (postJson url body) events result ↔
      (∃ detail, Unreached ⟨url, body⟩ events detail ∧
        result = .error (.settlement (.transport detail))) ∨
      ∃ reply, events = posted ⟨url, body⟩ reply ∧ result = .ok reply := by
  constructor
  · intro run
    simp only [postJson, newRequest_bind, send_bind, text_bind] at run
    obtain ⟨built, _, rfl, afterBuild⟩ := run_call_iff.mp run
    cases built with
    | error detail =>
        obtain ⟨rfl, rfl⟩ := run_done_iff.mp afterBuild
        exact .inl ⟨detail, .built detail, rfl⟩
    | ok _ =>
        obtain ⟨sent, _, rfl, afterSend⟩ := run_call_iff.mp afterBuild
        cases sent with
        | error detail =>
            obtain ⟨rfl, rfl⟩ := run_done_iff.mp afterSend
            exact .inl ⟨detail, .sent detail, rfl⟩
        | ok _ =>
            obtain ⟨read, _, rfl, afterRead⟩ := run_call_iff.mp afterSend
            obtain ⟨rfl, rfl⟩ := run_done_iff.mp afterRead
            cases read with
            | error detail => exact .inl ⟨detail, .read detail, rfl⟩
            | ok reply => exact .inr ⟨reply, rfl, rfl⟩
  · rintro (⟨detail, failure, rfl⟩ | ⟨reply, rfl, rfl⟩)
    · cases failure with
      | built => exact .call _ (.refl _)
      | sent => exact .call _ (.call _ (.refl _))
      | read => exact .call _ (.call _ (.call _ (.refl _)))
    · exact run_postJson url body reply

/-- A post whose reply is parsed fails on the way, or ends as its reply is parsed. -/
theorem run_exchange_iff {α : Type} {url body : String} {parse : String → Except Error α}
    {events : List (Event host)} {result : Except Error α} :
    Run (postJson url body >>= fun reply => pure (reply >>= parse)) events result ↔
      (∃ detail, Unreached ⟨url, body⟩ events detail ∧
        result = .error (.settlement (.transport detail))) ∨
      ∃ reply, events = posted ⟨url, body⟩ reply ∧ result = parse reply := by
  rw [run_bind_iff]
  constructor
  · rintro ⟨first, second, reply, rfl, post, rest⟩
    obtain ⟨rfl, rfl⟩ := run_done_iff.mp rest
    rw [List.append_nil]
    rcases run_postJson_iff.mp post with ⟨detail, failure, rfl⟩ | ⟨text, rfl, rfl⟩
    · exact .inl ⟨detail, failure, rfl⟩
    · exact .inr ⟨text, rfl, rfl⟩
  · rintro (⟨detail, failure, rfl⟩ | ⟨reply, rfl, rfl⟩)
    · exact ⟨events, [], _, by simp, run_postJson_iff.mpr (.inl ⟨detail, failure, rfl⟩), .refl _⟩
    · exact ⟨_, [], _, by simp, run_postJson url body reply, .refl _⟩

theorem run_respond_iff {status : Nat} {headers : List (String × String)} {body : List UInt8}
    {events : List (Event host)} {response : Response} :
    Run (respond status headers body) events (.ok response) ↔
      events = [responseBuilt status] ∧ response = ⟨status, headers, body⟩ := by
  constructor
  · exact fun run => ((respond_obeys status headers body).post events _ run).2 response rfl
  · rintro ⟨rfl, rfl⟩
    exact run_respond status headers body

def errorResponse (e : Error) : Response :=
  ⟨(errorStatusAndBody e).1, jsonHeaders, utf8 (errorStatusAndBody e).2⟩

theorem run_domainErrorResponse_iff {e : Error} {events : List (Event host)}
    {response : Response} :
    Run (domainErrorResponse e) events (.ok response) ↔
      events = [responseBuilt (errorStatusAndBody e).1] ∧ response = errorResponse e :=
  run_respond_iff

/-! ## Answers -/

section Answers
variable (X : Crates) (req : Request)

inductive VerifiedAnswer (settle : PostRequest) : List (Event host) → Response → Prop
  | refused {body : List UInt8} {e : Error} (received : req.body = .ok body)
      (refusal : serve X ⟨body⟩ = .error e) :
      VerifiedAnswer settle [bodyRead, responseBuilt (errorStatusAndBody e).1] (errorResponse e)
  | unreached {body : List UInt8} {output : ResponseBytes} {failing : List (Event host)}
      {detail : String} (received : req.body = .ok body) (served : serve X ⟨body⟩ = .ok output)
      (failure : Unreached settle failing detail) :
      VerifiedAnswer settle (bodyRead :: (failing ++ [responseBuilt 402]))
        (errorResponse (.settlement (.transport detail)))
  | rejected {body : List UInt8} {output : ResponseBytes} {reply : String} {e : Error}
      (received : req.body = .ok body) (served : serve X ⟨body⟩ = .ok output)
      (rejection : parseSettleResponse X reply = .error e) :
      VerifiedAnswer settle
        (bodyRead :: (posted settle reply ++ [responseBuilt (errorStatusAndBody e).1]))
        (errorResponse e)
  | sold {body : List UInt8} {output : ResponseBytes} {reply : String} {tx : PaymentTxHash}
      (received : req.body = .ok body) (served : serve X ⟨body⟩ = .ok output)
      (settled : parseSettleResponse X reply = .ok tx) :
      VerifiedAnswer settle (bodyRead :: (posted settle reply ++ [responseBuilt 200]))
        ⟨200, paymentResponseHeaders (paymentResponseValue X tx), output.asSlice⟩

inductive PaidAnswer (env : Env) (envelope : String) : List (Event host) → Response → Prop
  | unconfigured {detail : String} (missing : env "FACILITATOR_URL" = .error detail) :
      PaidAnswer env envelope [responseBuilt 402]
        (errorResponse (.settlement (.transport s!"FACILITATOR_URL var: {detail}")))
  | undecoded {facilitator : String} {e : Error}
      (configured : env "FACILITATOR_URL" = .ok facilitator)
      (undecodable : decodePaymentPayload X envelope = .error e) :
      PaidAnswer env envelope [responseBuilt (errorStatusAndBody e).1] (errorResponse e)
  | unreached {facilitator payload detail : String} {failing : List (Event host)}
      (configured : env "FACILITATOR_URL" = .ok facilitator)
      (built : buildVerifyBody X ⟨envelope⟩ (buildRequirementsJson env) = .ok payload)
      (failure : Unreached ⟨facilitator ++ "/verify", payload⟩ failing detail) :
      PaidAnswer env envelope (failing ++ [responseBuilt 402])
        (errorResponse (.settlement (.transport detail)))
  | rejected {facilitator payload reply : String} {e : Error}
      (configured : env "FACILITATOR_URL" = .ok facilitator)
      (built : buildVerifyBody X ⟨envelope⟩ (buildRequirementsJson env) = .ok payload)
      (rejection : parseVerifyResponse reply = .error e) :
      PaidAnswer env envelope (posted ⟨facilitator ++ "/verify", payload⟩ reply ++
        [responseBuilt (errorStatusAndBody e).1]) (errorResponse e)
  | verified {facilitator payload reply : String} {events : List (Event host)}
      {response : Response} (configured : env "FACILITATOR_URL" = .ok facilitator)
      (built : buildVerifyBody X ⟨envelope⟩ (buildRequirementsJson env) = .ok payload)
      (acceptance : parseVerifyResponse reply = .ok ())
      (answer : VerifiedAnswer X req ⟨facilitator ++ "/settle", payload⟩ events response) :
      PaidAnswer env envelope
        (posted ⟨facilitator ++ "/verify", payload⟩ reply ++ events) response

variable {X req}

section AfterVerify
variable {facilitator payload envelope : String} {requirements : PaymentRequirementsJson}
  (built : buildSettleBody X ⟨envelope⟩ requirements = .ok payload) {events : List (Event host)}
  {response : Response}
include built

theorem VerifiedAnswer.of_run
    (run : Run (afterVerify X req ⟨facilitator⟩ ⟨envelope⟩ requirements) events (.ok response)) :
    VerifiedAnswer X req ⟨facilitator ++ "/settle", payload⟩ events response := by
  rw [afterVerify, awaitBytes_bind] at run
  obtain ⟨-, rest, rfl, run⟩ := run_call_iff.mp run
  cases received : req.body with
  | error e =>
      simp only [received] at run
      obtain ⟨-, equal⟩ := run_done_iff.mp run
      cases equal
  | ok body =>
      cases served : serve X ⟨body⟩ with
      | error e =>
          simp only [received, served] at run
          obtain ⟨rfl, rfl⟩ := run_domainErrorResponse_iff.mp run
          exact .refused received served
      | ok output =>
          simp only [received, served, settleAsync, built] at run
          obtain ⟨first, second, settled, rfl, exchange, run⟩ := run_bind_iff.mp run
          rcases run_exchange_iff.mp exchange with
            ⟨detail, failure, rfl⟩ | ⟨reply, rfl, rfl⟩
          · obtain ⟨rfl, rfl⟩ := run_domainErrorResponse_iff.mp run
            exact .unreached received served failure
          · cases settled : parseSettleResponse X reply with
            | error e =>
                rw [settled] at run
                obtain ⟨rfl, rfl⟩ := run_domainErrorResponse_iff.mp run
                exact .rejected received served settled
            | ok tx =>
                rw [settled] at run
                obtain ⟨rfl, rfl⟩ := run_respond_iff.mp run
                exact .sold received served settled

theorem VerifiedAnswer.run
    (answer : VerifiedAnswer X req ⟨facilitator ++ "/settle", payload⟩ events response) :
    Run (afterVerify X req ⟨facilitator⟩ ⟨envelope⟩ requirements) events (.ok response) := by
  rw [afterVerify, awaitBytes_bind]
  apply run_call_iff.mpr
  cases answer with
  | refused received refusal =>
      refine ⟨(), _, rfl, ?_⟩
      simp only [received, refusal]
      exact run_domainErrorResponse_iff.mpr ⟨rfl, rfl⟩
  | unreached received served failure =>
      refine ⟨(), _, rfl, ?_⟩
      simp only [received, served, settleAsync, built]
      exact (run_exchange_iff.mpr (.inl ⟨_, failure, rfl⟩)).bind
        (run_domainErrorResponse_iff.mpr ⟨rfl, rfl⟩)
  | rejected received served rejection =>
      refine ⟨(), _, rfl, ?_⟩
      simp only [received, served, settleAsync, built]
      exact (run_exchange_iff.mpr (.inr ⟨_, rfl, rejection.symm⟩)).bind
        (run_domainErrorResponse_iff.mpr ⟨rfl, rfl⟩)
  | sold received served settled =>
      refine ⟨(), _, rfl, ?_⟩
      simp only [received, served, settleAsync, built]
      exact (run_exchange_iff.mpr (.inr ⟨_, rfl, settled.symm⟩)).bind
        (run_respond_iff.mpr ⟨rfl, rfl⟩)

end AfterVerify

theorem buildVerifyBody_error {envelope : String} {requirements : PaymentRequirementsJson}
    {e : Error} : buildVerifyBody X ⟨envelope⟩ requirements = .error e ↔
      decodePaymentPayload X envelope = .error e := by
  unfold buildVerifyBody
  cases decodePaymentPayload X envelope <;> simp [Except.map]

section Paid
variable {env : Env} {envelope : String} (present : req.xPayment = .ok (some envelope))
  {events : List (Event host)} {response : Response}
include present

theorem handleNtt_paid : handleNtt X req env = settleAndServe X req env envelope := by
  rw [handleNtt, toOption_join_eq_some.mpr present]

theorem PaidAnswer.of_run (run : Run (handleNtt X req env) events (.ok response)) :
    PaidAnswer X req env envelope events response := by
  simp only [handleNtt_paid present, settleAndServe, readSettlementConfig] at run
  cases configured : env "FACILITATOR_URL" with
  | error detail =>
      simp only [configured] at run
      obtain ⟨rfl, rfl⟩ := run_domainErrorResponse_iff.mp run
      exact .unconfigured configured
  | ok facilitator =>
      simp only [configured, verifyAsync] at run
      obtain ⟨first, second, verified, rfl, verify, rest⟩ := run_bind_iff.mp run
      cases built : buildVerifyBody X ⟨envelope⟩ (buildRequirementsJson env) with
      | error e =>
          simp only [built] at verify
          obtain ⟨rfl, rfl⟩ := run_done_iff.mp verify
          obtain ⟨rfl, rfl⟩ := run_domainErrorResponse_iff.mp rest
          exact .undecoded configured (buildVerifyBody_error.mp built)
      | ok payload =>
          simp only [built] at verify
          rcases run_exchange_iff.mp verify with ⟨detail, failure, rfl⟩ | ⟨reply, rfl, rfl⟩
          · obtain ⟨rfl, rfl⟩ := run_domainErrorResponse_iff.mp rest
            exact .unreached configured built failure
          · cases accepted : parseVerifyResponse reply with
            | error e =>
                rw [accepted] at rest
                obtain ⟨rfl, rfl⟩ := run_domainErrorResponse_iff.mp rest
                exact .rejected configured built accepted
            | ok _ =>
                rw [accepted] at rest
                have settleBody := (buildSettleBody_ok_iff_verify X).mpr built
                exact .verified configured built accepted (.of_run settleBody rest)

theorem PaidAnswer.run (answer : PaidAnswer X req env envelope events response) :
    Run (handleNtt X req env) events (.ok response) := by
  simp only [handleNtt_paid present, settleAndServe, readSettlementConfig]
  cases answer with
  | unconfigured missing =>
      simp only [missing]
      exact run_domainErrorResponse_iff.mpr ⟨rfl, rfl⟩
  | undecoded configured undecodable =>
      simp only [configured, verifyAsync, buildVerifyBody_error.mpr undecodable]
      exact Run.bind (.refl _) (run_domainErrorResponse_iff.mpr ⟨rfl, rfl⟩)
  | unreached configured built failure =>
      simp only [configured, verifyAsync, built]
      exact (run_exchange_iff.mpr (.inl ⟨_, failure, rfl⟩)).bind
        (run_domainErrorResponse_iff.mpr ⟨rfl, rfl⟩)
  | rejected configured built rejection =>
      simp only [configured, verifyAsync, built]
      exact (run_exchange_iff.mpr (.inr ⟨_, rfl, rejection.symm⟩)).bind
        (run_domainErrorResponse_iff.mpr ⟨rfl, rfl⟩)
  | verified configured built acceptance answer =>
      simp only [configured, verifyAsync, built]
      have settleBody := (buildSettleBody_ok_iff_verify X).mpr built
      exact (run_exchange_iff.mpr (.inr ⟨_, rfl, acceptance.symm⟩)).bind (answer.run settleBody)

/-- A request with a payment is answered in these ways and no others. -/
theorem run_handleNtt_iff :
    Run (handleNtt X req env) events (.ok response) ↔
      PaidAnswer X req env envelope events response :=
  ⟨PaidAnswer.of_run present, PaidAnswer.run present⟩

end Paid

end Answers

/-! ## Which error each stage reports -/

section Errors
variable {X : Crates} {e : Error}

theorem computeWasm_error {G : P3Goldilocks} {sha256 : List UInt8 → Vector UInt8 32}
    {field : Field} {direction : Direction} {degree : PolyDegreeLog2} {coefficients : List UInt64}
    (failed : computeWasm G sha256 field direction degree coefficients = .error e) :
    ∃ b, e = .backend b := by
  simp only [computeWasm] at failed
  split at failed
  · cases dispatched : dispatchField G field direction degree coefficients with
    | error b =>
        rw [dispatched] at failed
        exact ⟨b, (Except.error.inj failed).symm⟩
    | ok output =>
        rw [dispatched] at failed
        cases failed
  · exact ⟨_, (Except.error.inj failed).symm⟩

theorem serve_error {body : List UInt8} (refusal : serve X ⟨body⟩ = .error e) :
    (∃ p, e = .parse p) ∨ (∃ o, e = .outOfTier o) ∨ ∃ b, e = .backend b := by
  cases parsed : parseRequest X body with
  | error e' =>
      rw [serve_of_unparsed X parsed] at refusal
      obtain rfl := Except.error.inj refusal
      exact .inl (parseRequest_error X parsed)
  | ok asked =>
      rw [serve_of_parsed X parsed] at refusal
      split at refusal
      · exact .inr (.inl ⟨_, (Except.error.inj refusal).symm⟩)
      · rw [runComputeToResponse] at refusal
        cases computed : computeWasm X.goldilocks X.sha256 asked.field asked.direction
            asked.degreeLog2 asked.coefficients with
        | error e' =>
            rw [computed] at refusal
            obtain rfl := Except.error.inj refusal
            exact .inr (.inr (computeWasm_error computed))
        | ok outcome =>
            rw [computed] at refusal
            cases refusal

theorem decodeSolanaSignature_error {s : String}
    (failed : decodeSolanaSignature X s = .error e) :
    ∃ d, e = .settlement (.settleRejected d) := by
  unfold decodeSolanaSignature at failed
  split at failed
  · exact ⟨_, (Except.error.inj failed).symm⟩
  · split at failed
    · cases failed
    · exact ⟨_, (Except.error.inj failed).symm⟩

theorem parseSettleResponse_error {reply : String}
    (rejection : parseSettleResponse X reply = .error e) :
    ∃ d, e = .settlement (.settleRejected d) := by
  simp only [parseSettleResponse] at rejection
  split at rejection
  · split at rejection
    · exact ⟨_, (Except.error.inj rejection).symm⟩
    · rename_i signature _
      cases decoded : decodeSolanaSignature X signature with
      | error e' =>
          rw [decoded] at rejection
          obtain rfl := Except.error.inj rejection
          exact decodeSolanaSignature_error decoded
      | ok bytes =>
          rw [decoded] at rejection
          cases rejection
  · exact ⟨_, (Except.error.inj rejection).symm⟩

end Errors

end NttX402.Proof
