import NttX402.Proof.PaidAnswers
import NttX402.Proof.Payments
import NttX402.Proof.ServedRoundTrip

namespace NttX402.Proof
open Worker Library

/-! ## Refused bodies -/

/-- The run starts with a call to `/verify` that is answered with a verification. -/
def Verified (env : Env) (events : List (Event host)) : Prop :=
  ∃ facilitator payload reply rest, env "FACILITATOR_URL" = .ok facilitator ∧
    parseVerifyResponse reply = .ok () ∧
    events = posted ⟨facilitator ++ "/verify", payload⟩ reply ++ rest

/-- The answer is not an internal error, and a refused body is answered as the client's error. -/
def BlamesClient (X : Crates) (req : Request) (response : Response) : Prop :=
  response.status ≠ 500 ∧
    ∀ body e, req.body = .ok body → serve X ⟨body⟩ = .error e →
      response.status = 400 ∨ response.status = 413

section Refusals
variable {X : Crates} {req : Request} {env : Env} {envelope : String}
  {events : List (Event host)} {response : Response}

theorem PaidAnswer.of_verified (answer : PaidAnswer X req env envelope events response)
    (verified : Verified env events) :
    ∃ settle rest, VerifiedAnswer X req settle rest response := by
  obtain ⟨facilitator, payload, reply, rest, -, acceptance, split⟩ := verified
  cases answer with
  | unconfigured missing => cases split
  | undecoded configured undecodable => cases split
  | unreached configured built failure =>
      have failures := congrArg (List.map isTransportFailure) split
      cases failure with
      | built => simp [posted, isTransportFailure] at failures
      | sent => simp [posted, isTransportFailure] at failures
      | read => simp [posted, isTransportFailure] at failures
  | @rejected facilitator' payload' reply' e configured built rejection =>
      have same := (List.append_inj split rfl).1
      have member : answered ⟨facilitator' ++ "/verify", payload'⟩ reply' ∈
          posted ⟨facilitator ++ "/verify", payload⟩ reply :=
        same ▸ by simp [posted, answered]
      obtain ⟨-, rfl⟩ := answered_mem_posted member
      cases rejection.symm.trans acceptance
  | verified configured built acceptance answer => exact ⟨_, _, answer⟩

theorem blames_iff_of_served {body : List UInt8} {output : ResponseBytes}
    (received : req.body = .ok body) (served : serve X ⟨body⟩ = .ok output)
    (status : response.status ≠ 500) :
    BlamesClient X req response ↔
      ∀ body, req.body = .ok body → ¬∃ b, serve X ⟨body⟩ = .error (.backend b) := by
  have accepted (body' : List UInt8) (received' : req.body = .ok body') (e : Error) :
      ¬serve X ⟨body'⟩ = .error e := by
    obtain rfl := Except.ok.inj (received.symm.trans received')
    simp [served]
  apply iff_of_true
  · exact ⟨status, fun body' e received' refusal => absurd refusal (accepted body' received' e)⟩
  · rintro body' received' ⟨b, failed⟩
    exact accepted body' received' (.backend b) failed

theorem VerifiedAnswer.blames_iff {settle : PostRequest}
    (answer : VerifiedAnswer X req settle events response) :
    BlamesClient X req response ↔
      ∀ body, req.body = .ok body → ¬∃ b, serve X ⟨body⟩ = .error (.backend b) := by
  cases answer with
  | refused received refusal =>
      simp only [BlamesClient, received, Except.ok.injEq, forall_eq', refusal, Except.error.injEq]
      rcases serve_error refusal with ⟨p, rfl⟩ | ⟨o, rfl⟩ | ⟨b, rfl⟩
      · simp [errorResponse, errorStatusAndBody]
      · simp [errorResponse, errorStatusAndBody]
      · simp [errorResponse, errorStatusAndBody]
  | unreached received served failure =>
      apply blames_iff_of_served received served
      simp [errorResponse, errorStatusAndBody]
  | rejected received served rejection =>
      obtain ⟨d, rfl⟩ := parseSettleResponse_error rejection
      apply blames_iff_of_served received served
      simp [errorResponse, errorStatusAndBody]
  | sold received served settled =>
      apply blames_iff_of_served received served
      simp

/-- A verified request is answered without an internal error exactly where a body that asks for a
transform within the tier asks for a Goldilocks transform, with the right number of coefficients. -/
theorem blamesClient_iff (reads : X.ReadsJson) (exact : X.goldilocks.Exact)
    (present : req.xPayment = .ok (some envelope))
    (run : Run (handleNtt X req env) events (.ok response)) (verified : Verified env events) :
    BlamesClient X req response ↔
      ∀ body v asked, req.body = .ok body → Reads X body v → Asks v asked →
        asked.degreeLog2.get ≤ 12 →
        asked.coefficients.length = 2 ^ asked.degreeLog2.get.toNat ∧ asked.field = .Goldilocks := by
  obtain ⟨settle, rest, answer⟩ := ((run_handleNtt_iff present).mp run).of_verified verified
  rw [answer.blames_iff]
  have backend (body : List UInt8) := (serve_classified reads exact body).2.2.2
  constructor
  · intro none body v asked received read asks within
    by_contra wrong
    apply none body received
    refine (backend body).mpr ⟨v, asked, read, asks, within, ?_⟩
    by_contra! right
    obtain ⟨length, other⟩ := right
    refine wrong ⟨length, ?_⟩
    cases field : asked.field with
    | Goldilocks => rfl
    | BabyBear => exact absurd field other
  · intro right body received failed
    obtain ⟨v, asked, read, asks, within, wrong⟩ := (backend body).mp failed
    obtain ⟨length, field⟩ := right body v asked received read asks within
    rcases wrong with short | babyBear
    · exact short length
    · simp [field] at babyBear

end Refusals

/-! ## Rejected and unreached payments -/

/-- A reply of the facilitator was rejected, or the value of the payment header. -/
def Rejects (X : Crates) (env : Env) (envelope : String) (events : List (Event host)) : Prop :=
  ∃ facilitator, env "FACILITATOR_URL" = .ok facilitator ∧
    ((∃ body reply e, answered ⟨facilitator ++ "/verify", body⟩ reply ∈ events ∧
      parseVerifyResponse reply = .error e) ∨
    (∃ body reply e, answered ⟨facilitator ++ "/settle", body⟩ reply ∈ events ∧
      parseSettleResponse X reply = .error e) ∨
    ∃ e, decodePaymentPayload X envelope = .error e)

/-- A transport failure is answered with 502, and 402 stands for a rejection. -/
def TellsApart (X : Crates) (env : Env) (envelope : String) (events : List (Event host))
    (response : Response) : Prop :=
  ((∃ e ∈ events, isTransportFailure e = true) → response.status = 502) ∧
    (response.status = 402 → Rejects X env envelope events)

section Transport
variable {X : Crates} {req : Request} {env : Env} {envelope : String}
  {events : List (Event host)} {response : Response}

theorem Unreached.fails {request : PostRequest} {detail : String}
    (failure : Unreached request events detail) : ∃ e ∈ events, isTransportFailure e = true := by
  cases failure with
  | built detail => exact ⟨_, List.mem_cons_self, rfl⟩
  | sent detail => exact ⟨_, List.mem_cons_of_mem _ List.mem_cons_self, rfl⟩
  | read detail =>
      exact ⟨_, List.mem_cons_of_mem _ (List.mem_cons_of_mem _ List.mem_cons_self), rfl⟩

/-- What the run depends on: that the variable is set and that every post comes back. -/
def Reaches (env : Env) (events : List (Event host)) : Prop :=
  (∃ facilitator, env "FACILITATOR_URL" = .ok facilitator) ∧
    ∀ e ∈ events, isTransportFailure e = false

theorem tellsApart_of_failure (fails : ∃ e ∈ events, isTransportFailure e = true)
    (status : response.status = 402) :
    TellsApart X env envelope events response ↔ Reaches env events := by
  apply iff_of_false
  · intro tells
    simp [tells.1 fails] at status
  · rintro ⟨-, quiet⟩
    obtain ⟨e, member, failure⟩ := fails
    simp [quiet e member] at failure

theorem tellsApart_of_quiet {facilitator : String}
    (configured : env "FACILITATOR_URL" = .ok facilitator)
    (quiet : ∀ e ∈ events, isTransportFailure e = false)
    (rejects : response.status = 402 → Rejects X env envelope events) :
    TellsApart X env envelope events response ↔ Reaches env events := by
  refine iff_of_true ⟨?_, rejects⟩ ⟨⟨facilitator, configured⟩, quiet⟩
  rintro ⟨e, member, failure⟩
  simp [quiet e member] at failure

theorem serve_error_not_payment {body : List UInt8} {e : Error}
    (refusal : serve X ⟨body⟩ = .error e) : (errorResponse e).status ≠ 402 := by
  rcases serve_error refusal with ⟨p, rfl⟩ | ⟨o, rfl⟩ | ⟨b, rfl⟩
  · simp [errorResponse, errorStatusAndBody]
  · simp [errorResponse, errorStatusAndBody]
  · simp [errorResponse, errorStatusAndBody]

/-- The answer to a payment tells a rejection from an unreachable facilitator exactly where the
facilitator is configured and no part of a post fails. -/
theorem tellsApart_iff (present : req.xPayment = .ok (some envelope))
    (run : Run (handleNtt X req env) events (.ok response)) :
    TellsApart X env envelope events response ↔ Reaches env events := by
  cases (run_handleNtt_iff present).mp run with
  | unconfigured missing =>
      apply iff_of_false
      · intro tells
        obtain ⟨facilitator, configured, -⟩ := tells.2 rfl
        cases missing.symm.trans configured
      · rintro ⟨⟨facilitator, configured⟩, -⟩
        cases missing.symm.trans configured
  | undecoded configured undecodable =>
      apply tellsApart_of_quiet configured
      · simp [responseBuilt, isTransportFailure]
      · exact fun _ => ⟨_, configured, .inr (.inr ⟨_, undecodable⟩)⟩
  | unreached configured built failure =>
      obtain ⟨e, member, fails⟩ := failure.fails
      exact tellsApart_of_failure ⟨e, List.mem_append_left _ member, fails⟩ rfl
  | @rejected facilitator payload reply e configured built rejection =>
      apply tellsApart_of_quiet configured
      · simp [posted, responseBuilt, isTransportFailure]
      · intro _
        refine ⟨_, configured, .inl ⟨payload, reply, e, ?_, rejection⟩⟩
        simp [posted, answered]
  | @verified facilitator payload verifyReply _ _ configured built acceptance answer =>
      cases answer with
      | refused received refusal =>
          apply tellsApart_of_quiet configured
          · simp [posted, bodyRead, responseBuilt, isTransportFailure]
          · exact fun status => absurd status (serve_error_not_payment refusal)
      | unreached received served failure =>
          obtain ⟨e, member, fails⟩ := failure.fails
          refine tellsApart_of_failure ⟨e, ?_, fails⟩ rfl
          simp [member]
      | @rejected body output reply e received served rejection =>
          apply tellsApart_of_quiet configured
          · simp [posted, bodyRead, responseBuilt, isTransportFailure]
          · intro _
            refine ⟨_, configured, .inr (.inl ⟨payload, reply, e, ?_, rejection⟩)⟩
            simp [posted, answered]
      | sold received served settled =>
          apply tellsApart_of_quiet configured
          · simp [posted, bodyRead, responseBuilt, isTransportFailure]
          · simp

end Transport

/-! ## Small answers -/

def pairVerify : PostRequest :=
  ⟨"https://www.x402.org/facilitator/verify",
    facilitatorBody pairPayload (buildRequirementsJson devnetEnv).asStr⟩

theorem build_pairVerify :
    buildVerifyBody referenceCrates ⟨pairHeader⟩ (buildRequirementsJson devnetEnv) =
      .ok pairVerify.body :=
  (buildVerifyBody_ok_iff _).mpr ⟨pairPayload, decode_pairHeader, rfl⟩

theorem range_one : 1 ≤ (1 : UInt8) ∧ (1 : UInt8) ≤ 30 := by decide

/-- One coefficient where two are due. -/
def shortPost : Request :=
  ⟨.ok (some pairHeader), .ok (utf8 (requestBody .Forward ⟨1, range_one⟩ [1]))⟩

def verifiedReply : String := "\x7b\"isValid\":true\x7d"

def shortError : Error :=
  .backend (.simulatorFailed "expected 2 coefficients, got 1")

theorem serve_shortPost :
    serve referenceCrates ⟨utf8 (requestBody .Forward ⟨1, by decide⟩ [1])⟩ =
      .error shortError := by
  have read := referenceCrates_acceptsJson _ _ (renders_requestBody .Forward ⟨1, by decide⟩ [1])
    (isReadable_requestMembers .Forward ⟨1, by decide⟩ [1])
  have parsed := (parseRequest_ok_iff referenceCrates).mpr
    ⟨_, read, asks_requestMembers .Forward ⟨1, by decide⟩ [1]⟩
  rw [serve_of_parsed referenceCrates parsed]
  rfl

theorem run_shortPost :
    Run (handleNtt referenceCrates shortPost devnetEnv)
      (posted pairVerify verifiedReply ++ [bodyRead, responseBuilt 500])
      (.ok (errorResponse shortError)) :=
  (run_handleNtt_iff rfl).mpr
    (.verified devnet_configured build_pairVerify rfl (.refused rfl serve_shortPost))

theorem shortPost_not_blamed :
    ¬∀ events response, Run (handleNtt referenceCrates shortPost devnetEnv) events (.ok response) →
      Verified devnetEnv events → BlamesClient referenceCrates shortPost response := by
  intro blames
  have blamed := blames _ _ run_shortPost ⟨_, _, _, _, rfl, rfl, rfl⟩
  exact blamed.1 rfl

theorem blamesClient_iff_short :
    BlamesClient referenceCrates shortPost (errorResponse shortError) ↔
      ∀ body v asked, shortPost.body = .ok body → Reads referenceCrates body v → Asks v asked →
        asked.degreeLog2.get ≤ 12 →
        asked.coefficients.length = 2 ^ asked.degreeLog2.get.toNat ∧ asked.field = .Goldilocks :=
  blamesClient_iff referenceCrates_readsJson referenceGoldilocks_exact rfl run_shortPost
    ⟨_, _, _, _, rfl, rfl, rfl⟩

def unsentVerify : List (Event host) :=
  [⟨.newRequest pairVerify, .ok ()⟩, ⟨.send pairVerify, .error "Network connection lost."⟩,
    responseBuilt 402]

def unsentError : Error := .settlement (.transport "Network connection lost.")

theorem run_unsentVerify :
    Run (handleNtt referenceCrates pairPost devnetEnv) unsentVerify
      (.ok (errorResponse unsentError)) :=
  (run_handleNtt_iff rfl).mpr (.unreached devnet_configured build_pairVerify (.sent _))

/-- The first call of the run never reaches the facilitator. -/
theorem unsent_verify_rejected :
    ¬∀ events response, Run (handleNtt referenceCrates pairPost devnetEnv) events (.ok response) →
      TellsApart referenceCrates devnetEnv pairHeader events response := by
  intro tells
  have told := (tells _ _ run_unsentVerify).1 (by decide)
  simp [errorResponse, errorStatusAndBody, unsentError] at told

def pairSettle : PostRequest :=
  ⟨"https://www.x402.org/facilitator/settle",
    facilitatorBody pairPayload (buildRequirementsJson devnetEnv).asStr⟩

def declinedReply : String := "\x7b\"success\":false,\"errorReason\":\"insufficient_funds\"\x7d"

def declinedSettle : List (Event host) :=
  posted pairVerify verifiedReply ++
    bodyRead :: (posted pairSettle declinedReply ++ [responseBuilt 402])

def declinedError : Error := .settlement (.settleRejected declinedReply)

theorem run_declinedSettle :
    Run (handleNtt referenceCrates pairPost devnetEnv) declinedSettle
      (.ok (errorResponse declinedError)) := by
  obtain ⟨output, served⟩ := serve_pairBody
  have rejection : parseSettleResponse referenceCrates declinedReply = .error declinedError := rfl
  have answer : VerifiedAnswer referenceCrates pairPost pairSettle _
      (errorResponse declinedError) :=
    .rejected rfl served rejection
  exact (run_handleNtt_iff rfl).mpr (.verified devnet_configured build_pairVerify rfl answer)

/-- Both a payment that the facilitator declines to settle and one that never reaches it are
answered with 402. -/
theorem tellsApart_iff_pair :
    (errorResponse declinedError).status = 402 ∧
    TellsApart referenceCrates devnetEnv pairHeader declinedSettle (errorResponse declinedError) ∧
    (errorResponse unsentError).status = 402 ∧
    ¬TellsApart referenceCrates devnetEnv pairHeader unsentVerify (errorResponse unsentError) := by
  have reached : Reaches devnetEnv declinedSettle := ⟨⟨_, devnet_configured⟩, by decide⟩
  have unreached : ¬Reaches devnetEnv unsentVerify := by
    rintro ⟨-, quiet⟩
    exact absurd quiet (by decide)
  exact ⟨rfl, (tellsApart_iff rfl run_declinedSettle).mpr reached, rfl,
    mt (tellsApart_iff rfl run_unsentVerify).mp unreached⟩

end NttX402.Proof
