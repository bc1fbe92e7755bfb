import NttX402.Worker.Edge
import NttX402.Proof.FacilitatorBody
import NttX402.Proof.FacilitatorReplies
import NttX402.Proof.Serve

namespace NttX402.Proof
open Worker Library

/-! ## Events -/

/-- A call to the facilitator that is answered with `reply`. -/
def posted (request : PostRequest) (reply : String) : List (Event host) :=
  [⟨.newRequest request, .ok ()⟩, ⟨.send request, .ok ()⟩, ⟨.text request, .ok reply⟩]

def bodyRead : Event host := ⟨.bytes, ()⟩

def responseBuilt (status : Nat) : Event host := ⟨.newResponse status, .ok ()⟩

def isCallTo (url : String) : HostOp → Bool
  | .send request => request.url = url
  | _ => false

/-- The number of HTTP calls to `url`, whatever came back. -/
def callsTo (url : String) (events : List (Event host)) : Nat :=
  events.countP fun e => isCallTo url e.op

@[simp] theorem callsTo_nil (url : String) : callsTo url [] = 0 := rfl

@[simp] theorem callsTo_cons (url : String) (e : Event host) (events : List (Event host)) :
    callsTo url (e :: events) = callsTo url events + if isCallTo url e.op then 1 else 0 :=
  List.countP_cons

@[simp] theorem callsTo_append (url : String) (first second : List (Event host)) :
    callsTo url (first ++ second) = callsTo url first + callsTo url second :=
  List.countP_append

theorem verify_ne_settle (facilitator : String) :
    facilitator ++ "/verify" ≠ facilitator ++ "/settle" := by
  simp

/-! ## Calls to the facilitator -/

theorem postJson_obeys (url body : String) :
    Obeys (postJson url body)
      (fun events => ∀ other, callsTo other events ≤ if url = other then 1 else 0)
      (fun events result => (∀ other, callsTo other events ≤ if url = other then 1 else 0) ∧
        ∀ reply, result = .ok reply → events = posted ⟨url, body⟩ reply) := by
  simp only [postJson, newRequest_bind, send_bind, text_bind]
  refine .call (by simp) fun built => ?_
  cases built with
  | error e => exact .done (by simp [isCallTo]) (by simp [isCallTo])
  | ok _ =>
      refine .call (by simp [isCallTo]) fun sent => ?_
      cases sent with
      | error e => exact .done (by simp [isCallTo]) (by simp [isCallTo])
      | ok _ =>
          refine .call (by simp [isCallTo]) fun read =>
            .done (by simp [isCallTo]) ⟨by simp [isCallTo], ?_⟩
          intro reply accepted
          cases read with
          | error e => cases accepted
          | ok text =>
              cases accepted
              rfl

theorem exchange_obeys {α : Type} (url body : String) (parse : String → Except Error α) :
    Obeys (postJson url body >>= fun reply => pure (reply >>= parse))
      (fun events => ∀ other, callsTo other events ≤ if url = other then 1 else 0)
      (fun events result => (∀ other, callsTo other events ≤ if url = other then 1 else 0) ∧
        ∀ a, result = .ok a →
          ∃ reply, parse reply = .ok a ∧ events = posted ⟨url, body⟩ reply) := by
  refine .bind (postJson_obeys url body) fun events reply posts => ?_
  refine .done (by simpa using posts.1) ⟨by simpa using posts.1, fun a accepted => ?_⟩
  cases reply with
  | error e => cases accepted
  | ok text => exact ⟨text, accepted, by simpa using posts.2 text rfl⟩

section Calls
variable (X : Crates) (facilitator : FacilitatorUrl) (envelope : PaymentEnvelope)
  (requirements : PaymentRequirementsJson)

theorem verifyAsync_obeys :
    Obeys (verifyAsync X facilitator envelope requirements)
      (fun events => callsTo (facilitator.asStr ++ "/settle") events = 0)
      (fun events result => callsTo (facilitator.asStr ++ "/settle") events = 0 ∧
        (result = .ok () → ∃ body reply, buildVerifyBody X envelope requirements = .ok body ∧
          parseVerifyResponse reply = .ok () ∧
          events = posted ⟨facilitator.asStr ++ "/verify", body⟩ reply)) := by
  unfold verifyAsync
  cases built : buildVerifyBody X envelope requirements with
  | error e => exact .done rfl ⟨rfl, by simp⟩
  | ok body =>
      have elsewhere (events : List (Event host)) (calls : ∀ other, callsTo other events ≤
          if facilitator.asStr ++ "/verify" = other then 1 else 0) :
          callsTo (facilitator.asStr ++ "/settle") events = 0 := by
        simpa [verify_ne_settle] using calls (facilitator.asStr ++ "/settle")
      apply (exchange_obeys (facilitator.asStr ++ "/verify") body parseVerifyResponse).weaken
        elsewhere
      intro events result exchanged
      refine ⟨elsewhere events exchanged.1, fun accepted => ?_⟩
      obtain ⟨reply, parsed, posts⟩ := exchanged.2 () accepted
      exact ⟨body, reply, rfl, parsed, posts⟩

theorem settleAsync_obeys :
    Obeys (settleAsync X facilitator envelope requirements)
      (fun events => callsTo (facilitator.asStr ++ "/settle") events ≤ 1)
      (fun events result => callsTo (facilitator.asStr ++ "/settle") events ≤ 1 ∧
        ∀ tx, result = .ok tx → ∃ body reply, buildSettleBody X envelope requirements = .ok body ∧
          parseSettleResponse X reply = .ok tx ∧
          events = posted ⟨facilitator.asStr ++ "/settle", body⟩ reply) := by
  unfold settleAsync
  cases built : buildSettleBody X envelope requirements with
  | error e => exact .done (by simp) ⟨by simp, by simp⟩
  | ok body =>
      have once (events : List (Event host)) (calls : ∀ other, callsTo other events ≤
          if facilitator.asStr ++ "/settle" = other then 1 else 0) :
          callsTo (facilitator.asStr ++ "/settle") events ≤ 1 := by
        simpa using calls (facilitator.asStr ++ "/settle")
      apply (exchange_obeys (facilitator.asStr ++ "/settle") body (parseSettleResponse X)).weaken
        once
      intro events result exchanged
      refine ⟨once events exchanged.1, fun tx accepted => ?_⟩
      obtain ⟨reply, parsed, posts⟩ := exchanged.2 tx accepted
      exact ⟨body, reply, rfl, parsed, posts⟩

end Calls

/-! ## Responses -/

def IsErrorStatus (status : Nat) : Prop := 400 ≤ status ∧ status ≤ 599

theorem errorStatusAndBody_status (e : Error) : IsErrorStatus (errorStatusAndBody e).1 := by
  cases e <;> simp [errorStatusAndBody, IsErrorStatus]

def Failed : WorkerResult → Prop
  | .error _ => True
  | .ok response => IsErrorStatus response.status

theorem respond_obeys (status : Nat) (headers : List (String × String)) (body : List UInt8) :
    Obeys (respond status headers body) (fun events => ∀ url, callsTo url events = 0)
      (fun events result => (∀ url, callsTo url events = 0) ∧
        ∀ response, result = .ok response →
          events = [responseBuilt status] ∧ response = ⟨status, headers, body⟩) := by
  rw [respond, newResponse_bind]
  refine .call (by simp) fun built => .done (by simp [isCallTo]) ⟨by simp [isCallTo], ?_⟩
  intro response accepted
  cases built with
  | error e => cases accepted
  | ok _ =>
      cases accepted
      exact ⟨rfl, rfl⟩

theorem domainErrorResponse_obeys (e : Error) :
    Obeys (domainErrorResponse e) (fun events => ∀ url, callsTo url events = 0)
      (fun events result => (∀ url, callsTo url events = 0) ∧ Failed result) := by
  refine (respond_obeys _ _ _).weaken (fun _ => id) fun events result responds => ⟨responds.1, ?_⟩
  cases result with
  | error text => trivial
  | ok response =>
      rw [(responds.2 response rfl).2]
      exact errorStatusAndBody_status e

/-! ## Charging -/

section Charging
variable (X : Crates) (req : Request)

def Accepted : Prop :=
  ∃ body response, req.body = .ok body ∧ serve X ⟨body⟩ = .ok response

/-- At most one call to `settle`, and only of an accepted body that was read before. -/
def ChargedInOrder (settle : String) (events : List (Event host)) : Prop :=
  callsTo settle events ≤ 1 ∧
    ∀ before e later, events = before ++ e :: later → isCallTo settle e.op = true →
      bodyRead ∈ before ∧ Accepted X req

variable {X req} {settle : String} {events : List (Event host)}

theorem not_call_of_silent (silent : callsTo settle events = 0) {e : Event host}
    (member : e ∈ events) : isCallTo settle e.op = false := by
  simpa using List.countP_eq_zero.mp silent e member

theorem ChargedInOrder.of_silent (silent : callsTo settle events = 0) :
    ChargedInOrder X req settle events := by
  refine ⟨by omega, ?_⟩
  rintro before e later rfl call
  simp [not_call_of_silent silent (e := e) (by simp)] at call

theorem ChargedInOrder.append {first second : List (Event host)}
    (silent : callsTo settle first = 0) (charged : ChargedInOrder X req settle second) :
    ChargedInOrder X req settle (first ++ second) := by
  refine ⟨by simpa [silent] using charged.1, ?_⟩
  intro before e later split call
  rcases List.append_eq_append_iff.mp split with ⟨middle, rfl, rest⟩ | ⟨middle, rfl, rest⟩
  · obtain ⟨read, accepted⟩ := charged.2 middle e later rest call
    exact ⟨by simp [read], accepted⟩
  · cases middle with
    | nil =>
        obtain ⟨read, accepted⟩ := charged.2 [] e later rest.symm call
        cases read
    | cons e' middle =>
        obtain ⟨rfl, -⟩ := List.cons.inj rest
        simp [not_call_of_silent silent (e := e) (by simp)] at call

theorem ChargedInOrder.serving (accepted : Accepted X req) (once : callsTo settle events ≤ 1) :
    ChargedInOrder X req settle (bodyRead :: events) := by
  refine ⟨by simpa [bodyRead, isCallTo] using once, ?_⟩
  intro before e later split call
  cases before with
  | nil =>
      obtain ⟨rfl, -⟩ := List.cons.inj split
      cases call
  | cons e' before =>
      obtain ⟨rfl, -⟩ := List.cons.inj split
      exact ⟨by simp, accepted⟩

end Charging

/-! ## Paid runs -/

/-- A request that is answered with a transform: what was sent and received on the way. -/
structure Sale (X : Crates) (req : Request) (env : Env) where
  envelope : String
  present : req.xPayment = .ok (some envelope)
  facilitator : String
  configured : env "FACILITATOR_URL" = .ok facilitator
  payload : String
  verifyBody : buildVerifyBody X ⟨envelope⟩ (buildRequirementsJson env) = .ok payload
  settleBody : buildSettleBody X ⟨envelope⟩ (buildRequirementsJson env) = .ok payload
  verifyReply : String
  verified : parseVerifyResponse verifyReply = .ok ()
  body : List UInt8
  received : req.body = .ok body
  output : ResponseBytes
  served : serve X ⟨body⟩ = .ok output
  settleReply : String
  tx : PaymentTxHash
  settled : parseSettleResponse X settleReply = .ok tx

namespace Sale
variable {X : Crates} {req : Request} {env : Env} (sale : Sale X req env)

def events : List (Event host) :=
  posted ⟨sale.facilitator ++ "/verify", sale.payload⟩ sale.verifyReply ++
    bodyRead :: (posted ⟨sale.facilitator ++ "/settle", sale.payload⟩ sale.settleReply ++
      [responseBuilt 200])

def response : Response :=
  ⟨200, paymentResponseHeaders (paymentResponseValue X sale.tx), sale.output.asSlice⟩

theorem exists_payload : ∃ payload, X.base64Decode (utf8 sale.envelope) = .ok (utf8 payload) ∧
    facilitatorBody payload (buildRequirementsJson env).asStr = sale.payload :=
  (buildVerifyBody_ok_iff X).mp sale.verifyBody

end Sale

section Paid
variable (X : Crates) (req : Request)

theorem afterVerify_obeys (facilitator : FacilitatorUrl) (envelope : PaymentEnvelope)
    (requirements : PaymentRequirementsJson) :
    Obeys (afterVerify X req facilitator envelope requirements)
      (ChargedInOrder X req (facilitator.asStr ++ "/settle"))
      (fun events result => Failed result ∨
        ∃ body output payload reply tx, req.body = .ok body ∧ serve X ⟨body⟩ = .ok output ∧
          buildSettleBody X envelope requirements = .ok payload ∧
          parseSettleResponse X reply = .ok tx ∧
          result = .ok ⟨200, paymentResponseHeaders (paymentResponseValue X tx), output.asSlice⟩ ∧
          events = bodyRead :: (posted ⟨facilitator.asStr ++ "/settle", payload⟩ reply ++
            [responseBuilt 200])) := by
  rw [afterVerify, awaitBytes_bind]
  refine .call (.of_silent rfl) fun _ => ?_
  have read (rest : List (Event host)) :
      callsTo (facilitator.asStr ++ "/settle") rest = 0 →
        ChargedInOrder X req (facilitator.asStr ++ "/settle") (bodyRead :: rest) :=
    fun silent => .of_silent (by simpa [bodyRead, isCallTo] using silent)
  cases received : req.body with
  | error e => exact .done (read [] rfl) (.inl trivial)
  | ok body =>
      cases served : serve X ⟨body⟩ with
      | error e =>
          simp only [served]
          exact (domainErrorResponse_obeys e).weaken (fun events silent => read events (silent _))
            fun events result failed => .inl failed.2
      | ok output =>
          have accepted : Accepted X req := ⟨body, output, received, served⟩
          simp only [served]
          refine .bind ((settleAsync_obeys X facilitator envelope requirements).weaken
            (fun _ => .serving accepted) fun _ _ => id) fun first settled settles => ?_
          have charged (second : List (Event host)) (silent : ∀ url, callsTo url second = 0) :
              ChargedInOrder X req (facilitator.asStr ++ "/settle")
                (bodyRead :: (first ++ second)) :=
            .serving accepted (by simpa [silent] using settles.1)
          cases settled with
          | error e =>
              exact (domainErrorResponse_obeys e).weaken charged
                fun events result failed => .inl failed.2
          | ok tx =>
              refine (respond_obeys 200 _ _).weaken charged fun second result responds => ?_
              cases result with
              | error text => exact .inl trivial
              | ok response =>
                  obtain ⟨rfl, rfl⟩ := responds.2 response rfl
                  obtain ⟨payload, reply, built, parsed, rfl⟩ := settles.2 tx rfl
                  exact .inr ⟨body, output, payload, reply, tx, rfl, served, built, parsed, rfl,
                    rfl⟩

theorem settleAndServe_obeys {envelope : String} (present : req.xPayment = .ok (some envelope))
    (env : Env) :
    Obeys (settleAndServe X req env envelope)
      (fun events => ∀ facilitator, env "FACILITATOR_URL" = .ok facilitator →
        ChargedInOrder X req (facilitator ++ "/settle") events)
      (fun events result => Failed result ∨
        ∃ sale : Sale X req env, events = sale.events ∧ result = .ok sale.response) := by
  simp only [settleAndServe, readSettlementConfig]
  cases configured : env "FACILITATOR_URL" with
  | error e =>
      exact (domainErrorResponse_obeys _).weaken
        (fun events silent _ _ => .of_silent (silent _))
        fun events result failed => .inl failed.2
  | ok facilitator =>
      have same (other : String) (equal : Except.ok (ε := String) facilitator = .ok other) :
          facilitator = other := Except.ok.inj equal
      refine .bind ((verifyAsync_obeys X ⟨facilitator⟩ ⟨envelope⟩
        (buildRequirementsJson env)).weaken
          (fun events silent other equal => same other equal ▸ .of_silent silent)
          fun _ _ => id) fun first verified verifies => ?_
      cases verified with
      | error e =>
          refine (domainErrorResponse_obeys e).weaken (fun second silent other equal => ?_)
            fun events result failed => .inl failed.2
          exact same other equal ▸ .append verifies.1 (.of_silent (silent _))
      | ok _ =>
          refine (afterVerify_obeys X req ⟨facilitator⟩ ⟨envelope⟩
            (buildRequirementsJson env)).weaken (fun second charged other equal => ?_)
              fun second result finished => ?_
          · exact same other equal ▸ .append verifies.1 charged
          · obtain ⟨payload, verifyReply, verifyBody, verified, rfl⟩ := verifies.2 rfl
            rcases finished with failed | ⟨body, output, payload', settleReply, tx, received,
              served, settleBody, settled, rfl, rfl⟩
            · exact .inl failed
            · have equal : payload = payload' := Except.ok.inj
                (verifyBody.symm.trans ((buildSettleBody_ok_iff_verify X).mp settleBody))
              subst equal
              exact .inr ⟨⟨envelope, present, facilitator, configured, payload, verifyBody,
                settleBody, verifyReply, verified, body, received, output, served,
                settleReply, tx, settled⟩, rfl, rfl⟩

theorem handleNtt_obeys (env : Env) :
    Obeys (handleNtt X req env)
      (fun events => ∀ facilitator, env "FACILITATOR_URL" = .ok facilitator →
        ChargedInOrder X req (facilitator ++ "/settle") events)
      (fun events result => Failed result ∨
        ∃ sale : Sale X req env, events = sale.events ∧ result = .ok sale.response) := by
  unfold handleNtt
  cases header : req.xPayment.toOption.join with
  | none =>
      refine (respond_obeys 402 _ _).weaken (fun events silent _ _ => .of_silent (silent _))
        fun events result responds => .inl ?_
      cases result with
      | error e => trivial
      | ok response =>
          obtain ⟨-, rfl⟩ := responds.2 response rfl
          simp [Failed, IsErrorStatus]
  | some envelope => exact settleAndServe_obeys X req (toOption_join_eq_some.mp header) env

end Paid

section Completeness
variable {X : Crates} {req : Request} {env : Env}

theorem run_postJson (url body reply : String) :
    Run (postJson url body) (posted ⟨url, body⟩ reply) (.ok reply) :=
  .call _ (.call _ (.call _ (.refl _)))

theorem run_respond (status : Nat) (headers : List (String × String)) (body : List UInt8) :
    Run (respond status headers body) [responseBuilt status] (.ok ⟨status, headers, body⟩) :=
  .call _ (.refl _)

theorem run_exchange {α : Type} (url body reply : String) (parse : String → Except Error α) :
    Run (postJson url body >>= fun reply => pure (reply >>= parse)) (posted ⟨url, body⟩ reply)
      (parse reply) := by
  have run := (run_postJson url body reply).bind
    (f := fun reply => pure (reply >>= parse)) (.refl _)
  rwa [List.append_nil] at run

theorem Sale.run_verifyAsync (sale : Sale X req env) :
    Run (verifyAsync X ⟨sale.facilitator⟩ ⟨sale.envelope⟩ (buildRequirementsJson env))
      (posted ⟨sale.facilitator ++ "/verify", sale.payload⟩ sale.verifyReply) (.ok ()) := by
  rw [verifyAsync, sale.verifyBody, ← sale.verified]
  exact run_exchange _ _ _ parseVerifyResponse

theorem Sale.run_settleAsync (sale : Sale X req env) :
    Run (settleAsync X ⟨sale.facilitator⟩ ⟨sale.envelope⟩ (buildRequirementsJson env))
      (posted ⟨sale.facilitator ++ "/settle", sale.payload⟩ sale.settleReply) (.ok sale.tx) := by
  rw [settleAsync, sale.settleBody, ← sale.settled]
  exact run_exchange _ _ _ (parseSettleResponse X)

theorem Sale.run (sale : Sale X req env) :
    Run (handleNtt X req env) sale.events (.ok sale.response) := by
  have header : req.xPayment.toOption.join = some sale.envelope := by rw [sale.present]; rfl
  have config : readSettlementConfig env =
      .ok (⟨sale.facilitator⟩, buildRequirementsJson env) := by
    simp only [readSettlementConfig, sale.configured]
  simp only [handleNtt, header, settleAndServe, config]
  refine sale.run_verifyAsync.bind ?_
  rw [afterVerify, awaitBytes_bind]
  refine .call _ ?_
  simp only [sale.received, sale.served]
  exact sale.run_settleAsync.bind (run_respond 200 _ _)

/-- Two requests with one header and accepted bodies differ only in the bytes of a sale. -/
theorem handleNtt_agree {other : Request} (header : other.xPayment = req.xPayment)
    (accepted : Accepted X req) (accepted' : Accepted X other) :
    Agree (fun result result' => result' = result ∨
        ∃ response response', result = .ok response ∧ response.status = 200 ∧
          result' = .ok response' ∧ response'.status = 200)
      (handleNtt X req env) (handleNtt X other env) := by
  obtain ⟨body, output, received, served⟩ := accepted
  obtain ⟨body', output', received', served'⟩ := accepted'
  have same (p : Host WorkerResult) : Agree (fun result result' => result' = result ∨
      ∃ response response', result = .ok response ∧ response.status = 200 ∧
        result' = .ok response' ∧ response'.status = 200) p p := .refl (fun _ => .inl rfl) p
  unfold handleNtt
  rw [header]
  cases req.xPayment.toOption.join with
  | none => exact same _
  | some envelope =>
      simp only [settleAndServe]
      cases readSettlementConfig env with
      | error e => exact same _
      | ok config =>
          refine .bind (.refl (R := Eq) (fun _ => rfl) _) ?_
          rintro verified _ rfl
          cases verified with
          | error e => exact same _
          | ok _ =>
              simp only [afterVerify, awaitBytes_bind, received, received', served, served']
              refine .call fun _ => .bind (.refl (R := Eq) (fun _ => rfl) _) ?_
              rintro settled _ rfl
              cases settled with
              | error e => exact same _
              | ok tx =>
                  simp only [respond, newResponse_bind]
                  refine .call fun built => .done ?_
                  cases built with
                  | error e => exact .inl rfl
                  | ok _ => exact .inr ⟨_, _, rfl, rfl, rfl, rfl⟩

end Completeness

theorem sale_of_run {X : Crates} {req : Request} {env : Env} {events : List (Event host)}
    {response : Response} (run : Run (handleNtt X req env) events (.ok response))
    (ok : response.status = 200) :
    ∃ sale : Sale X req env, events = sale.events ∧ response = sale.response := by
  rcases (handleNtt_obeys X req env).post events _ run with failed | ⟨sale, rfl, equal⟩
  · exact absurd failed.1 (by omega)
  · exact ⟨sale, rfl, Except.ok.inj equal⟩

/-! ## The result -/

/-- A transform is released exactly at the end of a sale; the facilitator is asked to settle at
most once, after `serve` has accepted the body; and every other outcome is an error that does not
depend on what `serve` computed. -/
theorem handleNtt_sells (X : Crates) (req : Request) (env : Env) :
    (∀ events response, Run (handleNtt X req env) events (.ok response) ∧ response.status = 200 ↔
      ∃ sale : Sale X req env, events = sale.events ∧ response = sale.response) ∧
    (∀ events rest, Steps (handleNtt X req env) events rest →
      ∀ facilitator, env "FACILITATOR_URL" = .ok facilitator →
        ChargedInOrder X req (facilitator ++ "/settle") events) ∧
    (∀ events result, Run (handleNtt X req env) events result →
      Failed result ∨ ∃ response, result = .ok response ∧ response.status = 200) ∧
    (∀ other : Request, other.xPayment = req.xPayment → Accepted X req → Accepted X other →
      ∀ events result, Run (handleNtt X req env) events result →
        ∃ result', Run (handleNtt X other env) events result' ∧
          (Failed result → result' = result)) := by
  have obeys := handleNtt_obeys X req env
  refine ⟨fun events response => ⟨?_, ?_⟩, obeys.during, ?_, ?_⟩
  · rintro ⟨run, ok⟩
    exact sale_of_run run ok
  · rintro ⟨sale, rfl, rfl⟩
    exact ⟨sale.run, rfl⟩
  · intro events result run
    rcases obeys.post events result run with failed | ⟨sale, rfl, rfl⟩
    · exact .inl failed
    · exact .inr ⟨_, rfl, rfl⟩
  · intro other header accepted accepted' events result run
    obtain ⟨result', run', related⟩ := (handleNtt_agree header accepted accepted').run run
    refine ⟨result', run', fun failed => ?_⟩
    rcases related with same | ⟨response, response', rfl, ok, -, -⟩
    · exact same
    · exact absurd failed.1 (by omega)

/-! ## A small sale -/

def devnetEnv : Env
  | "FACILITATOR_URL" => .ok "https://www.x402.org/facilitator"
  | "SOLANA_CLUSTER" => .ok "devnet"
  | "SELLER_PUBKEY" => .ok "6zP7sAnE1X6MuRcxPR7KQuABfTJTxacEGFvJ9LMtECY"
  | "USDC_MINT" => .ok "4zMMC9srt5Ri5X14GAgXhaHii3GnPAEERYPJgZJDncDU"
  | "FACILITATOR_FEE_PAYER" => .ok "CKPKJWNdJEqa81x7CkZ14BVPiY6y16Sxs7owznqtWYp5"
  | name => .error s!"Binding {name} is undefined."

theorem devnet_configured :
    devnetEnv "FACILITATOR_URL" = .ok "https://www.x402.org/facilitator" := rfl

def pairPayload : String := "\x7b\"x402Version\":1,\"scheme\":\"exact\"\x7d"

def pairHeader : String := "eyJ4NDAyVmVyc2lvbiI6MSwic2NoZW1lIjoiZXhhY3QifQ=="

def pairPost : Request := ⟨.ok (some pairHeader), .ok (utf8 pairBody)⟩

set_option maxRecDepth 2000 in
theorem decode_pairHeader :
    referenceCrates.base64Decode (utf8 pairHeader) = .ok (utf8 pairPayload) := by
  decide

def pairSale (output : ResponseBytes)
    (served : serve referenceCrates ⟨utf8 pairBody⟩ = .ok output) :
    Sale referenceCrates pairPost devnetEnv where
  envelope := pairHeader
  present := rfl
  facilitator := "https://www.x402.org/facilitator"
  configured := devnet_configured
  payload := facilitatorBody pairPayload (buildRequirementsJson devnetEnv).asStr
  verifyBody := (buildVerifyBody_ok_iff _).mpr ⟨pairPayload, decode_pairHeader, rfl⟩
  settleBody := (buildSettleBody_ok_iff _).mpr ⟨pairPayload, decode_pairHeader, rfl⟩
  verifyReply := "\x7b\"isValid\":true,\"invalidReason\":null\x7d"
  verified := rfl
  body := utf8 pairBody
  received := rfl
  output := output
  served := served
  settleReply := settledText
  tx := zeroTx
  settled := parseSettleResponse_settledText

end NttX402.Proof
