import NttX402.Library.Milestones
import NttX402.Proof.Dispatch
import NttX402.Proof.Payments

namespace NttX402.Proof
open Worker Library

/-! ## The milestones of a paid request -/

/-- `passed` and `accepted` are what the worker makes of the replies: `parse_verify_response` and
`parse_settle_response` succeed on them. -/
inductive Milestone
  | asked | passed | read | charged | accepted | delivered
  deriving DecidableEq

open Milestone

def pipeline : List Milestone := [asked, passed, read, charged, accepted, delivered]

def milestone (X : Crates) (facilitator : String) : Event host → Option Milestone
  | ⟨.send request, _⟩ =>
      if request.url = facilitator ++ "/verify" then some asked
      else if request.url = facilitator ++ "/settle" then some charged
      else none
  | ⟨.text request, .ok reply⟩ =>
      if request.url = facilitator ++ "/verify" then
        if (parseVerifyResponse reply).isOk then some passed else none
      else if request.url = facilitator ++ "/settle" then
        if (parseSettleResponse X reply).isOk then some accepted else none
      else none
  | ⟨.bytes, _⟩ => some read
  | ⟨.newResponse status, .ok ()⟩ => if status = 200 then some delivered else none
  | _ => none

section Exchange
variable {mark : Event host → Option Milestone} {α : Type} {url body : String}
  {parse : String → Except Error α} {sent last : Milestone}

theorem postJson_reaches (builds : ∀ reply, mark ⟨.newRequest ⟨url, body⟩, reply⟩ = none)
    (sends : ∀ reply, mark ⟨.send ⟨url, body⟩, reply⟩ = some sent)
    (fails : ∀ detail, mark ⟨.text ⟨url, body⟩, .error detail⟩ = none)
    (reads : ∀ reply, mark ⟨.text ⟨url, body⟩, .ok reply⟩ =
      if (parse reply).isOk then some last else none) :
    Reaches mark [sent, last] (postJson url body)
      fun ms result => ms = [sent, last] ↔ (result >>= parse).isOk = true := by
  simp only [postJson, newRequest_bind, send_bind, text_bind]
  refine .pass builds fun built => ?_
  cases built with
  | error e => exact .done (by simp [Except.isOk, Except.toBool, bind, Except.bind])
  | ok _ =>
      refine .reach sends fun reply => ?_
      cases reply with
      | error e => exact .done (by simp [Except.isOk, Except.toBool, bind, Except.bind])
      | ok _ =>
          refine .last fun reply => ?_
          cases reply with
          | error detail =>
              exact .inl ⟨fails detail, by
                simp [Except.mapError, Except.isOk, Except.toBool, bind, Except.bind]⟩
          | ok text =>
              rw [reads]
              cases acceptable : (parse text).isOk with
              | false => exact .inl ⟨rfl, by simp [Except.mapError, acceptable, bind, Except.bind]⟩
              | true => exact .inr ⟨rfl, by simp [Except.mapError, acceptable, bind, Except.bind]⟩

theorem exchange_reaches (builds : ∀ reply, mark ⟨.newRequest ⟨url, body⟩, reply⟩ = none)
    (sends : ∀ reply, mark ⟨.send ⟨url, body⟩, reply⟩ = some sent)
    (fails : ∀ detail, mark ⟨.text ⟨url, body⟩, .error detail⟩ = none)
    (reads : ∀ reply, mark ⟨.text ⟨url, body⟩, .ok reply⟩ =
      if (parse reply).isOk then some last else none) :
    Reaches mark [sent, last] (postJson url body >>= fun reply => pure (reply >>= parse))
      fun ms result => ms = [sent, last] ↔ result.isOk = true := by
  refine (postJson_reaches builds sends fails reads).bind List.prefix_rfl fun ms reply fits holds =>
    ⟨[], by rwa [List.append_nil], .done ?_⟩
  rwa [List.append_nil]

end Exchange

section Paid
variable (X : Crates) (facilitator : String)

theorem verifyExchange_reaches (body : String) :
    Reaches (milestone X facilitator) [asked, passed]
      (postJson (facilitator ++ "/verify") body >>= fun reply =>
        pure (reply >>= parseVerifyResponse))
      fun ms result => ms = [asked, passed] ↔ result.isOk = true := by
  apply exchange_reaches
  · intro reply
    rfl
  · intro reply
    simp [milestone]
  · intro detail
    rfl
  · intro reply
    simp [milestone]

theorem settleExchange_reaches (body : String) :
    Reaches (milestone X facilitator) [charged, accepted]
      (postJson (facilitator ++ "/settle") body >>= fun reply =>
        pure (reply >>= parseSettleResponse X))
      fun ms result => ms = [charged, accepted] ↔ result.isOk = true := by
  apply exchange_reaches
  · intro reply
    rfl
  · intro reply
    simp [milestone]
  · intro detail
    rfl
  · intro reply
    simp [milestone]

/-- A response of 200 comes with an accepted settlement reply, and nothing else does. -/
def AcceptedIfSold (ms : List Milestone) (result : WorkerResult) : Prop :=
  ∀ response, result = .ok response →
    (response.status = 200 ↔ accepted ∈ ms) ∧ (response.status = 200 ↔ delivered ∈ ms)

theorem respond_reaches {status : Nat} {headers : List (String × String)} {body : List UInt8}
    (other : status ≠ 200) {before : List Milestone}
    (unsold : accepted ∉ before ∧ delivered ∉ before) :
    Reaches (milestone X facilitator) [] (respond status headers body)
      fun ms result => AcceptedIfSold (before ++ ms) result := by
  rw [respond, newResponse_bind]
  refine .pass (fun reply => ?_) fun reply => .done ?_
  · cases reply with
    | error detail => rfl
    | ok _ => simp [milestone, other]
  · intro response built
    cases reply with
    | error detail => cases built
    | ok _ =>
        obtain rfl := Except.ok.inj built
        simp [other, unsold]

theorem refusal_reaches (e : Error) {before : List Milestone}
    (unsold : accepted ∉ before ∧ delivered ∉ before) :
    Reaches (milestone X facilitator) [] (domainErrorResponse e)
      fun ms result => AcceptedIfSold (before ++ ms) result := by
  have status := errorStatusAndBody_status e
  have other : (errorStatusAndBody e).1 ≠ 200 := by
    rw [IsErrorStatus] at status
    omega
  exact respond_reaches X facilitator other unsold

theorem delivery_reaches {headers : List (String × String)} {body : List UInt8}
    {before : List Milestone} (sold : accepted ∈ before) :
    Reaches (milestone X facilitator) [delivered] (respond 200 headers body)
      fun ms result => AcceptedIfSold (before ++ ms) result := by
  rw [respond, newResponse_bind]
  refine .last fun reply => ?_
  cases reply with
  | error detail =>
      refine .inl ⟨rfl, fun response built => ?_⟩
      cases built
  | ok _ =>
      refine .inr ⟨rfl, fun response built => ?_⟩
      obtain rfl := Except.ok.inj built
      simp [sold]

/-- An exchange that fails stops short of its last milestone. -/
theorem short_of_failed {α : Type} {sent last : Milestone} {ms : List Milestone}
    {result : Except Error α} (fits : ms <+: [sent, last])
    (holds : ms = [sent, last] ↔ result.isOk = true) (failed : result.isOk = false) :
    ms <+: [sent] := by
  have short : ms ≠ [sent] ++ [last] := fun whole => by
    simp [holds.mp whole] at failed
  exact (List.prefix_concat_iff.mp fits).resolve_left short

theorem unsold_of_short (before : List Milestone) {ms : List Milestone} {sent : Milestone}
    (short : ms <+: [sent]) (unsold : accepted ∉ before ++ [sent] ∧ delivered ∉ before ++ [sent]) :
    accepted ∉ before ++ ms ∧ delivered ∉ before ++ ms := by
  have inside : before ++ ms ⊆ before ++ [sent] :=
    ((List.prefix_append_right_inj before).mpr short).subset
  exact ⟨fun member => unsold.1 (inside member), fun member => unsold.2 (inside member)⟩

theorem afterVerify_reaches (req : Request) (envelope : PaymentEnvelope)
    (requirements : PaymentRequirementsJson) :
    Reaches (milestone X facilitator) [read, charged, accepted, delivered]
      (afterVerify X req ⟨facilitator⟩ envelope requirements)
      fun ms result => AcceptedIfSold ([asked, passed] ++ ms) result := by
  rw [afterVerify, awaitBytes_bind]
  refine .reach (fun _ => rfl) fun _ => ?_
  have refuse (e : Error) : Reaches (milestone X facilitator) [charged, accepted, delivered]
      (domainErrorResponse e)
      fun ms result => AcceptedIfSold ([asked, passed] ++ read :: ms) result := by
    have unsold : accepted ∉ [asked, passed, read] ∧ delivered ∉ [asked, passed, read] := by simp
    exact (refusal_reaches X facilitator e unsold).weaken List.nil_prefix fun _ _ _ => id
  cases received : req.body with
  | error detail =>
      refine .done fun response built => ?_
      cases built
  | ok body =>
      cases served : serve X ⟨body⟩ with
      | error e =>
          simp only [served]
          exact refuse e
      | ok output =>
          simp only [served, settleAsync]
          cases built : buildSettleBody X envelope requirements with
          | error e => exact refuse e
          | ok payload =>
              refine (settleExchange_reaches X facilitator payload).bind (by simp)
                fun ms outcome fits holds => ?_
              cases outcome with
              | error e =>
                  have short := short_of_failed fits holds rfl
                  have unsold := unsold_of_short [asked, passed, read] short (by simp)
                  refine ⟨[], ?_, ?_⟩
                  · simpa using short.trans (by simp)
                  · simpa using refusal_reaches X facilitator e unsold
              | ok tx =>
                  obtain rfl := holds.mpr rfl
                  have sold : accepted ∈ [asked, passed, read, charged, accepted] := by simp
                  exact ⟨[delivered], List.prefix_rfl, delivery_reaches X facilitator sold⟩

theorem handleNtt_reaches (req : Request) {env : Env}
    (configured : env "FACILITATOR_URL" = .ok facilitator) :
    Reaches (milestone X facilitator) pipeline (handleNtt X req env) AcceptedIfSold := by
  have unsold : accepted ∉ ([] : List Milestone) ∧ delivered ∉ ([] : List Milestone) := by simp
  unfold handleNtt
  cases req.xPayment.toOption.join with
  | none =>
      exact (respond_reaches X facilitator (by decide) unsold).weaken List.nil_prefix
        fun _ _ _ => id
  | some envelope =>
      simp only [settleAndServe, readSettlementConfig, configured, verifyAsync]
      cases built : buildVerifyBody X ⟨envelope⟩ (buildRequirementsJson env) with
      | error e =>
          exact (refusal_reaches X facilitator e unsold).weaken List.nil_prefix fun _ _ _ => id
      | ok payload =>
          refine (verifyExchange_reaches X facilitator payload).bind (by simp [pipeline])
            fun ms outcome fits holds => ?_
          cases outcome with
          | error e =>
              have short := short_of_failed fits holds rfl
              have unsold := unsold_of_short [] short (by simp)
              refine ⟨[], ?_, refusal_reaches X facilitator e unsold⟩
              simpa [pipeline] using short.trans (by simp)
          | ok _ =>
              obtain rfl := holds.mpr rfl
              exact ⟨_, List.prefix_rfl, afterVerify_reaches X facilitator req _ _⟩

end Paid

/-! ## The results -/

theorem count_of_reached {ms : List Milestone} (reached : ms <+: pipeline) :
    (ms.count delivered ≤ ms.count accepted ∧ ms.count accepted ≤ ms.count charged ∧
      ms.count charged ≤ ms.count read ∧ ms.count read ≤ ms.count passed ∧
      ms.count passed ≤ ms.count asked ∧ ms.count asked ≤ 1) ∧
    ms.count accepted = (if accepted ∈ ms then 1 else 0) ∧
    ms.count delivered = (if delivered ∈ ms then 1 else 0) := by
  have each : ∀ ms ∈ pipeline.inits,
      (ms.count delivered ≤ ms.count accepted ∧ ms.count accepted ≤ ms.count charged ∧
        ms.count charged ≤ ms.count read ∧ ms.count read ≤ ms.count passed ∧
        ms.count passed ≤ ms.count asked ∧ ms.count asked ≤ 1) ∧
      ms.count accepted = (if accepted ∈ ms then 1 else 0) ∧
      ms.count delivered = (if delivered ∈ ms then 1 else 0) := by decide
  exact each ms ((List.mem_inits _ _).mpr reached)

section Crowd
variable {X : Crates} {env : Env} {facilitator : String}
  (configured : env "FACILITATOR_URL" = .ok facilitator) {ι : Type} [Fintype ι] [DecidableEq ι]
  {requests : ι → Request} {events : List (ι × Event host)} {final : ι → Host WorkerResult}
  (interleaved : Interleaved (fun i => handleNtt X (requests i) env) events final)
include configured interleaved

/-- Whatever the order in which requests are served, at every moment no more transforms are out than
settlement replies were accepted, no more of these than settlements asked for, no more asked for
than bodies read, and no more read than verification replies passed; and each request calls the
runtime at most eight times. What a facilitator meant by a reply is not said here. -/
theorem milestones_in_order :
    (∀ i, (own i events).filterMap (milestone X facilitator) <+: pipeline) ∧
    (let count m := tally (milestone X facilitator) m (events.map Prod.snd);
      count delivered ≤ count accepted ∧ count accepted ≤ count charged ∧
        count charged ≤ count read ∧ count read ≤ count passed ∧
        count passed ≤ count asked ∧ count asked ≤ Fintype.card ι) ∧
    (∀ i, (own i events).length ≤ 8) ∧ events.length ≤ 8 * Fintype.card ι := by
  have steps := interleaved_iff.mp interleaved
  have reached (i : ι) : (own i events).filterMap (milestone X facilitator) <+: pipeline :=
    (handleNtt_reaches X facilitator (requests i) configured).during _ _ (steps i)
  have counts (i : ι) := (count_of_reached (reached i)).1
  have calls (i : ι) : (own i events).length ≤ 8 := (handleNtt_confined.of_steps (steps i)).1
  refine ⟨reached, ?_, calls, ?_⟩
  · simp only [← sum_tally]
    refine ⟨?_, ?_, ?_, ?_, ?_, ?_⟩
    · exact Finset.sum_le_sum fun i _ => (counts i).1
    · exact Finset.sum_le_sum fun i _ => (counts i).2.1
    · exact Finset.sum_le_sum fun i _ => (counts i).2.2.1
    · exact Finset.sum_le_sum fun i _ => (counts i).2.2.2.1
    · exact Finset.sum_le_sum fun i _ => (counts i).2.2.2.2.1
    · calc ∑ i, tally (milestone X facilitator) asked (own i events)
        _ ≤ ∑ _i : ι, 1 := Finset.sum_le_sum fun i _ => (counts i).2.2.2.2.2
        _ = Fintype.card ι := by simp
  · calc events.length
      _ = ∑ i, (own i events).length := (sum_length_own events).symm
      _ ≤ ∑ _i : ι, 8 := Finset.sum_le_sum fun i _ => calls i
      _ = 8 * Fintype.card ι := by simp [Nat.mul_comm]

/-- Once every request has its response, as many settlement replies were accepted as transforms are
out. -/
theorem accepted_delivered {responses : ι → Response}
    (finished : ∀ i, final i = .done (.ok (responses i))) :
    tally (milestone X facilitator) accepted (events.map Prod.snd) =
      (Finset.univ.filter fun i => (responses i).status = 200).card := by
  have steps := interleaved_iff.mp interleaved
  rw [← sum_tally, Finset.card_filter]
  refine Finset.sum_congr rfl fun i _ => ?_
  have run := steps i
  rw [finished i] at run
  obtain ⟨reached, sold⟩ :=
    (handleNtt_reaches X facilitator (requests i) configured).post _ _ run
  rw [tally, (count_of_reached reached).2.1]
  simp only [(sold _ rfl).1]

end Crowd

/-! ## Two sales -/

theorem milestones_in_order_pair : ∃ events final,
    Interleaved (fun _ : Fin 2 => handleNtt referenceCrates pairPost devnetEnv) events final ∧
    (∀ i, (own i events).filterMap
      (milestone referenceCrates "https://www.x402.org/facilitator") <+: pipeline) ∧
    (let count m := tally (milestone referenceCrates "https://www.x402.org/facilitator") m
        (events.map Prod.snd);
      count delivered ≤ count accepted ∧ count accepted ≤ count charged ∧
        count charged ≤ count read ∧ count read ≤ count passed ∧
        count passed ≤ count asked ∧ count asked ≤ Fintype.card (Fin 2)) ∧
    (∀ i, (own i events).length ≤ 8) ∧ events.length ≤ 8 * Fintype.card (Fin 2) := by
  obtain ⟨events, final, -, interleaved, -⟩ := interleaved_pair
  exact ⟨events, final, interleaved, milestones_in_order devnet_configured interleaved⟩

theorem accepted_delivered_pair : ∃ events final response,
    Interleaved (fun _ : Fin 2 => handleNtt referenceCrates pairPost devnetEnv) events final ∧
    (∀ i, final i = .done (.ok response)) ∧
    tally (milestone referenceCrates "https://www.x402.org/facilitator") accepted
        (events.map Prod.snd) =
      (Finset.univ.filter fun _ : Fin 2 => response.status = 200).card := by
  obtain ⟨events, final, response, interleaved, -, -, finished, -⟩ := interleaved_pair
  exact ⟨events, final, response, interleaved, finished,
    accepted_delivered devnet_configured interleaved finished⟩

end NttX402.Proof
