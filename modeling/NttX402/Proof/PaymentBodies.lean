import NttX402.Proof.Price

namespace NttX402.Proof
open Worker Library Library.Json

/-! ## Bodies that carry a payment -/

section Bodies
variable (X : Crates)

/-- The header is not Base64 of UTF-8, or it is one of a JSON object. -/
def HeaderIsObject (header : String) : Prop :=
  ∀ payload, X.base64Decode (utf8 header) = .ok (utf8 payload) →
    ∃ members, Renders (.object members) payload.toList

/-- What is built is an error or one object whose members are the version, the object that the
header decodes to, and the requirements. -/
def BuildsPayment (header : String) (requirements : Value) (built : Except Error String) : Prop :=
  ∀ body, built = .ok body → ∃ payload members,
    X.base64Decode (utf8 header) = .ok (utf8 payload) ∧
      Renders (.object members) payload.toList ∧
      Renders (.object (facilitatorMembers (.object members) requirements)) body.toList

/-- The bodies are what they should be exactly for the headers that decode to an object, or to
nothing. -/
theorem buildBodies_correct_iff (header : String) {requirements : String}
    {ms : List (List Item × Value)} (renders : Renders (.object ms) requirements.toList) :
    (BuildsPayment X header (.object ms) (buildVerifyBody X ⟨header⟩ ⟨requirements⟩) ∧
      BuildsPayment X header (.object ms) (buildSettleBody X ⟨header⟩ ⟨requirements⟩)) ↔
        HeaderIsObject X header := by
  simp only [BuildsPayment, buildVerifyBody_ok_iff, buildSettleBody_ok_iff, and_self]
  constructor
  · intro builds payload decoded
    obtain ⟨payload', members, decoded', object, -⟩ := builds _ ⟨payload, decoded, rfl⟩
    have same : payload = payload' :=
      utf8_injective (Except.ok.inj (decoded.symm.trans decoded'))
    exact ⟨members, same ▸ object⟩
  · rintro isObject body ⟨payload, decoded, rfl⟩
    obtain ⟨members, object⟩ := isObject payload decoded
    exact ⟨payload, members, decoded, object, renders_facilitatorBody object renders⟩

end Bodies

theorem headerIsObject_pair : HeaderIsObject referenceCrates pairHeader := by
  intro payload decoded
  obtain rfl := utf8_injective (Except.ok.inj (decode_pairHeader.symm.trans decoded))
  have renders : Renders (.object [(literal "x402Version", .number (Number.ofNat 1)),
      (literal "scheme", .string (literal "exact"))]) pairPayload.toList :=
    renders_of_compact (by decide)
  exact ⟨_, renders⟩

/-- A payment under the exact scheme, for the requirements of a worker on devnet. -/
theorem buildBodies_correct_iff_pair :
    let requirements := buildRequirementsJson devnetEnv
    let members := requirementsMembers devnetEnv freeTierMaxMicrosUsdc
    buildVerifyBody referenceCrates ⟨pairHeader⟩ requirements =
      .ok (facilitatorBody pairPayload requirements.asStr) ∧
    BuildsPayment referenceCrates pairHeader (.object members)
      (buildVerifyBody referenceCrates ⟨pairHeader⟩ requirements) ∧
    BuildsPayment referenceCrates pairHeader (.object members)
      (buildSettleBody referenceCrates ⟨pairHeader⟩ requirements) :=
  ⟨(buildVerifyBody_ok_iff _).mpr ⟨pairPayload, decode_pairHeader, rfl⟩,
    (buildBodies_correct_iff referenceCrates pairHeader
      (renders_requirementsAt devnetEnv plainEnv_devnet freeTierMaxMicrosUsdc)).mpr
      headerIsObject_pair⟩

/-! ## A payload that is not an object -/

def injectedPayload : String := "\x7b\x7d,\"paymentRequirements\":\x7b\x7d"

def injectedHeader : String := "e30sInBheW1lbnRSZXF1aXJlbWVudHMiOnt9"

def injectedMembers : List (List Item × Value) :=
  [(literal "x402Version", .number (Number.ofNat 1)),
    (literal "paymentPayload", .object []),
    (literal "paymentRequirements", .object []),
    (literal "paymentRequirements", .object [])]

theorem buildVerifyBody_injected :
    buildVerifyBody referenceCrates ⟨injectedHeader⟩ ⟨"\x7b\x7d"⟩ =
        .ok (facilitatorBody injectedPayload "\x7b\x7d") ∧
      Renders (.object injectedMembers) (facilitatorBody injectedPayload "\x7b\x7d").toList ∧
      ¬ BuildsPayment referenceCrates injectedHeader (.object [])
        (buildVerifyBody referenceCrates ⟨injectedHeader⟩ ⟨"\x7b\x7d"⟩) := by
  have decoded : referenceCrates.base64Decode (utf8 injectedHeader) =
      .ok (utf8 injectedPayload) := by decide
  have built : buildVerifyBody referenceCrates ⟨injectedHeader⟩ ⟨"\x7b\x7d"⟩ =
      .ok (facilitatorBody injectedPayload "\x7b\x7d") :=
    (buildVerifyBody_ok_iff referenceCrates).mpr ⟨injectedPayload, decoded, rfl⟩
  have renders : Renders (.object injectedMembers)
      (facilitatorBody injectedPayload "\x7b\x7d").toList := renders_of_compact (by decide)
  refine ⟨built, renders, fun builds => ?_⟩
  obtain ⟨payload, members, -, -, three⟩ := builds _ built
  have same := renders.unique three
  simp [injectedMembers, facilitatorMembers] at same

end NttX402.Proof
