import NttX402.Worker.X402
import NttX402.Library.Result
import NttX402.Proof.ReferenceCrates

namespace NttX402.Proof
open Worker Library Library.Json

/-! ## The template -/

def facilitatorMembers (payload requirements : Value) : List (List Item × Value) :=
  [(literal "x402Version", .number (Number.ofNat 1)),
    (literal "paymentPayload", payload),
    (literal "paymentRequirements", requirements)]

theorem renders_facilitatorBody {payload requirements : Value}
    {payloadJson requirementsJson : String} (one : Renders payload payloadJson.toList)
    (two : Renders requirements requirementsJson.toList) :
    Renders (.object (facilitatorMembers payload requirements))
      (facilitatorBody payloadJson requirementsJson).toList := by
  have version : Renders (.number (Number.ofNat 1)) ['1'] := renders_of_compact (by decide)
  apply renders_object ⟨"x402Version", by decide, _, _, version⟩
    [⟨"paymentPayload", by decide, _, _, one⟩, ⟨"paymentRequirements", by decide, _, _, two⟩]
  unfold facilitatorBody
  simp only [RenderedMember.chars, String.toList_append, List.flatMap_cons, List.flatMap_nil,
    List.append_assoc, List.cons_append, List.nil_append]
  rfl

/-! ## The payload -/

section Payload
variable (X : Crates)

theorem decodePaymentPayload_ok_iff {header payload : String} :
    decodePaymentPayload X header = .ok payload ↔
      X.base64Decode (utf8 header) = .ok (utf8 payload) := by
  unfold decodePaymentPayload
  cases X.base64Decode (utf8 header) with
  | error e => simp
  | ok bytes =>
      simp only [Except.ok.injEq]
      cases decoded : fromUtf8 bytes with
      | none =>
          simp only [reduceCtorEq, false_iff]
          rintro rfl
          simp [fromUtf8_utf8] at decoded
      | some s =>
          rw [← utf8_of_fromUtf8 decoded, Except.ok.injEq, utf8_injective.eq_iff]

theorem buildVerifyBody_ok_iff {header requirements body : String} :
    buildVerifyBody X ⟨header⟩ ⟨requirements⟩ = .ok body ↔
      ∃ payload, X.base64Decode (utf8 header) = .ok (utf8 payload) ∧
        facilitatorBody payload requirements = body := by
  simp only [buildVerifyBody, map_eq_ok, decodePaymentPayload_ok_iff]

theorem buildSettleBody_ok_iff {header requirements body : String} :
    buildSettleBody X ⟨header⟩ ⟨requirements⟩ = .ok body ↔
      ∃ payload, X.base64Decode (utf8 header) = .ok (utf8 payload) ∧
        facilitatorBody payload requirements = body := by
  simp only [buildSettleBody, map_eq_ok, mapError_eq_ok, decodePaymentPayload_ok_iff]

theorem buildSettleBody_ok_iff_verify {header requirements body : String} :
    buildSettleBody X ⟨header⟩ ⟨requirements⟩ = .ok body ↔
      buildVerifyBody X ⟨header⟩ ⟨requirements⟩ = .ok body := by
  rw [buildSettleBody_ok_iff, buildVerifyBody_ok_iff]

end Payload

end NttX402.Proof
