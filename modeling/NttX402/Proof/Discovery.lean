import NttX402.Proof.Dispatch

namespace NttX402.Proof
open Worker Library Library.Json

/-! ## What the service says of itself -/

structure Descriptor where
  fields : List String
  directions : List String
  capLog2 : ℕ
  method : String
  path : String
  /-- The largest degree of each tier with its price. -/
  tiers : List (ℕ × ℕ)
  deriving DecidableEq

def natural? (v : Value) : Option ℕ := v.asU64.map UInt64.toNat

def readTier (v : Value) : Option (ℕ × ℕ) := do
  let maxLog2 ← (v.get "max_log2").bind natural?
  let microsUsdc ← (v.get "micros_usdc").bind natural?
  return (maxLog2, microsUsdc)

def readDescriptor (v : Value) : Option Descriptor := do
  let fields ← ((v.get "fields").bind Value.asArray).bind fun names => names.mapM Value.asStr
  let directions ← ((v.get "directions").bind Value.asArray).bind fun names =>
    names.mapM Value.asStr
  let capLog2 ← (v.get "max_degree_log2_free_tier").bind natural?
  let endpoint ← v.get "x402_endpoint"
  let method ← (endpoint.get "method").bind Value.asStr
  let path ← (endpoint.get "path").bind Value.asStr
  let tiers ← ((v.get "tiers").bind Value.asArray).bind fun tiers => tiers.mapM readTier
  return ⟨fields, directions, capLog2, method, path, tiers⟩

def descriptor : Descriptor :=
  ⟨["Goldilocks"], ["Forward", "Inverse"], 12, "POST", "/ntt",
    [(8, 1000), (12, 10000), (16, 100000), (30, 1000000)]⟩

set_option maxRecDepth 2000 in
theorem descriptor_read :
    (parse serviceDescriptor.toList).bind readDescriptor = some descriptor := by
  unfold serviceDescriptor
  simp only [String.toList_append, String.reduceToList]
  decide +kernel

/-! ## What the service does -/

theorem tiers_price (degree : PolyDegreeLog2) :
    (descriptor.tiers.find? fun tier => degree.get.toNat ≤ tier.1).map Prod.snd =
      some (priceMicrosFor degree.get).toNat := by
  have bound : degree.get.toNat ≤ 30 := degree.range.2
  have eight : degree.get ≤ 8 ↔ degree.get.toNat ≤ 8 := UInt8.le_iff_toNat_le
  have twelve : degree.get ≤ 12 ↔ degree.get.toNat ≤ 12 := UInt8.le_iff_toNat_le
  have sixteen : degree.get ≤ 16 ↔ degree.get.toNat ≤ 16 := UInt8.le_iff_toNat_le
  simp only [descriptor, List.find?_cons, priceMicrosFor, eight, twelve, sixteen]
  split_ifs with small middle large
  · simp [small]
  · simp [small, middle]
  · simp [small, middle, large]
  · simp [small, middle, large, bound]

theorem directions_read (v : Value) (s : String)
    (named : (v.get "direction").bind Value.asStr = some s) :
    (∃ direction, parseDirection v = .ok direction) ↔ s ∈ descriptor.directions := by
  simp only [parseDirection_ok_iff, named, Option.some.injEq, descriptor, List.mem_cons,
    List.not_mem_nil, or_false]
  constructor
  · rintro ⟨direction, rfl⟩
    cases direction
    · exact .inl rfl
    · exact .inr rfl
  · rintro (rfl | rfl)
    · exact ⟨.Forward, rfl⟩
    · exact ⟨.Inverse, rfl⟩

theorem fields_served {X : Crates} (exact : X.goldilocks.Exact) {body : List UInt8} {v : Value}
    {ntt : NttRequest} (read : X.fromSlice body = .ok v) (asks : Asks v ntt) :
    (∃ output, serve X ⟨body⟩ = .ok output) ↔ fieldTag ntt.field ∈ descriptor.fields ∧
      ntt.degreeLog2.get.toNat ≤ descriptor.capLog2 ∧
      ntt.coefficients.length = 2 ^ ntt.degreeLog2.get.toNat := by
  have field : fieldTag ntt.field ∈ descriptor.fields ↔ ntt.field = .Goldilocks := by
    cases ntt.field <;> decide
  have cap : ntt.degreeLog2.get.toNat ≤ descriptor.capLog2 ↔ ntt.degreeLog2.get ≤ 12 := by
    rw [UInt8.le_iff_toNat_le]
    rfl
  rw [field, cap]
  constructor
  · rintro ⟨output, served⟩
    obtain ⟨v', ntt', outcome, read', asks', within, computed, -⟩ := serve_ok_inv X served
    obtain rfl : v = v' := Except.ok.inj (read.symm.trans read')
    have parsed := (parseValue_ok_iff.mpr asks).symm.trans (parseValue_ok_iff.mpr asks')
    obtain rfl : ntt = ntt' := Except.ok.inj parsed
    rcases computeWasm_result exact X.sha256 ntt.field ntt.direction ntt.degreeLog2
        ntt.coefficients with ⟨-, -, goldilocks, length⟩ | ⟨b, failed, -⟩
    · exact ⟨goldilocks, within, length⟩
    · rw [failed] at computed
      cases computed
  · rintro ⟨goldilocks, within, length⟩
    have computed := computeWasm_eq exact X.sha256 ntt.direction ntt.degreeLog2 ntt.coefficients
      length
    rw [← goldilocks] at computed
    exact ⟨_, serve_ok X read asks within computed⟩

/-! ## The result -/

/-- What `GET /` answers agrees with the code in these parts: its tiers are the quoted prices of all
degrees, the fields and the cap decide which well-formed requests are served, its directions are
the ones that are read, and only its endpoint makes other calls than a response of 200 or 404. It
is not said that a sale charges the quoted price, nor that the chains are the ones settled on. -/
theorem descriptor_quotes_and_limits {X : Crates} (exact : X.goldilocks.Exact) : ∃ d : Descriptor,
    (∀ req env events response, Run (dispatch X .Get "/" req env) events (.ok response) →
      ∃ text v, response.body = utf8 text ∧ Renders v text.toList ∧ readDescriptor v = some d) ∧
    (∀ degree : PolyDegreeLog2, (d.tiers.find? fun tier => degree.get.toNat ≤ tier.1).map Prod.snd =
      some (priceMicrosFor degree.get).toNat) ∧
    (∀ body v ntt, X.fromSlice body = .ok v → Asks v ntt →
      ((∃ output, serve X ⟨body⟩ = .ok output) ↔ fieldTag ntt.field ∈ d.fields ∧
        ntt.degreeLog2.get.toNat ≤ d.capLog2 ∧
        ntt.coefficients.length = 2 ^ ntt.degreeLog2.get.toNat)) ∧
    (∀ v s, (v.get "direction").bind Value.asStr = some s →
      ((∃ direction, parseDirection v = .ok direction) ↔ s ∈ d.directions)) ∧
    (d.method = "POST" ∧ ∀ method path req env events rest,
      Steps (dispatch X method path req env) events rest →
        ∀ e ∈ events, e.op ∉ [HostOp.newResponse 200, HostOp.newResponse 404] →
          method = .Post ∧ path = d.path) := by
  refine ⟨descriptor, ?_, tiers_price, fun body v ntt => fields_served exact, directions_read, rfl,
    ?_⟩
  · intro req env events response run
    obtain ⟨-, rfl⟩ := run_respond_iff.mp run
    obtain ⟨v, parsed, read⟩ := Option.bind_eq_some_iff.mp descriptor_read
    exact ⟨serviceDescriptor, v, rfl, parse_eq_some_iff.mp parsed, read⟩
  · intro method path req env events rest steps e member plain
    have permitted := ((dispatch_confined method path).of_steps steps).2 e member
    generalize e.op = op at permitted plain
    cases permitted with
    | discovery get path => exact absurd List.mem_cons_self plain
    | missing unrouted => exact absurd (List.mem_cons_of_mem _ List.mem_cons_self) plain
    | answer post endpoint status => exact ⟨post, endpoint⟩
    | bytes post endpoint present => exact ⟨post, endpoint⟩
    | post post endpoint present configured built known posts => exact ⟨post, endpoint⟩

theorem descriptor_quotes_and_limits_reference : ∃ d : Descriptor,
    (∀ req env events response,
      Run (dispatch referenceCrates .Get "/" req env) events (.ok response) →
        ∃ text v, response.body = utf8 text ∧ Renders v text.toList ∧ readDescriptor v = some d) ∧
    (∀ degree : PolyDegreeLog2, (d.tiers.find? fun tier => degree.get.toNat ≤ tier.1).map Prod.snd =
      some (priceMicrosFor degree.get).toNat) ∧
    (∀ body v ntt, referenceCrates.fromSlice body = .ok v → Asks v ntt →
      ((∃ output, serve referenceCrates ⟨body⟩ = .ok output) ↔ fieldTag ntt.field ∈ d.fields ∧
        ntt.degreeLog2.get.toNat ≤ d.capLog2 ∧
        ntt.coefficients.length = 2 ^ ntt.degreeLog2.get.toNat)) ∧
    (∀ v s, (v.get "direction").bind Value.asStr = some s →
      ((∃ direction, parseDirection v = .ok direction) ↔ s ∈ d.directions)) ∧
    (d.method = "POST" ∧ ∀ method path req env events rest,
      Steps (dispatch referenceCrates method path req env) events rest →
        ∀ e ∈ events, e.op ∉ [HostOp.newResponse 200, HostOp.newResponse 404] →
          method = .Post ∧ path = d.path) :=
  descriptor_quotes_and_limits referenceGoldilocks_exact

/-! ## The manifest -/

def memberNames (members : List (List Item × Value)) : List (Option String) :=
  members.map fun m => decode m.1

theorem sampleRequest_served {X : Crates} (accepts : X.AcceptsJson) (exact : X.goldilocks.Exact)
    {text : String} (renders : Renders sampleRequestValue text.toList) :
    ∃ output, serve X ⟨utf8 text⟩ = .ok output := by
  have same : ([1, 2, 3, 4] : List UInt64).map UInt64.toNat = [1, 2, 3, 4] := by decide
  have readable := isReadable_requestMembers .Forward ⟨2, by decide⟩ [1, 2, 3, 4]
  have asks := asks_requestMembers .Forward ⟨2, by decide⟩ [1, 2, 3, 4]
  rw [same] at readable asks
  exact ⟨_, serve_ok X (accepts text _ renders readable) asks (by decide)
    (computeWasm_eq exact X.sha256 .Forward ⟨2, by decide⟩ [1, 2, 3, 4] (by decide))⟩

theorem served_shape {X : Crates} {body : List UInt8} {output : ResponseBytes}
    (served : serve X ⟨body⟩ = .ok output) : ∃ text members, output = ⟨utf8 text⟩ ∧
      Renders (.object members) text.toList ∧
      memberNames members = [some "output", some "proof_of_execution", some "backend",
        some "field", some "direction", some "degree_log2"] := by
  obtain ⟨-, ntt, outcome, -, -, -, -, rfl⟩ := serve_ok_inv X served
  exact ⟨_, _, rfl, renders_responseBody ntt outcome, by simp [memberNames, responseMembers]⟩

theorem sampleResponse_shape : ∃ shape, sampleResponseValue = .object shape ∧
    memberNames shape = [some "output", some "proof_of_execution", some "backend",
      some "field", some "direction", some "degree_log2"] :=
  ⟨_, rfl, by simp [memberNames]⟩

theorem get_endpointMembers (requirements : Value) :
    (Value.object (endpointMembers requirements)).get "sampleRequest" = some sampleRequestValue ∧
    (Value.object (endpointMembers requirements)).get "sampleResponseShape" =
      some sampleResponseValue := by
  constructor <;> simp [Value.get, lookup, endpointMembers]

/-- Where the variables need no escaping, the manifest is JSON whose sample request is served
however it is formatted, and every response has the members of its sample response in their
order. -/
theorem manifest_samples_served {X : Crates} (accepts : X.AcceptsJson) (exact : X.goldilocks.Exact)
    {env : Env} (plain : PlainEnv env) {req : Request} {events : List (Event host)}
    {response : Response}
    (run : Run (dispatch X .Get "/.well-known/x402" req env) events (.ok response)) :
    ∃ text v endpoint sample shape, response.body = utf8 text ∧ Renders v text.toList ∧
      v.get "endpoints" = some (.array [endpoint]) ∧
      endpoint.get "sampleRequest" = some sample ∧
      endpoint.get "sampleResponseShape" = some (.object shape) ∧
      (∀ request, Renders sample request.toList →
        ∃ output, serve X ⟨utf8 request⟩ = .ok output) ∧
      (∀ body output, serve X ⟨body⟩ = .ok output → ∃ text members, output = ⟨utf8 text⟩ ∧
        Renders (.object members) text.toList ∧ memberNames members = memberNames shape) := by
  obtain ⟨-, rfl⟩ := run_respond_iff.mp run
  have terms : Renders (.object (requirementsMembers env freeTierMaxMicrosUsdc))
      (buildRequirementsJson env).asStr.toList := renders_requirementsAt env plain _
  have endpoints (requirements : Value) : (Value.object (manifestMembers requirements)).get
      "endpoints" = some (.array [.object (endpointMembers requirements)]) := by
    simp [Value.get, lookup, manifestMembers]
  obtain ⟨sample, shaped⟩ := get_endpointMembers
    (.object (requirementsMembers env freeTierMaxMicrosUsdc))
  obtain ⟨shape, isShape, names⟩ := sampleResponse_shape
  rw [isShape] at shaped
  refine ⟨_, _, _, _, shape, rfl, renders_manifest terms, endpoints _, sample, shaped,
    fun request renders => sampleRequest_served accepts exact renders, fun body output served => ?_⟩
  rw [names]
  exact served_shape served

theorem manifest_samples_served_devnet : ∃ response,
    Run (dispatch referenceCrates .Get "/.well-known/x402" pairPost devnetEnv) [responseBuilt 200]
      (.ok response) ∧
    ∃ text v endpoint sample shape, response.body = utf8 text ∧ Renders v text.toList ∧
      v.get "endpoints" = some (.array [endpoint]) ∧
      endpoint.get "sampleRequest" = some sample ∧
      endpoint.get "sampleResponseShape" = some (.object shape) ∧
      (∀ request, Renders sample request.toList →
        ∃ output, serve referenceCrates ⟨utf8 request⟩ = .ok output) ∧
      (∀ body output, serve referenceCrates ⟨body⟩ = .ok output →
        ∃ text members, output = ⟨utf8 text⟩ ∧ Renders (.object members) text.toList ∧
          memberNames members = memberNames shape) := by
  have run : Run (dispatch referenceCrates .Get "/.well-known/x402" pairPost devnetEnv)
      [responseBuilt 200] (.ok ⟨200, jsonHeaders, utf8 (buildBazaarManifest devnetEnv)⟩) :=
    run_respond 200 jsonHeaders _
  exact ⟨_, run, manifest_samples_served referenceCrates_acceptsJson referenceGoldilocks_exact
    plainEnv_devnet run⟩

end NttX402.Proof
