import NttX402.Worker.Handler
import NttX402.Library.Result
import NttX402.Proof.Transform
import NttX402.Proof.ReferenceCrates

namespace NttX402.Proof
open Worker Library

/-! ## Requests in JSON -/

/-- `v` is the literal of a natural number: no sign, fraction or exponent. -/
def IsLiteral (v : Json.Value) (n : Nat) : Prop :=
  ∃ number, v = .number number ∧ number.natural? = some n

/-- The object `v` asks for `req`, whatever other members it has. -/
structure Asks (v : Json.Value) (req : NttRequest) : Prop where
  field : (v.get "field").bind Json.Value.asStr = some (fieldTag req.field)
  direction : (v.get "direction").bind Json.Value.asStr = some (directionTag req.direction)
  degree : ∃ literal, v.get "degree_log2" = some literal ∧
    IsLiteral literal req.degreeLog2.get.toNat
  coefficients : ∃ elements, v.get "coefficients" = some (.array elements) ∧
    List.Forall₂ (fun element c => IsLiteral element c.toNat) elements req.coefficients
  challenge : req.challenge = ⟨Vector.replicate 32 0⟩
  privacy : req.privacy = .Logged

theorem parseField_ok_iff {v : Json.Value} {field : Field} :
    parseField v = .ok field ↔ (v.get "field").bind Json.Value.asStr = some (fieldTag field) := by
  unfold parseField
  cases (v.get "field").bind Json.Value.asStr with
  | none => simp
  | some s =>
      simp only [Option.some.injEq]
      split_ifs with goldilocks babyBear
      · cases field <;> simp [fieldTag, goldilocks]
      · cases field <;> simp [fieldTag, babyBear]
      · cases field <;> simp [fieldTag, goldilocks, babyBear]

theorem parseDirection_ok_iff {v : Json.Value} {direction : Direction} :
    parseDirection v = .ok direction ↔
      (v.get "direction").bind Json.Value.asStr = some (directionTag direction) := by
  unfold parseDirection
  cases (v.get "direction").bind Json.Value.asStr with
  | none => simp
  | some s =>
      simp only [Option.some.injEq]
      split_ifs with forward inverse
      · cases direction <;> simp [directionTag, forward]
      · cases direction <;> simp [directionTag, inverse]
      · cases direction <;> simp [directionTag, forward, inverse]

theorem asU64_eq_some_iff {v : Json.Value} {c : UInt64} :
    v.asU64 = some c ↔ IsLiteral v c.toNat := by
  cases v with
  | number n =>
      simp only [Json.Value.asU64, IsLiteral, Json.Value.number.injEq, exists_eq_left',
        Option.bind_eq_some_iff, Option.ite_none_right_eq_some, Option.some.injEq]
      constructor
      · rintro ⟨k, literal, fits, rfl⟩
        rw [UInt64.toNat_ofNat_of_lt' fits, literal]
      · intro literal
        exact ⟨c.toNat, literal, c.toNat_lt, UInt64.ofNat_toNat⟩
  | _ => simp [Json.Value.asU64, IsLiteral]

theorem IsLiteral.unique {v : Json.Value} {m n : Nat} (one : IsLiteral v m)
    (two : IsLiteral v n) : m = n := by
  obtain ⟨number, rfl, literal⟩ := one
  obtain ⟨_, equal, literal'⟩ := two
  cases equal
  exact Option.some.inj (literal.symm.trans literal')

theorem asU64_of_isLiteral {v : Json.Value} {n : Nat} (literal : IsLiteral v n)
    (fits : n < 2 ^ 64) : v.asU64 = some (UInt64.ofNat n) :=
  asU64_eq_some_iff.mpr (by rwa [UInt64.toNat_ofNat_of_lt' fits])

theorem parseDegree_ok_iff {v : Json.Value} {degree : PolyDegreeLog2} :
    parseDegree v = .ok degree ↔
      ∃ literal, v.get "degree_log2" = some literal ∧ IsLiteral literal degree.get.toNat := by
  have small : degree.get.toNat < 2 ^ 8 := degree.get.toNat_lt
  unfold parseDegree
  cases v.get "degree_log2" with
  | none => simp
  | some literal =>
      simp only [Option.bind_some, Option.some.injEq, exists_eq_left']
      have read (isLiteral : IsLiteral literal degree.get.toNat) :
          literal.asU64 = some (UInt64.ofNat degree.get.toNat) :=
        asU64_of_isLiteral isLiteral (by omega)
      cases found : literal.asU64 with
      | none =>
          simp only [reduceCtorEq, false_iff]
          intro isLiteral
          simp [found] at read
          exact read isLiteral
      | some n =>
          have stated : IsLiteral literal n.toNat := asU64_eq_some_iff.mp found
          dsimp only
          split_ifs with fits
          · rw [PolyDegreeLog2.new_ok_iff, ← UInt8.toNat_inj, UInt64.toNat_toUInt8,
              Nat.mod_eq_of_lt fits]
            constructor
            · intro equal
              rwa [equal]
            · intro isLiteral
              exact isLiteral.unique stated
          · simp only [false_iff]
            intro isLiteral
            exact fits (stated.unique isLiteral ▸ small)

theorem parseCoefficients_ok_iff {v : Json.Value} {coefficients : List UInt64} :
    parseCoefficients v = .ok coefficients ↔
      ∃ elements, v.get "coefficients" = some (.array elements) ∧
        List.Forall₂ (fun element c => IsLiteral element c.toNat) elements coefficients := by
  have each (element : Json.Value) (c : UInt64) :
      parseCoefficient element = .ok c ↔ IsLiteral element c.toNat := by
    rw [← asU64_eq_some_iff, parseCoefficient]
    cases element.asU64 <;> simp
  unfold parseCoefficients
  cases v.get "coefficients" with
  | none => simp
  | some w =>
      cases w with
      | array elements =>
          simp [Json.Value.asArray, mapM_eq_ok, each]
      | _ => simp [Json.Value.asArray]

theorem parseValue_ok_iff {v : Json.Value} {req : NttRequest} :
    parseValue v = .ok req ↔ Asks v req := by
  simp only [parseValue, bind_eq_ok]
  constructor
  · rintro ⟨field, hf, direction, hdir, degree, hdeg, coefficients, hc, built⟩
    obtain rfl := Except.ok.inj built
    exact ⟨parseField_ok_iff.mp hf, parseDirection_ok_iff.mp hdir, parseDegree_ok_iff.mp hdeg,
      parseCoefficients_ok_iff.mp hc, rfl, rfl⟩
  · intro asks
    refine ⟨req.field, parseField_ok_iff.mpr asks.field, req.direction,
      parseDirection_ok_iff.mpr asks.direction, req.degreeLog2,
      parseDegree_ok_iff.mpr asks.degree, req.coefficients,
      parseCoefficients_ok_iff.mpr asks.coefficients, ?_⟩
    rw [← asks.challenge, ← asks.privacy]
    rfl

/-! ## The stages of `serve` -/

/-- The backend refuses a wrong length and the field that is not there yet, and nothing else. -/
theorem computeWasm_result {G : P3Goldilocks} (exact : G.Exact)
    (sha256 : List UInt8 → Vector UInt8 32) (field : Field) (direction : Direction)
    (degree : PolyDegreeLog2) (coefficients : List UInt64) :
    (∃ outcome, computeWasm G sha256 field direction degree coefficients = .ok outcome ∧
      field = .Goldilocks ∧ coefficients.length = 2 ^ degree.get.toNat) ∨
    (∃ b, computeWasm G sha256 field direction degree coefficients = .error (.backend b) ∧
      (coefficients.length ≠ 2 ^ degree.get.toNat ∨ field = .BabyBear)) := by
  by_cases length : coefficients.length = 2 ^ degree.get.toNat
  · cases field with
    | Goldilocks =>
        exact .inl ⟨_, computeWasm_eq exact sha256 direction degree coefficients length, rfl,
          length⟩
    | BabyBear =>
        refine .inr ⟨.simulatorFailed "BabyBear backend lands in v0.2", ?_, .inr rfl⟩
        simp only [computeWasm, dispatchField, Nat.one_shiftLeft, length, if_true]
  · refine .inr ⟨.simulatorFailed
      s!"expected {1 <<< degree.get.toNat} coefficients, got {coefficients.length}", ?_,
      .inl length⟩
    simp only [computeWasm, Nat.one_shiftLeft, length, if_false]

section Serve
variable (X : Crates)

theorem parseRequest_ok_iff {body : List UInt8} {req : NttRequest} :
    parseRequest X body = .ok req ↔ ∃ v, X.fromSlice body = .ok v ∧ Asks v req := by
  simp only [parseRequest, bind_eq_ok, mapError_eq_ok, parseValue_ok_iff]

theorem not_asked {body : List UInt8} {e : Error} (failed : parseRequest X body = .error e)
    {v : Json.Value} (read : X.fromSlice body = .ok v) (req : NttRequest) : ¬ Asks v req := by
  intro asks
  have parsed := (parseRequest_ok_iff X).mpr ⟨v, read, asks⟩
  rw [failed] at parsed
  cases parsed

/-- A body asks for one request only. -/
theorem exists_asked_iff {body : List UInt8} {req : NttRequest}
    (parsed : parseRequest X body = .ok req) (P : NttRequest → Prop) :
    (∃ v req, X.fromSlice body = .ok v ∧ Asks v req ∧ P req) ↔ P req := by
  constructor
  · rintro ⟨v, req', read, asks, holds⟩
    have same := (parseRequest_ok_iff X).mpr ⟨v, read, asks⟩
    obtain rfl : req = req' := Except.ok.inj (parsed.symm.trans same)
    exact holds
  · intro holds
    obtain ⟨v, read, asks⟩ := (parseRequest_ok_iff X).mp parsed
    exact ⟨v, req, read, asks, holds⟩

theorem parseRequest_error {body : List UInt8} {e : Error}
    (failed : parseRequest X body = .error e) : ∃ p, e = .parse p := by
  simp only [parseRequest, bind_eq_error, mapError_eq_error] at failed
  rcases failed with ⟨text, -, rfl⟩ | ⟨v, -, p, -, rfl⟩
  · exact ⟨_, rfl⟩
  · exact ⟨p, rfl⟩

theorem serve_of_parsed {body : List UInt8} {req : NttRequest}
    (parsed : parseRequest X body = .ok req) :
    serve X ⟨body⟩ =
      if 12 < req.degreeLog2.get then .error (.outOfTier ⟨req.degreeLog2.get, 12⟩)
      else runComputeToResponse X req := by
  rw [serve, parseAndQuote, parsed]
  change ((quoteFor req.degreeLog2 ⟨freeTierMaxLog2⟩).mapError Error.outOfTier >>= fun _ =>
    pure req) >>= runComputeToResponse X = _
  split_ifs with above
  · have quoted := (quoteFor_error_iff req.degreeLog2 ⟨freeTierMaxLog2⟩ _).mpr ⟨above, rfl⟩
    rw [quoted]
    rfl
  · have quoted := (quoteFor_ok_iff req.degreeLog2 ⟨freeTierMaxLog2⟩ _).mpr
      ⟨UInt8.not_lt.mp above, rfl⟩
    rw [quoted]
    rfl

theorem serve_of_unparsed {body : List UInt8} {e : Error}
    (failed : parseRequest X body = .error e) : serve X ⟨body⟩ = .error e := by
  rw [serve, parseAndQuote, failed]
  rfl

theorem serve_ok {body : List UInt8} {v : Json.Value} {req : NttRequest}
    {outcome : ComputeOutcome} (read : X.fromSlice body = .ok v) (asks : Asks v req)
    (within : req.degreeLog2.get ≤ 12)
    (computed : computeWasm X.goldilocks X.sha256 req.field req.direction req.degreeLog2
      req.coefficients = .ok outcome) :
    serve X ⟨body⟩ = .ok (buildResponseBytes req outcome) := by
  rw [serve_of_parsed X ((parseRequest_ok_iff X).mpr ⟨v, read, asks⟩),
    if_neg (UInt8.not_lt.mpr within), runComputeToResponse, computed]
  rfl

theorem serve_ok_inv {body : List UInt8} {output : ResponseBytes}
    (served : serve X ⟨body⟩ = .ok output) :
    ∃ v req outcome, X.fromSlice body = .ok v ∧ Asks v req ∧ req.degreeLog2.get ≤ 12 ∧
      computeWasm X.goldilocks X.sha256 req.field req.direction req.degreeLog2
        req.coefficients = .ok outcome ∧ output = buildResponseBytes req outcome := by
  cases parsed : parseRequest X body with
  | error e =>
      rw [serve_of_unparsed X parsed] at served
      cases served
  | ok req =>
      obtain ⟨v, read, asks⟩ := (parseRequest_ok_iff X).mp parsed
      rw [serve_of_parsed X parsed] at served
      split_ifs at served with above
      obtain ⟨outcome, computed, built⟩ := map_eq_ok.mp served
      exact ⟨v, req, outcome, read, asks, UInt8.not_lt.mp above, computed, built.symm⟩

end Serve

/-! ## A small request -/

def pairRequest : NttRequest :=
  ⟨.Goldilocks, .Forward, ⟨1, by decide⟩, [1, 2], ⟨Vector.replicate 32 0⟩, .Logged⟩

def pairValue : Json.Value := .object
  [(Json.literal "field", .string (Json.literal "Goldilocks")),
    (Json.literal "direction", .string (Json.literal "Forward")),
    (Json.literal "degree_log2", .number ⟨['1'], by decide⟩),
    (Json.literal "coefficients",
      .array [.number ⟨['1'], by decide⟩, .number ⟨['2'], by decide⟩])]

def pairBody : String :=
  "\x7b\"field\":\"Goldilocks\",\"direction\":\"Forward\",\"degree_log2\":1," ++
    "\"coefficients\":[1,2]\x7d"

set_option maxRecDepth 2000 in
theorem renders_pairBody : Json.Renders pairValue pairBody.toList :=
  Json.renders_of_compact (by decide)

theorem fromSlice_pairBody : referenceCrates.fromSlice (utf8 pairBody) = .ok pairValue :=
  referenceCrates_fromSlice renders_pairBody

theorem asks_pairValue : Asks pairValue pairRequest where
  field := by decide
  direction := by decide
  degree := ⟨_, rfl, _, rfl, by decide⟩
  coefficients := ⟨_, rfl, .cons ⟨_, rfl, by decide⟩ (.cons ⟨_, rfl, by decide⟩ .nil)⟩
  challenge := rfl
  privacy := rfl

theorem serve_pairBody : ∃ response, serve referenceCrates ⟨utf8 pairBody⟩ = .ok response :=
  ⟨_, serve_ok referenceCrates fromSlice_pairBody asks_pairValue (by decide)
    (computeWasm_eq referenceGoldilocks_exact _ .Forward ⟨1, by decide⟩ [1, 2] rfl)⟩

/-! ## The results -/

/-- The body is a JSON text that `serde_json` accepts, and `v` is its value. -/
def Reads (X : Crates) (body : List UInt8) (v : Json.Value) : Prop :=
  X.fromSlice body = .ok v ∧ ∃ s, body = utf8 s ∧ Json.Renders v s.toList

theorem reads_iff {X : Crates} (reads : X.ReadsJson) {body : List UInt8} {v : Json.Value} :
    Reads X body v ↔ X.fromSlice body = .ok v :=
  ⟨And.left, fun accepted => ⟨accepted, reads body v accepted⟩⟩

/-- `serve` accepts exactly the bodies that ask for a Goldilocks transform within the free tier
with the right number of coefficients; any other body fails at the first stage that refuses it. -/
theorem serve_classified {X : Crates} (reads : X.ReadsJson) (exact : X.goldilocks.Exact)
    (body : List UInt8) :
    ((∃ output, serve X ⟨body⟩ = .ok output) ↔
      ∃ v req, Reads X body v ∧ Asks v req ∧ req.field = .Goldilocks ∧
        req.degreeLog2.get ≤ 12 ∧ req.coefficients.length = 2 ^ req.degreeLog2.get.toNat) ∧
    ((∃ e, serve X ⟨body⟩ = .error (.parse e)) ↔ ∀ v, Reads X body v → ∀ req, ¬ Asks v req) ∧
    (∀ e, serve X ⟨body⟩ = .error (.outOfTier e) ↔
      ∃ v req, Reads X body v ∧ Asks v req ∧ 12 < req.degreeLog2.get ∧
        e = ⟨req.degreeLog2.get, 12⟩) ∧
    ((∃ e, serve X ⟨body⟩ = .error (.backend e)) ↔
      ∃ v req, Reads X body v ∧ Asks v req ∧ req.degreeLog2.get ≤ 12 ∧
        (req.coefficients.length ≠ 2 ^ req.degreeLog2.get.toNat ∨ req.field = .BabyBear)) := by
  simp only [reads_iff reads]
  cases parsed : parseRequest X body with
  | error e =>
      obtain ⟨p, rfl⟩ := parseRequest_error X parsed
      have never (P : NttRequest → Prop) :
          ¬ ∃ v req, X.fromSlice body = .ok v ∧ Asks v req ∧ P req :=
        fun ⟨v, req, read, asks, _⟩ => not_asked X parsed read req asks
      simp only [serve_of_unparsed X parsed, never, Except.error.injEq, Error.parse.injEq,
        exists_eq', reduceCtorEq, exists_false, implies_true, true_iff, and_true, true_and]
      exact fun v read req => not_asked X parsed read req
  | ok req =>
      obtain ⟨v, read, asks⟩ := (parseRequest_ok_iff X).mp parsed
      have asked : ¬ ∀ v, X.fromSlice body = .ok v → ∀ req, ¬ Asks v req :=
        fun nothing => nothing v read req asks
      simp only [serve_of_parsed X parsed, exists_asked_iff X parsed, asked, iff_false]
      by_cases above : 12 < req.degreeLog2.get
      · simp [above, UInt8.not_le.mpr above, eq_comm]
      · have within : req.degreeLog2.get ≤ 12 := UInt8.not_lt.mp above
        rw [if_neg above, runComputeToResponse]
        rcases computeWasm_result exact X.sha256 req.field req.direction req.degreeLog2
          req.coefficients with ⟨outcome, computed, goldilocks, length⟩ | ⟨b, failed, refused⟩
        · rw [computed]
          simp [above, within, Except.map, goldilocks, length]
        · have notBoth (goldilocks : req.field = .Goldilocks) :
              req.coefficients.length ≠ 2 ^ req.degreeLog2.get.toNat := by
            rcases refused with other | babyBear
            · exact other
            · simp [goldilocks] at babyBear
          rw [failed]
          simpa [above, within, Except.map, refused] using notBoth

theorem serve_classified_pair :
    ((∃ output, serve referenceCrates ⟨utf8 pairBody⟩ = .ok output) ↔
      ∃ v req, Reads referenceCrates (utf8 pairBody) v ∧ Asks v req ∧ req.field = .Goldilocks ∧
        req.degreeLog2.get ≤ 12 ∧ req.coefficients.length = 2 ^ req.degreeLog2.get.toNat) ∧
    ((∃ e, serve referenceCrates ⟨utf8 pairBody⟩ = .error (.parse e)) ↔
      ∀ v, Reads referenceCrates (utf8 pairBody) v → ∀ req, ¬ Asks v req) ∧
    (∀ e, serve referenceCrates ⟨utf8 pairBody⟩ = .error (.outOfTier e) ↔
      ∃ v req, Reads referenceCrates (utf8 pairBody) v ∧ Asks v req ∧ 12 < req.degreeLog2.get ∧
        e = ⟨req.degreeLog2.get, 12⟩) ∧
    ((∃ e, serve referenceCrates ⟨utf8 pairBody⟩ = .error (.backend e)) ↔
      ∃ v req, Reads referenceCrates (utf8 pairBody) v ∧ Asks v req ∧ req.degreeLog2.get ≤ 12 ∧
        (req.coefficients.length ≠ 2 ^ req.degreeLog2.get.toNat ∨ req.field = .BabyBear)) :=
  serve_classified referenceCrates_readsJson referenceGoldilocks_exact (utf8 pairBody)

end NttX402.Proof
