import NttX402.Proof.Response
import NttX402.Proof.RoundTrip

namespace NttX402.Proof
open Worker Library Library.Json

/-! ## Requests as a client writes them -/

def requestBody (direction : Direction) (degree : PolyDegreeLog2) (coefficients : List Nat) :
    String :=
  "\x7b\"field\":\"Goldilocks\",\"direction\":\"" ++ directionTag direction ++
    "\",\"degree_log2\":" ++ toString degree.get ++
    ",\"coefficients\":[" ++ ",".intercalate (coefficients.map toString) ++ "]\x7d"

def requestMembers (direction : Direction) (degree : PolyDegreeLog2) (coefficients : List Nat) :
    List (List Item × Value) :=
  [(literal "field", .string (literal (fieldTag .Goldilocks))),
    (literal "direction", .string (literal (directionTag direction))),
    (literal "degree_log2", .number (Number.ofNat degree.get.toNat)),
    (literal "coefficients", .array (coefficients.map fun n => .number (Number.ofNat n)))]

theorem renders_requestBody (direction : Direction) (degree : PolyDegreeLog2)
    (coefficients : List Nat) :
    Renders (.object (requestMembers direction degree coefficients))
      (requestBody direction degree coefficients).toList := by
  have degreeText : (toString degree.get).toList = Nat.toDigits 10 degree.get.toNat :=
    Nat.toList_repr
  have numbers : (",".intercalate (coefficients.map toString)).toList =
      [','].intercalate ((coefficients.map fun n => .number (Number.ofNat n)).map
        Value.compact) := by
    rw [String.toList_intercalate, List.map_map, List.map_map]
    congr 1
    exact List.map_congr_left fun n _ => Nat.toList_repr.trans (compact_number n).symm
  apply renders_of_compact
  unfold requestBody
  simp (disch := decide) only [compact_object, requestMembers, List.map_cons, List.map_nil,
    memberText_literal, compact_array, compact_string, compact_number,
    itemsText_literal (plain_fieldTag _), itemsText_literal (plain_directionTag _), ← numbers,
    ← degreeText, List.intercalate_cons_cons, List.intercalate_singleton, String.toList_append,
    List.append_assoc, List.cons_append, List.nil_append]
  rfl

theorem isReadable_requestMembers (direction : Direction) (degree : PolyDegreeLog2)
    (coefficients : List UInt64) :
    (Value.object (requestMembers direction degree (coefficients.map UInt64.toNat))).isReadable 127
      = true := by
  have numbers (depth : Nat) : elementsReadable ((coefficients.map UInt64.toNat).map
      fun n => .number (Number.ofNat n)) depth = true := by
    induction coefficients with
    | nil => rfl
    | cons c coefficients ih =>
        simp only [List.map_cons, elementsReadable, ih, Bool.and_true]
        simp [Value.isReadable, c.toNat_lt_size]
  have small : degree.get.toNat < UInt64.size := by
    have bound : degree.get.toNat ≤ 30 := degree.range.2
    exact Nat.lt_of_le_of_lt bound (by decide)
  simp [-List.map_map, requestMembers, Value.isReadable, membersReadable, numbers, small]

theorem asks_requestMembers (direction : Direction) (degree : PolyDegreeLog2)
    (coefficients : List UInt64) :
    Asks (.object (requestMembers direction degree (coefficients.map UInt64.toNat)))
      ⟨.Goldilocks, direction, degree, coefficients, ⟨Vector.replicate 32 0⟩, .Logged⟩ where
  field := by simp [Value.get, lookup, requestMembers, Value.asStr]
  direction := by simp [Value.get, lookup, requestMembers, Value.asStr]
  degree := by
    refine ⟨.number (Number.ofNat degree.get.toNat), ?_, _, rfl, Number.natural?_ofNat _⟩
    simp [Value.get, lookup, requestMembers]
  coefficients := by
    refine ⟨(coefficients.map UInt64.toNat).map fun n => .number (Number.ofNat n), ?_, ?_⟩
    · simp [Value.get, lookup, requestMembers]
    · rw [List.map_map, List.forall₂_map_left_iff, List.forall₂_same]
      exact fun c _ => ⟨_, rfl, Number.natural?_ofNat _⟩
  challenge := rfl
  privacy := rfl

/-! ## Responses as a client reads them -/

def decimal? (v : Value) : Option Nat :=
  v.asStr.bind fun s =>
    if s.toList ≠ [] ∧ s.toList.all Char.isDigit = true then some (Nat.ofDigitChars 10 s.toList 0)
    else none

theorem decimal?_eq_some_iff {v : Value} {n : Nat} : decimal? v = some n ↔ IsDecimal v n := by
  simp only [decimal?, IsDecimal, Option.bind_eq_some_iff, Option.ite_none_right_eq_some,
    Option.some.injEq, List.all_eq_true, and_assoc]

/-- The integers in the output array of a response. -/
def readOutput (response : ResponseBytes) : Option (List Nat) := do
  let text ← fromUtf8 response.asSlice
  let v ← parse text.toList
  let elements ← (v.get "output").bind Value.asArray
  elements.mapM decimal?

theorem readOutput_buildResponseBytes (req : NttRequest) (outcome : ComputeOutcome) :
    readOutput (buildResponseBytes req outcome) = some (outcome.output.map UInt64.toNat) := by
  have parsed := parse_eq_some_iff.mpr (renders_responseBody req outcome)
  obtain ⟨output, -⟩ := get_responseMembers req outcome
  have numbers : (outcome.output.map outputValue).mapM decimal? =
      some (outcome.output.map UInt64.toNat) := by
    induction outcome.output with
    | nil => rfl
    | cons x xs ih =>
        have first := decimal?_eq_some_iff.mpr (isDecimal_outputValue x)
        simp only [List.map_cons, List.mapM_cons, first, ih]
        rfl
  simp only [readOutput, buildResponseBytes, fromUtf8_utf8, Option.bind_eq_bind, Option.bind_some,
    parsed, output, Value.asArray, numbers]

/-! ## The result -/

theorem serve_requestBody {X : Crates} (accepts : X.AcceptsJson) {direction : Direction}
    {degree : PolyDegreeLog2} {coefficients : List UInt64} {outcome : ComputeOutcome}
    (within : degree.get ≤ 12)
    (computed : computeWasm X.goldilocks X.sha256 .Goldilocks direction degree coefficients =
      .ok outcome) :
    ∃ response,
      serve X ⟨utf8 (requestBody direction degree (coefficients.map UInt64.toNat))⟩ =
        .ok response ∧ readOutput response = some (outcome.output.map UInt64.toNat) := by
  have read := accepts _ _ (renders_requestBody direction degree (coefficients.map UInt64.toNat))
    (isReadable_requestMembers direction degree coefficients)
  exact ⟨_, serve_ok X read (asks_requestMembers direction degree coefficients) within computed,
    readOutput_buildResponseBytes _ outcome⟩

/-- A client that sends the output of one direction back in the other one reads its own
coefficients, reduced slot by slot. -/
theorem serve_round_trip {X : Crates} (accepts : X.AcceptsJson) (exact : X.goldilocks.Exact)
    (direction : Direction) (degree : PolyDegreeLog2) (within : degree.get ≤ 12)
    (coefficients : List UInt64) (length : coefficients.length = 2 ^ degree.get.toNat) :
    ∃ first numbers second,
      serve X ⟨utf8 (requestBody direction degree (coefficients.map UInt64.toNat))⟩ = .ok first ∧
      readOutput first = some numbers ∧
      serve X ⟨utf8 (requestBody (opposite direction) degree numbers)⟩ = .ok second ∧
      readOutput second = some (coefficients.map fun c => c.toNat % goldilocksPrime) := by
  have there := computeWasm_eq exact X.sha256 direction degree coefficients length
  obtain ⟨first, served, numbers⟩ := serve_requestBody accepts within there
  have back := computeWasm_eq exact X.sha256 (opposite direction) degree
    ((transform direction degree.get.toNat
      (X.goldilocks.val (X.goldilocks.twoAdicGenerator degree.get.toNat)) coefficients).map
        canonicalU64) (by simp)
  obtain ⟨second, served', numbers'⟩ := serve_requestBody accepts within back
  refine ⟨first, _, second, served, numbers, served', ?_⟩
  have primitive := generator_primitive exact degree
  rw [numbers', transform_opposite direction primitive coefficients length]
  simp only [List.map_map, Function.comp_def, canonicalU64_residue]

theorem referenceCrates_acceptsJson : referenceCrates.AcceptsJson :=
  fun _ _ renders _ => referenceCrates_fromSlice renders

theorem serve_round_trip_pair :
    ∃ first numbers second,
      serve referenceCrates ⟨utf8 (requestBody .Forward ⟨1, by decide⟩
        (([3, 18446744069414584326] : List UInt64).map UInt64.toNat))⟩ = .ok first ∧
      readOutput first = some numbers ∧
      serve referenceCrates ⟨utf8 (requestBody .Inverse ⟨1, by decide⟩ numbers)⟩ = .ok second ∧
      readOutput second =
        some (([3, 18446744069414584326] : List UInt64).map fun c => c.toNat % goldilocksPrime) :=
  serve_round_trip referenceCrates_acceptsJson referenceGoldilocks_exact .Forward ⟨1, by decide⟩
    (by decide) _ (by decide)

end NttX402.Proof
