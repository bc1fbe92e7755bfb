import NttX402.Proof.Serve
import NttX402.Library.Hex

namespace NttX402.Proof
open Worker Library Library.Json

/-! ## The texts of a response -/

theorem isPlain_of_isDigit {c : Char} (digit : c.isDigit = true) : isPlain c = true := by
  simp only [Char.isDigit, Bool.and_eq_true, decide_eq_true_eq] at digit
  have bounds : 48 ≤ c.toNat ∧ c.toNat ≤ 57 := digit
  have notQuote : c ≠ '"' := by
    rintro rfl
    revert bounds
    decide
  have notBackslash : c ≠ '\\' := by
    rintro rfl
    revert bounds
    decide
  simp only [isPlain, notQuote, notBackslash, ne_eq, not_false_eq_true, decide_true,
    Bool.true_and, decide_eq_true_eq]
  omega

theorem toString_toList (x : UInt64) : (toString x).toList = Nat.toDigits 10 x.toNat :=
  Nat.toList_repr

theorem plain_toString (x : UInt64) : Every isPlain (toString x).toList := by
  intro c member
  rw [toString_toList] at member
  exact isPlain_of_isDigit (Nat.isDigit_of_mem_toDigits (by decide) (by decide) member)

def hexDigit (n : Nat) : Char := nibbleToHex (UInt8.ofNat n)

theorem lowerHex?_hexDigit : ∀ n < 16, lowerHex? (hexDigit n) = some n := by decide

theorem isPlain_hexDigit : ∀ n < 16, isPlain (hexDigit n) = true := by decide

theorem hexEncode_toList (bytes : List UInt8) : (hexEncode bytes).toList =
    bytes.flatMap fun byte => [hexDigit (byte.toNat / 16), hexDigit (byte.toNat % 16)] := by
  have nibbles (byte : UInt8) : byte >>> 4 = UInt8.ofNat (byte.toNat / 16) ∧
      byte &&& 0xf = UInt8.ofNat (byte.toNat % 16) := by
    have bound := byte.toNat_lt
    constructor
    · apply UInt8.toNat_inj.mp
      rw [UInt8.toNat_ofNat_of_lt' (by change _ < 256; omega)]
      simp [Nat.shiftRight_eq_div_pow]
    · apply UInt8.toNat_inj.mp
      rw [UInt8.toNat_ofNat_of_lt' (by change _ < 256; omega)]
      exact Nat.and_two_pow_sub_one_eq_mod byte.toNat 4
  rw [hexEncode, String.toList_ofList]
  refine List.flatMap_congr fun byte _ => ?_
  rw [(nibbles byte).1, (nibbles byte).2]
  rfl

theorem plain_hexEncode (bytes : List UInt8) :
    Every isPlain (hexEncode bytes).toList := by
  intro c member
  rw [hexEncode_toList] at member
  obtain ⟨byte, -, pair⟩ := List.mem_flatMap.mp member
  have bound := byte.toNat_lt
  rcases List.mem_cons.mp pair with rfl | rest
  · exact isPlain_hexDigit _ (by omega)
  · rw [List.mem_singleton.mp rest]
    exact isPlain_hexDigit _ (by omega)

theorem unhex_hexEncode (bytes : List UInt8) : unhex (hexEncode bytes).toList = some bytes := by
  rw [hexEncode_toList]
  induction bytes with
  | nil => rfl
  | cons byte bytes ih =>
      rw [List.flatMap_cons, List.cons_append, List.cons_append, List.nil_append,
        unhex_pair lowerHex?_hexDigit, ih, Option.map_some]

theorem length_hexEncode (bytes : List UInt8) :
    (hexEncode bytes).toList.length = 2 * bytes.length := by
  rw [hexEncode_toList]
  induction bytes with
  | nil => rfl
  | cons byte bytes ih => simp only [List.flatMap_cons, List.length_append, ih]; simp; omega

theorem plain_backendTag (b : Backend) : Every isPlain (backendTag b).toList := by
  cases b <;> simp only [backendTag] <;> decide

theorem plain_fieldTag (f : Field) : Every isPlain (fieldTag f).toList := by
  cases f <;> decide

theorem plain_directionTag (d : Direction) :
    Every isPlain (directionTag d).toList := by
  cases d <;> decide

/-! ## The value of a response -/

def outputValue (x : UInt64) : Value := .string (literal (toString x))

def responseMembers (req : NttRequest) (outcome : ComputeOutcome) : List (List Item × Value) :=
  [(literal "output", .array (outcome.output.map outputValue)),
    (literal "proof_of_execution", .string (literal (hexEncode outcome.proof.asBytes.toList))),
    (literal "backend", .string (literal (backendTag outcome.backend))),
    (literal "field", .string (literal (fieldTag req.field))),
    (literal "direction", .string (literal (directionTag req.direction))),
    (literal "degree_log2", .number (Number.ofNat req.degreeLog2.get.toNat))]

theorem compact_string (s : List Item) :
    (Value.string s).compact = '"' :: (itemsText s ++ ['"']) := by
  simp [Value.compact, Value.tokens, Token.text]

theorem compact_number (n : Nat) : (Value.number (Number.ofNat n)).compact = Nat.toDigits 10 n := by
  simp [Value.compact, Value.tokens, Token.text, Number.ofNat]

theorem responseBody_toList (req : NttRequest) (outcome : ComputeOutcome) :
    (responseBody req outcome).toList = (Value.object (responseMembers req outcome)).compact := by
  have degree : (toString req.degreeLog2.get).toList =
      Nat.toDigits 10 req.degreeLog2.get.toNat := Nat.toList_repr
  have outputs : (",".intercalate (outcome.output.map fun x => "\"" ++ toString x ++ "\"")).toList =
      [','].intercalate ((outcome.output.map outputValue).map Value.compact) := by
    rw [String.toList_intercalate, List.map_map, List.map_map]
    congr 1
    refine List.map_congr_left fun x _ => ?_
    simp [outputValue, compact_string, itemsText_literal (plain_toString x)]
  unfold responseBody
  dsimp only
  simp (disch := decide) only [compact_object, responseMembers, List.map_cons, List.map_nil,
    memberText_literal, compact_array, compact_string, compact_number,
    itemsText_literal (plain_hexEncode _), itemsText_literal (plain_backendTag _),
    itemsText_literal (plain_fieldTag _), itemsText_literal (plain_directionTag _), ← outputs,
    ← degree, List.intercalate_cons_cons, List.intercalate_singleton, String.toList_append,
    List.append_assoc, List.cons_append, List.nil_append]
  rfl

theorem renders_responseBody (req : NttRequest) (outcome : ComputeOutcome) :
    Renders (.object (responseMembers req outcome)) (responseBody req outcome).toList :=
  renders_of_compact (responseBody_toList req outcome).symm

/-! ## Checking a response -/

/-- The 8 bytes of a number, least significant first. -/
def littleEndian (n : Nat) : List UInt8 := (List.range 8).map fun i => UInt8.ofNat (n / 256 ^ i)

theorem toLeBytes_eq (x : UInt64) : toLeBytes x = littleEndian x.toNat := by
  have byte (i : Nat) (shift : UInt64) (exponent : shift.toNat % 64 = 8 * i) :
      (x >>> shift).toUInt8 = UInt8.ofNat (x.toNat / 256 ^ i) := by
    apply UInt8.toNat_inj.mp
    rw [UInt64.toNat_toUInt8, UInt64.toNat_shiftRight, exponent, Nat.shiftRight_eq_div_pow,
      pow_mul]
    simp
  have first : x.toUInt8 = UInt8.ofNat (x.toNat / 256 ^ 0) := by simp
  simp only [littleEndian, List.range, List.range.loop, List.map_cons, List.map_nil, toLeBytes,
    first, byte 1 8 rfl, byte 2 16 rfl, byte 3 24 rfl, byte 4 32 rfl, byte 5 40 rfl,
    byte 6 48 rfl, byte 7 56 rfl]

def IsDecimal (v : Value) (n : Nat) : Prop :=
  ∃ s, v.asStr = some s ∧ s.toList ≠ [] ∧ (∀ c ∈ s.toList, c.isDigit = true) ∧
    Nat.ofDigitChars 10 s.toList 0 = n

theorem isDecimal_outputValue (x : UInt64) : IsDecimal (outputValue x) x.toNat := by
  refine ⟨toString x, decode_literal _, ?_⟩
  rw [toString_toList]
  exact ⟨Nat.toDigits_ne_nil,
    fun c member => Nat.isDigit_of_mem_toDigits (by decide) (by decide) member,
    Nat.ofDigitChars_toDigits (by decide) (by decide)⟩

/-- What a client can check on a response without trusting the worker: it answers `req`, its output
is `numbers`, and the proof is the digest of exactly that. -/
structure SelfChecking (sha256 : List UInt8 → Vector UInt8 32) (req : NttRequest) (v : Value)
    (numbers : List Nat) : Prop where
  field : (v.get "field").bind Value.asStr = some (fieldTag req.field)
  direction : (v.get "direction").bind Value.asStr = some (directionTag req.direction)
  degree : ∃ literal, v.get "degree_log2" = some literal ∧
    IsLiteral literal req.degreeLog2.get.toNat
  output : ∃ elements, v.get "output" = some (.array elements) ∧
    List.Forall₂ IsDecimal elements numbers
  length : numbers.length = 2 ^ req.degreeLog2.get.toNat
  canonical : ∀ n ∈ numbers, n < goldilocksPrime
  proof : ∃ hex, (v.get "proof_of_execution").bind Value.asStr = some hex ∧
    hex.toList.length = 64 ∧
    unhex hex.toList = some (sha256 ([(FieldTag.ofField req.field).toU8,
      (DirectionTag.ofDirection req.direction).toU8, req.degreeLog2.get] ++
        numbers.flatMap littleEndian)).toList

theorem get_responseMembers (req : NttRequest) (outcome : ComputeOutcome) :
    let v := Value.object (responseMembers req outcome)
    v.get "output" = some (.array (outcome.output.map outputValue)) ∧
      (v.get "proof_of_execution").bind Value.asStr =
        some (hexEncode outcome.proof.asBytes.toList) ∧
      (v.get "backend").bind Value.asStr = some (backendTag outcome.backend) ∧
      (v.get "field").bind Value.asStr = some (fieldTag req.field) ∧
      (v.get "direction").bind Value.asStr = some (directionTag req.direction) ∧
      v.get "degree_log2" = some (.number (Number.ofNat req.degreeLog2.get.toNat)) := by
  simp [Value.get, lookup, responseMembers, Value.asStr]

theorem transcript_eq (field : Field) (direction : Direction) (degree : PolyDegreeLog2)
    (output : List UInt64) : transcript field direction degree output =
      [(FieldTag.ofField field).toU8, (DirectionTag.ofDirection direction).toU8, degree.get] ++
        (output.map UInt64.toNat).flatMap littleEndian := by
  rw [transcript, List.flatMap_map]
  congr 1
  exact List.flatMap_congr fun x _ => toLeBytes_eq x

theorem computeWasm_ok_inv {G : P3Goldilocks} (exact : G.Exact)
    {sha256 : List UInt8 → Vector UInt8 32} {field : Field} {direction : Direction}
    {degree : PolyDegreeLog2} {coefficients : List UInt64} {outcome : ComputeOutcome}
    (computed : computeWasm G sha256 field direction degree coefficients = .ok outcome) :
    field = .Goldilocks ∧ coefficients.length = 2 ^ degree.get.toNat ∧
      outcome.output = (transform direction degree.get.toNat
        (G.val (G.twoAdicGenerator degree.get.toNat)) coefficients).map canonicalU64 ∧
      outcome.proof = computeProof sha256 field direction degree outcome.output := by
  rcases computeWasm_result exact sha256 field direction degree coefficients with
    ⟨-, -, rfl, length⟩ | ⟨b, failed, -⟩
  · rw [computeWasm_eq exact sha256 direction degree coefficients length] at computed
    obtain rfl := Except.ok.inj computed
    exact ⟨rfl, length, rfl, rfl⟩
  · rw [computed] at failed
    cases failed

theorem computeWasm_outcome {G : P3Goldilocks} (exact : G.Exact)
    {sha256 : List UInt8 → Vector UInt8 32} {field : Field} {direction : Direction}
    {degree : PolyDegreeLog2} {coefficients : List UInt64} {outcome : ComputeOutcome}
    (computed : computeWasm G sha256 field direction degree coefficients = .ok outcome) :
    outcome.output.length = 2 ^ degree.get.toNat ∧
      (∀ x ∈ outcome.output, x.toNat < goldilocksPrime) ∧
      outcome.proof = computeProof sha256 field direction degree outcome.output := by
  obtain ⟨-, -, output, proof⟩ := computeWasm_ok_inv exact computed
  refine ⟨by simp [output], ?_, proof⟩
  rw [output]
  intro x member
  obtain ⟨a, -, rfl⟩ := List.mem_map.mp member
  rw [canonicalU64_toNat]
  exact ZMod.val_lt a

/-- The response to an accepted body is a JSON object that answers the request of the body, and
everything in it can be checked. -/
theorem serve_self_checking {X : Crates} (reads : X.ReadsJson) (exact : X.goldilocks.Exact)
    {body : List UInt8} {response : ResponseBytes} (served : serve X ⟨body⟩ = .ok response) :
    ∃ v req text members numbers, Reads X body v ∧ Asks v req ∧ response.asSlice = utf8 text ∧
      Renders (.object members) text.toList ∧
      SelfChecking X.sha256 req (.object members) numbers := by
  obtain ⟨v, req, outcome, read, asks, -, computed, rfl⟩ := serve_ok_inv X served
  obtain ⟨length, canonical, proof⟩ := computeWasm_outcome exact computed
  obtain ⟨output, digest, -, field, direction, degree⟩ := get_responseMembers req outcome
  refine ⟨v, req, responseBody req outcome, responseMembers req outcome,
    outcome.output.map UInt64.toNat, (reads_iff reads).mpr read, asks, rfl,
    renders_responseBody req outcome, ?_⟩
  exact {
    field := field
    direction := direction
    degree := ⟨_, degree, _, rfl, Number.natural?_ofNat _⟩
    output := by
      refine ⟨_, output, ?_⟩
      rw [List.forall₂_map_left_iff, List.forall₂_map_right_iff, List.forall₂_same]
      exact fun x _ => isDecimal_outputValue x
    length := by rw [List.length_map, length]
    canonical := by
      intro n member
      obtain ⟨x, inOutput, rfl⟩ := List.mem_map.mp member
      exact canonical x inOutput
    proof := by
      refine ⟨_, digest, by simp [length_hexEncode], ?_⟩
      rw [unhex_hexEncode, proof, computeProof, transcript_eq] }

theorem serve_self_checking_pair :
    ∃ response, serve referenceCrates ⟨utf8 pairBody⟩ = .ok response ∧
      ∃ v req text members numbers, Reads referenceCrates (utf8 pairBody) v ∧ Asks v req ∧
        response.asSlice = utf8 text ∧ Renders (.object members) text.toList ∧
        SelfChecking referenceCrates.sha256 req (.object members) numbers := by
  obtain ⟨response, served⟩ := serve_pairBody
  exact ⟨response, served,
    serve_self_checking referenceCrates_readsJson referenceGoldilocks_exact served⟩

end NttX402.Proof
