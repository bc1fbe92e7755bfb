import NttX402.Proof.ServedRoundTrip

namespace NttX402.Proof
open Worker Library Library.Json

/-! ## What is read of a request -/

def requestKeys : List String := ["field", "direction", "degree_log2", "coefficients"]

theorem parseValue_congr {v w : Value} (same : ∀ key ∈ requestKeys, v.get key = w.get key) :
    parseValue v = parseValue w := by
  have field : v.get "field" = w.get "field" := same _ (by simp [requestKeys])
  have direction : v.get "direction" = w.get "direction" := same _ (by simp [requestKeys])
  have degree : v.get "degree_log2" = w.get "degree_log2" := same _ (by simp [requestKeys])
  have coefficients : v.get "coefficients" = w.get "coefficients" := same _ (by simp [requestKeys])
  simp only [parseValue, parseField, parseDirection, parseDegree, parseCoefficients, field,
    direction, degree, coefficients]

theorem serve_congr {X : Crates} {body body' : List UInt8} {v w : Value}
    (read : X.fromSlice body = .ok v) (read' : X.fromSlice body' = .ok w)
    (same : parseValue v = parseValue w) : serve X ⟨body⟩ = serve X ⟨body'⟩ := by
  have parsed : parseRequest X body = parseRequest X body' := by
    simp only [parseRequest, read, read']
    exact congrArg (Except.mapError Error.parse) same
  simp only [serve, parseAndQuote, parsed]

theorem value_of_accepted {X : Crates} (reads : X.ReadsJson) {text : String} {v w : Value}
    (renders : Renders v text.toList) (accepted : X.fromSlice (utf8 text) = .ok w) : w = v := by
  obtain ⟨text', same, renders'⟩ := reads _ w accepted
  obtain rfl := utf8_injective same
  exact renders'.unique renders

/-! ## Members in any order -/

section Reordered
variable {members others : List (List Item × Value)} {extra : List (List Item × Value)}
  (reordered : others.Perm (members ++ extra))
  (distinct : (others.map fun m => decode m.1).Nodup)
include reordered distinct

theorem lookup_reordered {key : String} (absent : ∀ m ∈ extra, decode m.1 ≠ some key) :
    lookup others key = lookup members key := by
  have whole : ((members ++ extra).map fun m => decode m.1).Nodup :=
    (reordered.map _).nodup_iff.mp distinct
  rw [List.map_append] at whole
  have distinct' : (members.map fun m => decode m.1).Nodup := (List.nodup_append.mp whole).1
  ext v
  rw [lookup_eq_some_iff distinct, lookup_eq_some_iff distinct']
  constructor
  · rintro ⟨m, member, name, value⟩
    rcases List.mem_append.mp (reordered.mem_iff.mp member) with inside | added
    · exact ⟨m, inside, name, value⟩
    · exact absurd name (absent m added)
  · rintro ⟨m, member, name, value⟩
    exact ⟨m, reordered.mem_iff.mpr (List.mem_append_left _ member), name, value⟩

/-- Where `serde_json` accepts two texts, both are answered alike, in error too: however they are
laid out, in whatever order their members stand, and whatever others one has besides. -/
theorem serve_insensitive {X : Crates} (reads : X.ReadsJson)
    (unread : ∀ m ∈ extra, ∀ key ∈ requestKeys, decode m.1 ≠ some key) {text text' : String}
    (renders : Renders (.object members) text.toList)
    (renders' : Renders (.object others) text'.toList) {v w : Value}
    (accepted : X.fromSlice (utf8 text) = .ok v) (accepted' : X.fromSlice (utf8 text') = .ok w) :
    serve X ⟨utf8 text⟩ = serve X ⟨utf8 text'⟩ := by
  obtain rfl := value_of_accepted reads renders accepted
  obtain rfl := value_of_accepted reads renders' accepted'
  apply serve_congr accepted accepted'
  apply parseValue_congr
  intro key read
  exact (lookup_reordered reordered distinct fun m added => unread m added key read).symm

end Reordered

/-! ## A request written otherwise -/

/-- A fraction is added, which no field of a request may be. -/
def spreadMembers : List (List Item × Value) :=
  [(literal "note", .number ⟨['-', '1', '.', '5'], by decide⟩),
    (literal "coefficients", .array [.number (Number.ofNat 1), .number (Number.ofNat 2)]),
    (literal "degree_log2", .number (Number.ofNat 1)),
    (literal "direction", .string (literal (directionTag .Forward))),
    (literal "field", .string (literal (fieldTag .Goldilocks)))]

def spreadBody : String :=
  "\x7b \"note\": -1.5, \"coefficients\": [1, 2],\n  \"degree_log2\": 1, " ++
    "\"direction\": \"Forward\",\n  \"field\": \"Goldilocks\" \x7d\n"

set_option maxRecDepth 4000 in
theorem renders_spreadBody : Renders (.object spreadMembers) spreadBody.toList :=
  lex_eq_some_iff.mp (by decide)

theorem serve_insensitive_pair : ∃ response,
    serve referenceCrates ⟨utf8 pairBody⟩ = .ok response ∧
    serve referenceCrates ⟨utf8 pairBody⟩ = serve referenceCrates ⟨utf8 spreadBody⟩ := by
  obtain ⟨response, served⟩ := serve_pairBody
  have reversed : spreadMembers.Perm (spreadMembers.tail.reverse ++ spreadMembers.take 1) :=
    (List.reverse_perm _).symm
  refine ⟨response, served, serve_insensitive reversed (by decide) referenceCrates_readsJson
    (fun m added => ?_) renders_pairBody renders_spreadBody fromSlice_pairBody
    (referenceCrates_fromSlice renders_spreadBody)⟩
  rw [List.mem_singleton.mp added]
  decide

end NttX402.Proof
