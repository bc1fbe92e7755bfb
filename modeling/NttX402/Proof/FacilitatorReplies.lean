import NttX402.Worker.X402
import NttX402.Library.Json.Scan
import NttX402.Proof.ReferenceCrates

namespace NttX402.Proof
open Worker Library Library.Json

/-! ## What the scans find -/

theorem filters_isWhitespace : Filters isWhitespace where
  drops_ws c ws := by
    simp only [isWs, Bool.or_eq_true, decide_eq_true_eq] at ws
    rcases ws with ((rfl | rfl) | rfl) | rfl <;> decide
  keeps_ascii c low high := by
    simp only [isWhitespace, Bool.or_eq_false_iff, Bool.and_eq_false_iff, decide_eq_false_iff_not]
    omega

/-- A member at some depth is written as `key`, for a reader that drops whitespace and does not
see where a literal begins, and it is true. -/
def ReadsTrue (key : String) (v : Value) : Prop :=
  ∃ m ∈ v.members, readsAs isWhitespace key.toList m.1 = true ∧ m.2 = .bool true

/-- The text of the first string member at some depth that is written as `key`, up to its first
quote. -/
def scannedString (key : String) (v : Value) : Option String :=
  (v.members.find? (wanted isWhitespace key.toList Value.isString)).bind fun
    | (_, .string s) =>
      some (String.ofList ((keep isWhitespace (itemsText s)).takeWhile (· ≠ '"')))
    | _ => none

theorem stripWhitespace_toList (s : String) :
    (stripWhitespace s).toList = keep isWhitespace s.toList :=
  String.toList_ofList

theorem extractStringField_eq_afterFirst (text key : String) :
    extractStringField text key =
      (afterFirst (needle key.toList ['"']) text.toList).bind fun tail =>
        (tail.findIdx? (· = '"')).map fun stop => String.ofList (tail.take stop) := by
  have shape : ("\"" ++ key ++ "\":\"").toList = needle key.toList ['"'] := by
    simp [needle]
  simp only [extractStringField, shape, afterFirst]
  cases find? (needle key.toList ['"']) text.toList with
  | none => rfl
  | some start =>
      simp only [Option.bind_eq_bind, Option.bind_some, Option.map_some]
      cases (List.drop _ _).findIdx? _ <;> rfl

section Scans
variable {v : Value} {json : String} (renders : Renders v json.toList)
include renders

theorem contains_iff {key : String} (word : Every isWordChar key.toList)
    {pattern : String} (shape : pattern.toList = needle key.toList "true".toList) :
    contains (stripWhitespace json) pattern = true ↔ ReadsTrue key v := by
  rw [contains, shape, stripWhitespace_toList, find?_true_iff filters_isWhitespace word renders]
  simp only [ReadsTrue, Value.isTrue_iff]

theorem extractStringField_eq (key : String) (word : Every isWordChar key.toList) :
    extractStringField (stripWhitespace json) key = scannedString key v := by
  have scan := afterFirst_string filters_isWhitespace word renders
  rw [extractStringField_eq_afterFirst, stripWhitespace_toList, scannedString]
  split at scan
  · rename_i missing
    simp [scan, missing]
  · rename_i m found
    obtain ⟨s, tail, value, scan⟩ := scan
    obtain ⟨name, value'⟩ := m
    obtain rfl : value' = .string s := value
    have stop := congrArg (Option.map String.ofList)
      (take_findIdx? '"' (keep isWhitespace (itemsText s)) tail)
    rw [Option.map_map, Option.map_some] at stop
    simpa [scan, found, Function.comp_def] using stop

theorem parseVerifyResponse_ok_iff :
    parseVerifyResponse json = .ok () ↔ ReadsTrue "isValid" v := by
  have scan : contains (stripWhitespace json) "\"isValid\":true" = true ↔ ReadsTrue "isValid" v :=
    contains_iff renders (by decide) (by decide)
  rw [← scan, parseVerifyResponse]
  split <;> simp_all

end Scans

/-! ## Verification -/

/-- What is written agrees with what is meant: some member reads as a true `isValid` exactly when
the top-level one is true. -/
structure VerifyInPlain (v : Value) : Prop where
  refused : v.get "isValid" ≠ some (.bool true) → ¬ ReadsTrue "isValid" v
  accepted : v.get "isValid" = some (.bool true) → ReadsTrue "isValid" v

theorem parseVerifyResponse_correct_iff {v : Value} {json : String}
    (renders : Renders v json.toList) :
    (parseVerifyResponse json = .ok () ↔ v.get "isValid" = some (.bool true)) ↔
      VerifyInPlain v := by
  rw [parseVerifyResponse_ok_iff renders]
  constructor
  · intro agree
    exact ⟨fun refused reads => refused (agree.mp reads), agree.mpr⟩
  · intro plain
    exact ⟨fun reads => by_contra fun refused => plain.refused refused reads, plain.accepted⟩

def validReply : Value := .object
  [(literal "isValid", .bool true),
    (literal "invalidReason", .null)]

theorem renders_validReply :
    Renders validReply "\x7b\"isValid\":true,\"invalidReason\":null\x7d".toList :=
  renders_of_compact (by decide)

theorem parseVerifyResponse_correct_iff_valid :
    (parseVerifyResponse "\x7b\"isValid\":true,\"invalidReason\":null\x7d" = .ok () ↔
      validReply.get "isValid" = some (.bool true)) ↔ VerifyInPlain validReply :=
  parseVerifyResponse_correct_iff renders_validReply

def echoedRefusal : Value := .object
  [(literal "isValid", .bool false),
    (literal "payload", .object
      [(literal "isValid", .bool true)])]

theorem parseVerifyResponse_echo :
    let json := "\x7b\"isValid\":false,\"payload\":\x7b\"isValid\":true\x7d\x7d"
    Renders echoedRefusal json.toList ∧ echoedRefusal.distinctNames = true ∧
      echoedRefusal.get "isValid" = some (.bool false) ∧ parseVerifyResponse json = .ok () :=
  ⟨renders_of_compact (by decide), by decide, rfl, rfl⟩

/-! ## Settlement -/

def Names (X : Crates) (s : String) (tx : PaymentTxHash) : Prop :=
  X.bs58Decode s = .ok tx.asBytes.toList

/-- What the top level of a reply says: the payment is settled, by transaction `tx`. -/
def Settles (X : Crates) (v : Value) (tx : PaymentTxHash) : Prop :=
  v.get "success" = some (.bool true) ∧
    ∃ s, (v.get "transaction").bind Value.asStr = some s ∧ Names X s tx

theorem decodeSolanaSignature_ok_iff (X : Crates) (s : String) (signature : Vector UInt8 64) :
    decodeSolanaSignature X s = .ok signature ↔ Names X s ⟨signature⟩ := by
  unfold decodeSolanaSignature Names
  cases X.bs58Decode s with
  | error e => simp
  | ok bytes =>
      simp only [Except.ok.injEq]
      split
      · rename_i size
        rw [Except.ok.injEq]
        constructor
        · rintro rfl
          rfl
        · rintro rfl
          rfl
      · rename_i size
        simp only [reduceCtorEq, false_iff]
        rintro rfl
        simp at size

theorem Names.unique {X : Crates} {s : String} {tx tx' : PaymentTxHash} (one : Names X s tx)
    (two : Names X s tx') : tx = tx' := by
  have bytes : tx.asBytes.toList = tx'.asBytes.toList := Except.ok.inj (one.symm.trans two)
  obtain ⟨tx⟩ := tx
  obtain ⟨tx'⟩ := tx'
  exact congrArg PaymentTxHash.mk (Vector.toList_inj.mp bytes)

theorem parseSettleResponse_ok_iff {v : Value} {json : String} (renders : Renders v json.toList)
    (X : Crates) (tx : PaymentTxHash) :
    parseSettleResponse X json = .ok tx ↔
      ReadsTrue "success" v ∧ ∃ s, scannedString "transaction" v = some s ∧ Names X s tx := by
  have scan : contains (stripWhitespace json) "\"success\":true" = true ↔ ReadsTrue "success" v :=
    contains_iff renders (by decide) (by decide)
  have field := extractStringField_eq renders "transaction" (by decide)
  rw [← scan, ← field, parseSettleResponse]
  split
  · rename_i success
    cases extractStringField (stripWhitespace json) "transaction" with
    | none => simp
    | some s =>
        have signature := decodeSolanaSignature_ok_iff X s tx.asBytes
        cases decoded : decodeSolanaSignature X s with
        | error e => simp_all [Except.map]
        | ok bytes =>
            simp only [success, true_and, Option.some.injEq, exists_eq_left']
            rw [← signature, decoded]
            obtain ⟨tx⟩ := tx
            simp [Except.map]
  · rename_i failure
    simp [failure]

/-- What is written agrees with what is meant: if the top level is a settlement, some member reads
as a true `success` and the first string that reads as `transaction` names the same signature; if
it is not, then no member does or that string names no signature. -/
structure SettleInPlain (X : Crates) (v : Value) : Prop where
  refused : (∀ tx, ¬ Settles X v tx) → ReadsTrue "success" v →
    ∀ s, scannedString "transaction" v = some s → ∀ tx, ¬ Names X s tx
  settled : ∀ tx, Settles X v tx →
    ReadsTrue "success" v ∧ ∃ s, scannedString "transaction" v = some s ∧ Names X s tx

theorem parseSettleResponse_of_plain {X : Crates} {v : Value} {json : String}
    (renders : Renders v json.toList) (plain : SettleInPlain X v) (tx : PaymentTxHash) :
    parseSettleResponse X json = .ok tx ↔ Settles X v tx := by
  rw [parseSettleResponse_ok_iff renders]
  refine ⟨?_, plain.settled tx⟩
  rintro ⟨reads, s, scanned, named⟩
  by_cases settles : ∃ tx', Settles X v tx'
  · obtain ⟨tx', settles⟩ := settles
    obtain ⟨-, s', scanned', named'⟩ := plain.settled tx' settles
    obtain rfl := Option.some.inj (scanned.symm.trans scanned')
    rwa [named.unique named']
  · exact absurd named (plain.refused (not_exists.mp settles) reads s scanned tx)

theorem parseSettleResponse_correct_iff (X : Crates) {v : Value} {json : String}
    (renders : Renders v json.toList) :
    (∀ tx, parseSettleResponse X json = .ok tx ↔ Settles X v tx) ↔ SettleInPlain X v := by
  constructor
  · intro agree
    simp only [parseSettleResponse_ok_iff renders] at agree
    refine ⟨fun refused reads s scanned tx named => ?_, fun tx => (agree tx).mpr⟩
    exact refused tx ((agree tx).mp ⟨reads, s, scanned, named⟩)
  · intro plain
    exact parseSettleResponse_of_plain renders plain

/-- The Base58 text of 64 zero bytes. -/
def zeroSignature : String := "1111111111111111111111111111111111111111111111111111111111111111"

def zeroTx : PaymentTxHash := ⟨Vector.replicate 64 0⟩

theorem names_zeroSignature : Names referenceCrates zeroSignature zeroTx := by
  have digits : rebase 256 58 (List.replicate 64 0) = List.replicate 64 0 := by
    simpa using @rebase_zeros 256 58 64 [] (by simp)
  have text : base58Text (List.replicate 64 0) = zeroSignature := by
    rw [base58Text, List.map_replicate, show UInt8.toNat 0 = 0 from rfl, digits,
      List.map_replicate]
    rfl
  simp only [Names, referenceCrates, ← text, base58Bytes_base58Text, orError]
  rfl

def settledReply : Value := .object
  [(literal "success", .bool true),
    (literal "transaction",
      .string (literal zeroSignature)),
    (literal "network", .string (literal "solana"))]

def settledText : String :=
  "\x7b\"success\":true,\"transaction\":\"" ++
    "1111111111111111111111111111111111111111111111111111111111111111" ++
    "\",\"network\":\"solana\"\x7d"

set_option maxRecDepth 2000 in
theorem renders_settledReply : Renders settledReply settledText.toList :=
  renders_of_compact (by decide)

theorem parseSettleResponse_settledText :
    parseSettleResponse referenceCrates settledText = .ok zeroTx :=
  (parseSettleResponse_ok_iff renders_settledReply _ _).mpr
    ⟨⟨_, List.mem_cons_self, by decide, rfl⟩, zeroSignature, by decide, names_zeroSignature⟩

theorem settles_settledReply (tx : PaymentTxHash) :
    Settles referenceCrates settledReply tx ↔ tx = zeroTx := by
  have stated : (settledReply.get "transaction").bind Value.asStr = some zeroSignature := by decide
  constructor
  · rintro ⟨-, s, transaction, named⟩
    obtain rfl := Option.some.inj (stated.symm.trans transaction)
    exact named.unique names_zeroSignature
  · rintro rfl
    exact ⟨rfl, zeroSignature, stated, names_zeroSignature⟩

theorem settledReply_inPlain : SettleInPlain referenceCrates settledReply where
  refused never := absurd ((settles_settledReply zeroTx).mpr rfl) (never zeroTx)
  settled tx settles := by
    rw [(settles_settledReply tx).mp settles]
    exact (parseSettleResponse_ok_iff renders_settledReply _ _).mp parseSettleResponse_settledText

theorem parseSettleResponse_correct_iff_settled :
    (∀ tx, parseSettleResponse referenceCrates settledText = .ok tx ↔
      Settles referenceCrates settledReply tx) ↔ SettleInPlain referenceCrates settledReply :=
  parseSettleResponse_correct_iff referenceCrates renders_settledReply

def echoedFailure : Value := .object
  [(literal "success", .bool false),
    (literal "payload", .object
      [(literal "success", .bool true),
        (literal "transaction",
          .string (literal zeroSignature))])]

def echoedFailureText : String :=
  "\x7b\"success\":false,\"payload\":\x7b\"success\":true,\"transaction\":\"" ++
    "1111111111111111111111111111111111111111111111111111111111111111\"\x7d\x7d"

set_option maxRecDepth 2000 in
theorem parseSettleResponse_echo :
    Renders echoedFailure echoedFailureText.toList ∧ echoedFailure.distinctNames = true ∧
      echoedFailure.get "success" = some (.bool false) ∧
      parseSettleResponse referenceCrates echoedFailureText = .ok zeroTx := by
  have renders : Renders echoedFailure echoedFailureText.toList := renders_of_compact (by decide)
  refine ⟨renders, by decide, rfl, (parseSettleResponse_ok_iff renders _ _).mpr ⟨?_, ?_⟩⟩
  · exact ⟨_, List.mem_cons_of_mem _ (List.mem_cons_of_mem _ (List.mem_cons_self ..)),
      by decide, rfl⟩
  · exact ⟨zeroSignature, by decide, names_zeroSignature⟩

end NttX402.Proof
