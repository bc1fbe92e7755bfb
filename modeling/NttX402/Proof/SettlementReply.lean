import NttX402.Proof.PaymentTerms

namespace NttX402.Proof
open Worker Library Library.Json

/-! ## Replies in the facilitator's own shape -/

/-- The literal is a text without whitespace, each character of it written as itself. -/
def PlainlyWritten (s : List Item) : Prop :=
  ∃ text, s = literal text ∧ Every isPlain text.toList ∧
    Every (fun c => !isWhitespace c) text.toList

/-- Members of distinct names and scalar values. The names and the transaction are plainly written;
other strings may hold anything. -/
structure FlatReply (members : List (List Item × Value)) : Prop where
  distinct : (members.map fun m => decode m.1).Nodup
  scalar : ∀ m ∈ members, m.2.isScalar = true
  names : ∀ m ∈ members, PlainlyWritten m.1
  transaction : ∀ m ∈ members, decode m.1 = some "transaction" →
    ∀ s, m.2 = .string s → PlainlyWritten s

theorem PlainlyWritten.readsAs_iff {name : List Item} (written : PlainlyWritten name)
    (key : String) : readsAs isWhitespace key.toList name = true ↔ decode name = some key := by
  obtain ⟨text, rfl, plain, kept⟩ := written
  rw [readsAs_literal_iff isWhitespace plain kept, decode_literal, Option.some.injEq]

theorem PlainlyWritten.scanned_eq {s : List Item} (written : PlainlyWritten s) :
    some (String.ofList ((keep isWhitespace (itemsText s)).takeWhile (· ≠ '"'))) = decode s := by
  obtain ⟨text, rfl, plain, kept⟩ := written
  have noQuote : text.toList.takeWhile (· ≠ '"') = text.toList := by
    rw [List.takeWhile_eq_self_iff]
    intro c member
    have valid := plain c member
    simp only [isPlain, Bool.and_eq_true] at valid
    exact valid.1.1
  rw [itemsText_literal plain, keep_of_kept isWhitespace kept, noQuote, String.ofList_toList,
    decode_literal]

namespace FlatReply
variable {members : List (List Item × Value)} (flat : FlatReply members)
include flat

theorem members_eq : (Value.object members).members = members :=
  objectMembers_of_scalars flat.scalar

theorem get_eq_some_iff {key : String} {v : Value} :
    (Value.object members).get key = some v ↔ ∃ m ∈ members, decode m.1 = some key ∧ m.2 = v :=
  lookup_eq_some_iff flat.distinct

theorem readsTrue_iff (key : String) :
    ReadsTrue key (.object members) ↔ (Value.object members).get key = some (.bool true) := by
  rw [ReadsTrue, flat.members_eq, flat.get_eq_some_iff]
  constructor
  · rintro ⟨m, member, reads, value⟩
    exact ⟨m, member, ((flat.names m member).readsAs_iff key).mp reads, value⟩
  · rintro ⟨m, member, name, value⟩
    exact ⟨m, member, ((flat.names m member).readsAs_iff key).mpr name, value⟩

theorem wanted_iff {m : List Item × Value} (member : m ∈ members) (key : String) :
    wanted isWhitespace key.toList Value.isString m = true ↔
      decode m.1 = some key ∧ ∃ s, m.2 = .string s := by
  rw [wanted, Bool.and_eq_true, (flat.names m member).readsAs_iff, Value.isString_iff]

theorem scannedString_eq : scannedString "transaction" (.object members) =
    ((Value.object members).get "transaction").bind Value.asStr := by
  rw [scannedString, flat.members_eq]
  cases found : members.find? (wanted isWhitespace "transaction".toList Value.isString) with
  | some m =>
      have member := List.mem_of_find?_eq_some found
      obtain ⟨name, s, string⟩ := (flat.wanted_iff member _).mp (List.find?_some found)
      -- Names are distinct, so the first string under this name is the member itself.
      rw [flat.get_eq_some_iff.mpr ⟨m, member, name, string⟩]
      obtain ⟨written, value⟩ := m
      obtain rfl : value = .string s := string
      exact (flat.transaction _ member name s rfl).scanned_eq
  | none =>
      -- A member of this name is then no string, and `asStr` passes over it as the scan does.
      cases get : (Value.object members).get "transaction" with
      | none => rfl
      | some v =>
          obtain ⟨m, member, name, rfl⟩ := flat.get_eq_some_iff.mp get
          have unwanted := mt (flat.wanted_iff member _).mpr (List.find?_eq_none.mp found m member)
          cases value : m.2 with
          | string s => exact absurd ⟨name, s, value⟩ unwanted
          | _ => rfl

theorem parseSettleResponse_ok_iff_settles (X : Crates) {json : String}
    (renders : Renders (.object members) json.toList) (tx : PaymentTxHash) :
    parseSettleResponse X json = .ok tx ↔ Settles X (.object members) tx := by
  rw [parseSettleResponse_ok_iff renders, flat.readsTrue_iff, flat.scannedString_eq, Settles]

theorem isPlain_transaction {s : String}
    (stated : ((Value.object members).get "transaction").bind Value.asStr = some s) :
    Every isPlain s.toList := by
  obtain ⟨v, get, text⟩ := Option.bind_eq_some_iff.mp stated
  obtain ⟨m, member, name, rfl⟩ := flat.get_eq_some_iff.mp get
  cases value : m.2 with
  | string items =>
      obtain ⟨text', rfl, plain, -⟩ := flat.transaction m member name items value
      have same : text' = s := by simpa [value, Value.asStr] using text
      exact same ▸ plain
  | _ =>
      rw [value] at text
      cases text

end FlatReply

/-! ## The result -/

/-- The top level reports a success and a transaction, the Base58 text of 64 bytes. -/
def Confirms (X : Crates) (v : Value) (s : String) : Prop :=
  v.get "success" = some (.bool true) ∧ (v.get "transaction").bind Value.asStr = some s ∧
    ∃ bytes, X.bs58Decode s = .ok bytes ∧ bytes.length = 64

theorem exists_settles_iff (X : Crates) (v : Value) :
    (∃ tx, Settles X v tx) ↔ ∃ s, Confirms X v s := by
  constructor
  · rintro ⟨tx, success, s, stated, named⟩
    exact ⟨s, success, stated, tx.asBytes.toList, named, Vector.length_toList⟩
  · rintro ⟨s, success, stated, bytes, decoded, size⟩
    exact ⟨⟨bytes.toArray, size⟩, success, s, stated, decoded⟩

theorem paymentResponseValue_of_names {X : Crates}
    (encodes : ∀ s bytes, X.bs58Decode s = .ok bytes → X.bs58Encode bytes = s) {s : String}
    {tx : PaymentTxHash} (named : Names X s tx) :
    paymentResponseValue X tx =
      "\x7b\"network\":\"solana\",\"transaction\":\"" ++ s ++ "\"\x7d" := by
  unfold paymentResponseValue
  simp only [encodes s _ named]

/-- A reply in the facilitator's own shape is read as what it says, and a buyer is told the very
transaction that it states. -/
theorem flat_reply_settles {X : Crates}
    (encodes : ∀ s bytes, X.bs58Decode s = .ok bytes → X.bs58Encode bytes = s)
    {members : List (List Item × Value)} (flat : FlatReply members) {json : String}
    (renders : Renders (.object members) json.toList) :
    (∀ s, Confirms X (.object members) s →
      ∃ tx, parseSettleResponse X json = .ok tx ∧
        paymentResponseValue X tx =
          "\x7b\"network\":\"solana\",\"transaction\":\"" ++ s ++ "\"\x7d" ∧
        ∃ w, Renders w (paymentResponseValue X tx).toList ∧
          (w.get "transaction").bind Value.asStr = some s) ∧
    ((∀ s, ¬Confirms X (.object members) s) →
      ∃ detail, parseSettleResponse X json = .error (.settlement (.settleRejected detail))) := by
  have reads := flat.parseSettleResponse_ok_iff_settles X renders
  constructor
  · rintro s ⟨success, stated, bytes, decoded, size⟩
    let tx : PaymentTxHash := ⟨⟨bytes.toArray, size⟩⟩
    have named : Names X s tx := decoded
    have encoded : X.bs58Encode tx.asBytes.toList = s := encodes s _ named
    have plain := flat.isPlain_transaction stated
    rw [← encoded] at plain
    refine ⟨tx, (reads tx).mpr ⟨success, s, stated, named⟩,
      paymentResponseValue_of_names encodes named, _, renders_paymentResponseValue plain, ?_⟩
    simp [Value.get, lookup, paymentResponseMembers, Value.asStr, encoded]
  · intro unconfirmed
    cases parsed : parseSettleResponse X json with
    | ok tx =>
        obtain ⟨s, confirms⟩ := (exists_settles_iff X _).mp ⟨tx, (reads tx).mp parsed⟩
        exact absurd confirms (unconfirmed s)
    | error e =>
        obtain ⟨detail, rfl⟩ := parseSettleResponse_error parsed
        exact ⟨detail, rfl⟩

set_option maxRecDepth 2000 in
theorem settledReply_flat : FlatReply
    [(literal "success", .bool true), (literal "transaction", .string (literal zeroSignature)),
      (literal "network", .string (literal "solana"))] where
  distinct := by decide
  scalar := by decide
  names := by
    rw [List.forall_mem_cons, List.forall_mem_cons, List.forall_mem_singleton]
    exact ⟨⟨_, rfl, by decide, by decide⟩, ⟨_, rfl, by decide, by decide⟩,
      ⟨_, rfl, by decide, by decide⟩⟩
  transaction := by
    rw [List.forall_mem_cons, List.forall_mem_cons, List.forall_mem_singleton]
    refine ⟨by simp, ?_, by simp⟩
    rintro - s string
    obtain rfl := Value.string.inj string
    exact ⟨_, rfl, by decide, by decide⟩

theorem flat_reply_settles_settled :
    (∀ s, Confirms referenceCrates settledReply s →
      ∃ tx, parseSettleResponse referenceCrates settledText = .ok tx ∧
        paymentResponseValue referenceCrates tx =
          "\x7b\"network\":\"solana\",\"transaction\":\"" ++ s ++ "\"\x7d" ∧
        ∃ w, Renders w (paymentResponseValue referenceCrates tx).toList ∧
          (w.get "transaction").bind Value.asStr = some s) ∧
    ((∀ s, ¬Confirms referenceCrates settledReply s) →
      ∃ detail, parseSettleResponse referenceCrates settledText =
        .error (.settlement (.settleRejected detail))) :=
  flat_reply_settles bs58Encode_of_decode settledReply_flat renders_settledReply

end NttX402.Proof
