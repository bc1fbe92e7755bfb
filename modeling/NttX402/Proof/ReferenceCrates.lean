import NttX402.Worker.Crates
import NttX402.Library.Radix
import NttX402.Proof.GoldilocksField

namespace NttX402.Proof
open Worker Library

/-! ## Base64 -/

def sextet? (c : UInt8) : Option Nat :=
  let n := c.toNat
  if 65 ≤ n ∧ n ≤ 90 then some (n - 65)
  else if 97 ≤ n ∧ n ≤ 122 then some (n - 97 + 26)
  else if 48 ≤ n ∧ n ≤ 57 then some (n - 48 + 52)
  else if n = 43 then some 62
  else if n = 47 then some 63
  else none

/-- The standard alphabet with mandatory padding, whose unused bits are zero. -/
def base64Bytes : List UInt8 → Option (List UInt8)
  | [] => some []
  | [a, b, c, d] => do
    let a ← sextet? a
    let b ← sextet? b
    if d = 61 then
      if c = 61 then
        if b % 16 = 0 then some [UInt8.ofNat (a * 4 + b / 16)] else none
      else
        let c ← sextet? c
        if c % 4 = 0 then
          some [UInt8.ofNat (a * 4 + b / 16), UInt8.ofNat (b % 16 * 16 + c / 4)]
        else none
    else
      let c ← sextet? c
      let d ← sextet? d
      some [UInt8.ofNat (a * 4 + b / 16), UInt8.ofNat (b % 16 * 16 + c / 4),
        UInt8.ofNat (c % 4 * 64 + d)]
  | a :: b :: c :: d :: rest => do
    let a ← sextet? a
    let b ← sextet? b
    let c ← sextet? c
    let d ← sextet? d
    let rest ← base64Bytes rest
    some (UInt8.ofNat (a * 4 + b / 16) :: UInt8.ofNat (b % 16 * 16 + c / 4) ::
      UInt8.ofNat (c % 4 * 64 + d) :: rest)
  | _ => none

/-! ## Base58 -/

def base58Alphabet : List Char :=
  "123456789ABCDEFGHJKLMNPQRSTUVWXYZabcdefghijkmnopqrstuvwxyz".toList

def base58Text (bytes : List UInt8) : String :=
  String.ofList ((rebase 256 58 (bytes.map UInt8.toNat)).map fun d => base58Alphabet.getD d '1')

def base58Bytes (s : String) : Option (List UInt8) :=
  (s.toList.mapM fun c => base58Alphabet.idxOf? c).map fun digits =>
    (rebase 58 256 digits).map UInt8.ofNat

theorem idxOf?_base58Alphabet {d : Nat} (small : d < 58) :
    base58Alphabet.idxOf? (base58Alphabet.getD d '1') = some d := by
  revert d
  decide

theorem base58Bytes_base58Text (bytes : List UInt8) :
    base58Bytes (base58Text bytes) = some bytes := by
  have small : ∀ d ∈ bytes.map UInt8.toNat, d < 256 := by
    intro d member
    obtain ⟨b, -, rfl⟩ := List.mem_map.mp member
    exact b.toNat_lt
  have digits : ((rebase 256 58 (bytes.map UInt8.toNat)).map fun d =>
      base58Alphabet.getD d '1').mapM (fun c => base58Alphabet.idxOf? c) =
        some (rebase 256 58 (bytes.map UInt8.toNat)) := by
    have each : ∀ d ∈ rebase 256 58 (bytes.map UInt8.toNat), d < 58 :=
      fun d => digit_lt_of_mem_rebase (by norm_num)
    generalize rebase 256 58 (bytes.map UInt8.toNat) = digits at each
    induction digits with
    | nil => rfl
    | cons d digits ih =>
        obtain ⟨first, rest⟩ := List.forall_mem_cons.mp each
        simp only [List.map_cons, List.mapM_cons, idxOf?_base58Alphabet first, ih rest]
        rfl
  rw [base58Bytes, base58Text, String.toList_ofList, digits, Option.map_some,
    rebase_rebase (by norm_num) small, List.map_map]
  simp [Function.comp_def]

theorem getD_of_idxOf?_base58Alphabet {c : Char} {d : Nat}
    (found : base58Alphabet.idxOf? c = some d) : d < 58 ∧ base58Alphabet.getD d '1' = c := by
  obtain ⟨small, char, -⟩ := List.idxOf?_eq_some_iff.mp found
  have length : base58Alphabet.length = 58 := by decide
  rw [List.getD_eq_getElem?_getD, List.getElem?_eq_getElem small, Option.getD_some]
  exact ⟨length ▸ small, char⟩

theorem base58_digits {text : List Char} {digits : List Nat}
    (read : text.mapM (fun c => base58Alphabet.idxOf? c) = some digits) :
    (∀ d ∈ digits, d < 58) ∧ digits.map (fun d => base58Alphabet.getD d '1') = text := by
  induction text generalizing digits with
  | nil =>
      obtain rfl := Option.some.inj read
      exact ⟨List.forall_mem_nil _, rfl⟩
  | cons c text ih =>
      simp only [List.mapM_cons, Option.pure_def, Option.bind_eq_bind, Option.bind_eq_some_iff,
        Option.some.injEq] at read
      obtain ⟨d, found, more, rest, rfl⟩ := read
      obtain ⟨small, char⟩ := getD_of_idxOf?_base58Alphabet found
      obtain ⟨smalls, chars⟩ := ih rest
      exact ⟨List.forall_mem_cons.mpr ⟨small, smalls⟩, by rw [List.map_cons, char, chars]⟩

theorem base58Text_base58Bytes {s : String} {bytes : List UInt8}
    (decoded : base58Bytes s = some bytes) : base58Text bytes = s := by
  obtain ⟨digits, read, rfl⟩ := Option.map_eq_some_iff.mp decoded
  obtain ⟨small, chars⟩ := base58_digits read
  have bytes : ((rebase 58 256 digits).map UInt8.ofNat).map UInt8.toNat = rebase 58 256 digits := by
    rw [List.map_map, List.map_congr_left (g := id), List.map_id]
    intro d member
    exact UInt8.toNat_ofNat_of_lt' (digit_lt_of_mem_rebase (by norm_num) member)
  rw [base58Text, bytes, rebase_rebase (by norm_num) small, chars, String.ofList_toList]

/-! ## The crates -/

def orError {α : Type} (message : String) : Option α → Except String α
  | some a => .ok a
  | none => .error message

/-- Concrete crates: JSON, UTF-8, Base64 and Base58 as they are defined, and a constant digest. -/
def referenceCrates : Crates where
  goldilocks := referenceGoldilocks
  sha256 _ := Vector.replicate 32 0
  fromSlice bytes :=
    orError "expected value" ((fromUtf8 bytes).bind fun s => Json.parse s.toList)
  base64Decode bytes := orError "Invalid symbol" (base64Bytes bytes)
  fromUtf8Error _ := "invalid utf-8 sequence"
  bs58Decode s := orError "provided string contained invalid character" (base58Bytes s)
  bs58Encode := base58Text

theorem bs58Encode_of_decode (s : String) (bytes : List UInt8)
    (decoded : referenceCrates.bs58Decode s = .ok bytes) :
    referenceCrates.bs58Encode bytes = s := by
  cases read : base58Bytes s with
  | none => simp [referenceCrates, read, orError] at decoded
  | some bytes' =>
      obtain rfl : bytes' = bytes := by simpa [referenceCrates, read, orError] using decoded
      exact base58Text_base58Bytes read

theorem referenceCrates_readsJson : referenceCrates.ReadsJson := by
  intro bytes v read
  cases decoded : fromUtf8 bytes with
  | none => simp [referenceCrates, decoded, orError] at read
  | some s =>
      refine ⟨s, (utf8_of_fromUtf8 decoded).symm, Json.parse_eq_some_iff.mp ?_⟩
      cases parsed : Json.parse s.toList with
      | none => simp [referenceCrates, decoded, parsed, orError] at read
      | some w =>
          simp only [referenceCrates, decoded, Option.bind_some, parsed, orError,
            Except.ok.injEq] at read
          rw [read]

theorem referenceCrates_fromSlice {s : String} {v : Json.Value}
    (renders : Json.Renders v s.toList) :
    referenceCrates.fromSlice (utf8 s) = .ok v := by
  simp only [referenceCrates, fromUtf8_utf8, Option.bind_some,
    Json.parse_eq_some_iff.mpr renders, orError]

end NttX402.Proof
