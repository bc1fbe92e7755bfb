import NttX402.Worker.Goldilocks
import NttX402.Library.Json.Reading

namespace NttX402.Worker
open Library

def utf8 (s : String) : List UInt8 := s.toUTF8.data.toList

def fromUtf8 (bytes : List UInt8) : Option String := String.fromUTF8? ⟨bytes.toArray⟩

theorem fromUtf8_utf8 (s : String) : fromUtf8 (utf8 s) = some s := by
  have valid : s.toUTF8.IsValidUTF8 := s.isValidUTF8
  have bytes : (⟨(utf8 s).toArray⟩ : ByteArray) = s.toUTF8 := by simp [utf8]
  rw [fromUtf8, bytes, String.fromUTF8?, dif_pos valid]
  rfl

theorem utf8_injective : Function.Injective utf8 := fun s t equal =>
  Option.some.inj (by rw [← fromUtf8_utf8 s, equal, fromUtf8_utf8])

theorem utf8_of_fromUtf8 {bytes : List UInt8} {s : String} (h : fromUtf8 bytes = some s) :
    utf8 s = bytes := by
  unfold fromUtf8 String.fromUTF8? at h
  split at h
  · rw [← Option.some.inj h]
    rfl
  · cases h

/-- The crates that the worker calls. Errors are given by the text they display. -/
structure Crates where
  goldilocks : P3Goldilocks
  sha256 : List UInt8 → Vector UInt8 32
  /-- `serde_json::from_slice`; a value is kept as the JSON syntax it was read from. -/
  fromSlice : List UInt8 → Except String Json.Value
  /-- `base64::engine::general_purpose::STANDARD.decode` -/
  base64Decode : List UInt8 → Except String (List UInt8)
  /-- The text of the `FromUtf8Error` for bytes that are not UTF-8. -/
  fromUtf8Error : List UInt8 → String
  bs58Decode : String → Except String (List UInt8)
  bs58Encode : List UInt8 → String

/-- `serde_json` accepts only RFC 8259 texts and reads them as what they say. -/
def Crates.ReadsJson (X : Crates) : Prop :=
  ∀ bytes v, X.fromSlice bytes = .ok v → ∃ s, bytes = utf8 s ∧ Json.Renders v s.toList

/-- `serde_json` accepts the RFC 8259 texts that stay below its recursion limit and hold unsigned
64-bit integers, and reads them as what they say. -/
def Crates.AcceptsJson (X : Crates) : Prop :=
  ∀ s v, Json.Renders v s.toList → v.isReadable 127 = true → X.fromSlice (utf8 s) = .ok v

end NttX402.Worker
