import Mathlib.Data.List.Basic

/-!
# Lower-case hexadecimal texts

`unhex` reads a text of lower-case digit pairs as bytes.
-/

namespace NttX402.Library

def lowerHex? (c : Char) : Option Nat :=
  if '0' ≤ c ∧ c ≤ '9' then some (c.toNat - '0'.toNat)
  else if 'a' ≤ c ∧ c ≤ 'f' then some (c.toNat - 'a'.toNat + 10)
  else none

def unhex : List Char → Option (List UInt8)
  | [] => some []
  | a :: b :: rest => do
    let high ← lowerHex? a
    let low ← lowerHex? b
    let bytes ← unhex rest
    return UInt8.ofNat (high * 16 + low) :: bytes
  | [_] => none

/-- The pair of digits of a byte, for any way to write a nibble that `lowerHex?` reads back. -/
theorem unhex_pair {digit : Nat → Char} (reads : ∀ n < 16, lowerHex? (digit n) = some n)
    (byte : UInt8) (rest : List Char) :
    unhex (digit (byte.toNat / 16) :: digit (byte.toNat % 16) :: rest) =
      (unhex rest).map (byte :: ·) := by
  have bound := byte.toNat_lt
  have high := reads (byte.toNat / 16) (by omega)
  have low := reads (byte.toNat % 16) (by omega)
  have whole : byte.toNat / 16 * 16 + byte.toNat % 16 = byte.toNat := by omega
  have pair : UInt8.ofNat (byte.toNat / 16 * 16 + byte.toNat % 16) = byte := by
    rw [whole, UInt8.ofNat_toNat]
  simp only [unhex, high, low, Option.bind_eq_bind, Option.bind_some, pair]
  cases unhex rest <;> rfl

end NttX402.Library
