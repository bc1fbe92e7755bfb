import Mathlib.Data.ZMod.Basic
import Mathlib.GroupTheory.OrderOfElement

namespace NttX402.Worker

/-- The part of the `p3-goldilocks` and `p3-field` crates that the backend calls. -/
structure P3Goldilocks where
  Elem : Type
  one : Elem
  add : Elem → Elem → Elem
  sub : Elem → Elem → Elem
  mul : Elem → Elem → Elem
  fromU64 : UInt64 → Elem
  asCanonicalU64 : Elem → UInt64
  tryInverse : Elem → Option Elem
  twoAdicGenerator : Nat → Elem
  twoAdicity : Nat

/-- The order of the Goldilocks field, `2^64 - 2^32 + 1`. -/
abbrev goldilocksPrime : Nat := 2 ^ 64 - 2 ^ 32 + 1

abbrev GoldilocksField : Type := ZMod goldilocksPrime

namespace P3Goldilocks
variable (G : P3Goldilocks)

def val (a : G.Elem) : GoldilocksField := (G.asCanonicalU64 a).toNat

/-- The documented behaviour of the crate: arithmetic is exact modulo the prime. -/
structure Exact : Prop where
  canonical : ∀ a, (G.asCanonicalU64 a).toNat < goldilocksPrime
  val_one : G.val G.one = 1
  val_add : ∀ a b, G.val (G.add a b) = G.val a + G.val b
  val_sub : ∀ a b, G.val (G.sub a b) = G.val a - G.val b
  val_mul : ∀ a b, G.val (G.mul a b) = G.val a * G.val b
  val_fromU64 : ∀ c, G.val (G.fromU64 c) = (c.toNat : GoldilocksField)
  tryInverse_none : ∀ a, G.tryInverse a = none → G.val a = 0
  tryInverse_some : ∀ a b, G.tryInverse a = some b → G.val a * G.val b = 1
  orderOf_generator : ∀ bits ≤ 32, orderOf (G.val (G.twoAdicGenerator bits)) = 2 ^ bits
  twoAdicity_eq : G.twoAdicity = 32

end P3Goldilocks
end NttX402.Worker
