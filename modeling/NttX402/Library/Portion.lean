import Mathlib.Algebra.GroupWithZero.Nat
import Mathlib.Tactic.Common

/-! # Shares of an amount, rounded down -/

namespace NttX402.Library

/-- `share` parts of the amount, of which the whole has `whole`. -/
def portion (whole amount share : Nat) : Nat := amount * share / whole

variable {whole amount share : Nat}

theorem portion_le (within : share ≤ whole) : portion whole amount share ≤ amount := by
  apply Nat.div_le_of_le_mul
  rw [Nat.mul_comm whole]
  exact Nat.mul_le_mul_left amount within

theorem portion_eq_iff (positive : 0 < whole) (within : share ≤ whole) :
    portion whole amount share = amount ↔ amount = 0 ∨ share = whole := by
  constructor
  · intro all
    by_contra! partly
    obtain ⟨nonzero, other⟩ := partly
    have less : amount * share < amount * whole :=
      Nat.mul_lt_mul_of_pos_left (by omega) (by omega)
    exact Nat.ne_of_lt (Nat.div_lt_of_lt_mul (Nat.mul_comm amount whole ▸ less)) all
  · rintro (rfl | rfl)
    · simp [portion]
    · exact Nat.mul_div_cancel amount positive

theorem portion_comm : portion whole amount share = portion whole share amount := by
  rw [portion, Nat.mul_comm, ← portion]

theorem portion_mono {amount' share' : Nat} (amounts : amount ≤ amount') (shares : share ≤ share') :
    portion whole amount share ≤ portion whole amount' share' :=
  Nat.div_le_div_right (Nat.mul_le_mul amounts shares)

section Sums
variable (whole amount) (shares : List Nat)

theorem sum_portion_mul_le :
    (shares.map (portion whole amount)).sum * whole ≤ amount * shares.sum := by
  induction shares with
  | nil => simp
  | cons share shares ih =>
      have one : portion whole amount share * whole ≤ amount * share := Nat.div_mul_le_self _ _
      simp only [List.map_cons, List.sum_cons, Nat.add_mul, Nat.mul_add]
      omega

/-- Rounding keeps back less than one part for each share. -/
theorem le_sum_portion_mul (positive : 0 < whole) :
    amount * shares.sum ≤
      (shares.map (portion whole amount)).sum * whole + shares.length * (whole - 1) := by
  induction shares with
  | nil => simp
  | cons share shares ih =>
      have one : amount * share < (portion whole amount share + 1) * whole :=
        Nat.lt_mul_of_div_lt (Nat.lt_succ_self _) positive
      simp only [List.map_cons, List.sum_cons, List.length_cons, Nat.add_mul, Nat.mul_add] at one ⊢
      omega

theorem sum_portion_le (positive : 0 < whole) (within : shares.sum ≤ whole) :
    (shares.map (portion whole amount)).sum ≤ amount := by
  have total := sum_portion_mul_le whole amount shares
  have bound := Nat.mul_le_mul_left amount within
  exact Nat.le_of_mul_le_mul_right (Nat.le_trans total bound) positive

theorem sum_portion_le_portion_sum (positive : 0 < whole) :
    (shares.map (portion whole amount)).sum ≤ portion whole amount shares.sum :=
  (Nat.le_div_iff_mul_le positive).mpr (sum_portion_mul_le whole amount shares)

/-- The remainders of `n` shares add up to less than `n` wholes. -/
theorem portion_sum_le_sum_portion (positive : 0 < whole) :
    portion whole amount shares.sum ≤
      (shares.map (portion whole amount)).sum + (shares.length - 1) := by
  have kept := le_sum_portion_mul whole amount shares positive
  rcases Nat.eq_zero_or_pos shares.length with none | some
  · rw [List.eq_nil_of_length_eq_zero none]
    simp [portion]
  · have less : amount * shares.sum <
        ((shares.map (portion whole amount)).sum + shares.length) * whole := by
      have lost : shares.length * (whole - 1) < shares.length * whole :=
        Nat.mul_lt_mul_of_pos_left (by omega) some
      rw [Nat.add_mul]
      omega
    have below : portion whole amount shares.sum <
        (shares.map (portion whole amount)).sum + shares.length :=
      (Nat.div_lt_iff_lt_mul positive).mpr less
    omega

end Sums
end NttX402.Library
