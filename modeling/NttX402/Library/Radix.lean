import Mathlib.Data.Nat.Digits.Lemmas
import Mathlib.Data.List.TakeWhile

/-!
# Change of radix

The digits of a number in another base, most significant first. Leading zeros are kept, one for
one, so that the change can be undone (`rebase_rebase`).
-/

namespace NttX402.Library

def rebase (b c : Nat) (digits : List Nat) : List Nat :=
  digits.takeWhile (· = 0) ++ (Nat.digits c (Nat.ofDigits b digits.reverse)).reverse

section Rebase
variable {b c : Nat}

theorem ofDigits_zeros (b : Nat) (digits : List Nat) (zeros : Nat) :
    Nat.ofDigits b (digits ++ List.replicate zeros 0) = Nat.ofDigits b digits := by
  induction digits with
  | nil => induction zeros <;> simp_all [List.replicate_succ, Nat.ofDigits_cons]
  | cons d digits ih => simp only [List.cons_append, Nat.ofDigits_cons, ih]

theorem rebase_zeros (b c zeros : Nat) {digits : List Nat} (head : digits.head? ≠ some 0) :
    rebase b c (List.replicate zeros 0 ++ digits) =
      List.replicate zeros 0 ++ (Nat.digits c (Nat.ofDigits b digits.reverse)).reverse := by
  have noMore : digits.takeWhile (· = 0) = [] := by
    cases digits with
    | nil => rfl
    | cons d digits => exact List.takeWhile_cons_of_neg (by simpa using head)
  rw [rebase, List.takeWhile_append_of_pos (by simp), noMore, List.append_nil,
    List.reverse_append, List.reverse_replicate, ofDigits_zeros]

theorem exists_zeros (digits : List Nat) : ∃ zeros rest,
    digits = List.replicate zeros 0 ++ rest ∧ rest.head? ≠ some 0 := by
  induction digits with
  | nil => exact ⟨0, [], rfl, by simp⟩
  | cons d digits ih =>
      by_cases zero : d = 0
      · obtain ⟨zeros, rest, rfl, head⟩ := ih
        exact ⟨zeros + 1, rest, by simp [zero, List.replicate_succ], head⟩
      · exact ⟨0, d :: digits, rfl, by simpa using zero⟩

theorem head?_reverse_digits (c n : Nat) : (Nat.digits c n).reverse.head? ≠ some 0 := by
  rw [List.head?_reverse]
  intro zero
  obtain ⟨nonempty, last⟩ := List.getLast?_eq_some_iff.mp zero |>.imp fun _ => id
  have positive : n ≠ 0 := by
    rintro rfl
    simp at zero
  have := Nat.getLast_digit_ne_zero c positive
  simp_all [List.getLast?_eq_some_getLast]

theorem digit_lt_of_mem_rebase (hc : 1 < c) {digits : List Nat} {d : Nat}
    (member : d ∈ rebase b c digits) : d < c := by
  rcases List.mem_append.mp member with zero | digit
  · have := List.mem_takeWhile_imp zero
    simp only [decide_eq_true_eq] at this
    omega
  · exact Nat.digits_lt_base hc (List.mem_reverse.mp digit)

theorem rebase_rebase (hb : 1 < b) {digits : List Nat}
    (small : ∀ d ∈ digits, d < b) : rebase c b (rebase b c digits) = digits := by
  obtain ⟨zeros, rest, rfl, head⟩ := exists_zeros digits
  have back : Nat.digits b (Nat.ofDigits b rest.reverse) = rest.reverse := by
    apply Nat.digits_ofDigits b hb
    · intro d member
      exact small d (by simp [List.mem_reverse.mp member])
    · intro nonempty zero
      apply head
      rw [← List.getLast?_reverse, List.getLast?_eq_some_getLast nonempty, zero]
  rw [rebase_zeros b c zeros head, rebase_zeros c b zeros (head?_reverse_digits c _),
    List.reverse_reverse, Nat.ofDigits_digits, back, List.reverse_reverse]

end Rebase
end NttX402.Library
