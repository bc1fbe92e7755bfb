import Mathlib.Data.List.Nodup
import Mathlib.Order.Lattice
import Mathlib.Tactic.Common

/-! # Ladders

Rungs in a list, each with a bound up to which it reaches, climbed from the first one upwards.
-/

namespace NttX402.Library
variable {ρ κ : Type} [LinearOrder κ] (bound : ρ → κ)

def Ascending (rungs : List ρ) : Prop := rungs.Pairwise fun lower upper => bound lower < bound upper

instance (rungs : List ρ) : Decidable (Ascending bound rungs) :=
  inferInstanceAs (Decidable (List.Pairwise _ _))

def rungFor (rungs : List ρ) (k : κ) : Option ρ := rungs.find? fun rung => k ≤ bound rung

/-- Of the rungs that reach, this one has the least bound. -/
structure Tightest (rungs : List ρ) (k : κ) (rung : ρ) : Prop where
  listed : rung ∈ rungs
  reaches : k ≤ bound rung
  least : ∀ other ∈ rungs, k ≤ bound other → bound rung ≤ bound other

variable {bound} {rungs : List ρ} {k : κ}

theorem rungFor_eq_none_iff : rungFor bound rungs k = none ↔ ∀ rung ∈ rungs, bound rung < k := by
  simp [rungFor]

theorem Ascending.tightest_of_rungFor (ascending : Ascending bound rungs) {rung : ρ}
    (found : rungFor bound rungs k = some rung) : Tightest bound rungs k rung := by
  obtain ⟨reaches, below, above, rfl, short⟩ := List.find?_eq_some_iff_append.mp found
  refine ⟨by simp, of_decide_eq_true reaches, ?_⟩
  intro other listed reached
  rcases List.mem_append.mp listed with lower | upper
  · have short : ¬k ≤ bound other := by simpa using short other lower
    exact absurd reached short
  · rcases List.mem_cons.mp upper with rfl | upper
    · exact le_rfl
    · have climbing := (List.pairwise_append.mp ascending).2.1
      exact le_of_lt ((List.pairwise_cons.mp climbing).1 other upper)

theorem Ascending.eq_of_bound_eq (ascending : Ascending bound rungs) {rung rung' : ρ}
    (listed : rung ∈ rungs) (listed' : rung' ∈ rungs) (same : bound rung = bound rung') :
    rung = rung' := by
  have bounds : (rungs.map bound).Nodup := (List.pairwise_map.mpr ascending).imp ne_of_lt
  exact List.inj_on_of_nodup_map bounds listed listed' same

/-- In an ascending ladder the first rung that reaches is the tightest one. -/
theorem Ascending.rungFor_eq_some_iff (ascending : Ascending bound rungs) {rung : ρ} :
    rungFor bound rungs k = some rung ↔ Tightest bound rungs k rung := by
  constructor
  · exact ascending.tightest_of_rungFor
  · intro tightest
    cases found : rungFor bound rungs k with
    | none =>
        have short := rungFor_eq_none_iff.mp found rung tightest.listed
        exact absurd tightest.reaches (not_le.mpr short)
    | some first =>
        have first_tightest := ascending.tightest_of_rungFor found
        have same := le_antisymm (first_tightest.least rung tightest.listed tightest.reaches)
          (tightest.least first first_tightest.listed first_tightest.reaches)
        rw [ascending.eq_of_bound_eq first_tightest.listed tightest.listed same]

end NttX402.Library
