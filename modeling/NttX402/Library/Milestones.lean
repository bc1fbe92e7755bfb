import Mathlib.Algebra.BigOperators.Ring.Finset
import NttX402.Library.Interaction

/-!
# Milestones

Some events of a program are milestones. A program that reaches them in the order of a plan does so
in every interleaving, and what a crowd of such programs has reached is a sum over its members.
-/

namespace NttX402.Library

section Reaches
variable {I : Interface} {α β M : Type} {mark : Event I → Option M} {plan : List M}

/-- The milestones of every execution are an initial part of the plan, and those of a complete one
are in `Q` with the outcome. -/
def Reaches (mark : Event I → Option M) (plan : List M) (p : Program I α)
    (Q : List M → α → Prop) : Prop :=
  Obeys p (fun events => events.filterMap mark <+: plan)
    (fun events a => events.filterMap mark <+: plan ∧ Q (events.filterMap mark) a)

theorem Reaches.done {a : α} {Q : List M → α → Prop} (holds : Q [] a) :
    Reaches mark plan (.done a) Q :=
  Obeys.done List.nil_prefix ⟨List.nil_prefix, holds⟩

theorem Reaches.weaken {p : Program I α} {longer : List M} {Q R : List M → α → Prop}
    (reaches : Reaches mark plan p Q) (initial : plan <+: longer)
    (holds : ∀ ms a, ms <+: plan → Q ms a → R ms a) : Reaches mark longer p R :=
  Obeys.weaken reaches (fun _ start => start.trans initial)
    fun _ _ finish => ⟨finish.1.trans initial, holds _ _ finish.1 finish.2⟩

theorem Reaches.pass {op : I.Op} {next : I.Reply op → Program I α} {Q : List M → α → Prop}
    (unmarked : ∀ reply, mark ⟨op, reply⟩ = none)
    (rest : ∀ reply, Reaches mark plan (next reply) Q) :
    Reaches mark plan (.call op next) Q := by
  refine Obeys.call List.nil_prefix fun reply => Obeys.weaken (rest reply) ?_ ?_
  · intro events start
    rwa [List.filterMap_cons_none (unmarked reply)]
  · intro events a finish
    rwa [List.filterMap_cons_none (unmarked reply)]

theorem Reaches.reach {op : I.Op} {next : I.Reply op → Program I α} {Q : List M → α → Prop} {m : M}
    (marked : ∀ reply, mark ⟨op, reply⟩ = some m)
    (rest : ∀ reply, Reaches mark plan (next reply) fun ms a => Q (m :: ms) a) :
    Reaches mark (m :: plan) (.call op next) Q := by
  refine Obeys.call List.nil_prefix fun reply => Obeys.weaken (rest reply) ?_ ?_
  · intro events start
    rw [List.filterMap_cons_some (marked reply)]
    exact List.cons_prefix_cons.mpr ⟨rfl, start⟩
  · intro events a finish
    rw [List.filterMap_cons_some (marked reply)]
    exact ⟨List.cons_prefix_cons.mpr ⟨rfl, finish.1⟩, finish.2⟩

/-- A last call, whose reply decides whether it is a milestone. -/
theorem Reaches.last {op : I.Op} {next : I.Reply op → α} {Q : List M → α → Prop} {m : M}
    (decides : ∀ reply, (mark ⟨op, reply⟩ = none ∧ Q [] (next reply)) ∨
      (mark ⟨op, reply⟩ = some m ∧ Q [m] (next reply))) :
    Reaches mark [m] (.call op fun reply => .done (next reply)) Q := by
  refine Obeys.call List.nil_prefix fun reply => ?_
  rcases decides reply with ⟨unmarked, holds⟩ | ⟨marked, holds⟩
  · have none : [(⟨op, reply⟩ : Event I)].filterMap mark = [] := by simp [unmarked]
    exact .done (by simp [none]) ⟨by simp [none], by rwa [none]⟩
  · have one : [(⟨op, reply⟩ : Event I)].filterMap mark = [m] := by simp [marked]
    exact .done (by rw [one]) ⟨by rw [one], by rwa [one]⟩

theorem Reaches.bind {p : Program I α} {f : α → Program I β} {first : List M}
    {R : List M → α → Prop} {Q : List M → β → Prop} (one : Reaches mark first p R)
    (initial : first <+: plan) (two : ∀ ms a, ms <+: first → R ms a → ∃ second,
      ms ++ second <+: plan ∧ Reaches mark second (f a) fun ms' b => Q (ms ++ ms') b) :
    Reaches mark plan (p >>= f) Q := by
  refine Obeys.bind (Obeys.weaken one (fun _ start => start.trans initial) fun _ _ => id)
    fun events a finish => ?_
  obtain ⟨second, fits, reaches⟩ := two _ a finish.1 finish.2
  refine Obeys.weaken reaches (fun events' start => ?_) fun events' b finish' => ?_
  · rw [List.filterMap_append]
    exact ((List.prefix_append_right_inj _).mpr start).trans fits
  · rw [List.filterMap_append]
    exact ⟨((List.prefix_append_right_inj _).mpr finish'.1).trans fits, finish'.2⟩

end Reaches

section Crowd
variable {I : Interface} {M ι : Type} [DecidableEq ι] [Fintype ι]

theorem sum_own (measure : List (Event I) → ℕ)
    (append : ∀ first second, measure (first ++ second) = measure first + measure second)
    (events : List (ι × Event I)) :
    ∑ i, measure (own i events) = measure (events.map Prod.snd) := by
  have empty : measure [] = 0 := by
    have twice := append [] []
    rw [List.append_nil] at twice
    omega
  induction events with
  | nil => simp [empty]
  | cons head events ih =>
      obtain ⟨j, e⟩ := head
      have each (i : ι) : measure (own i ((j, e) :: events)) =
          (if j = i then measure [e] else 0) + measure (own i events) := by
        rw [own_cons]
        split_ifs
        · exact append [e] _
        · exact (Nat.zero_add _).symm
      simp only [each, Finset.sum_add_distrib, Finset.sum_ite_eq, Finset.mem_univ, if_true, ih,
        List.map_cons]
      exact (append [e] _).symm

/-- How often a milestone was reached. -/
def tally [DecidableEq M] (mark : Event I → Option M) (m : M) (events : List (Event I)) : ℕ :=
  (events.filterMap mark).count m

theorem sum_tally [DecidableEq M] (mark : Event I → Option M) (m : M)
    (events : List (ι × Event I)) :
    ∑ i, tally mark m (own i events) = tally mark m (events.map Prod.snd) := by
  apply sum_own
  intro first second
  rw [tally, List.filterMap_append, List.count_append]
  rfl

theorem sum_length_own (events : List (ι × Event I)) :
    ∑ i, (own i events).length = events.length := by
  have sum := sum_own List.length (fun _ _ => List.length_append) events
  rwa [List.length_map] at sum

end Crowd
end NttX402.Library
