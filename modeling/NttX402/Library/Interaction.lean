import Mathlib.Data.List.Basic
import Mathlib.Logic.Function.Basic

/-!
# Programs that call a host

A program is a tree of host calls. `Steps` is one program's execution against any replies, `Obeys`
is a triple about all its executions, `Confined` bounds its calls, `Agree` relates two programs that
make the same calls, and `Interleaved` executes many programs side by side, one call at a time.
-/

namespace NttX402.Library

/-- The calls a program can make, and the replies to each. -/
structure Interface where
  Op : Type
  Reply : Op → Type

structure Event (I : Interface) where
  op : I.Op
  reply : I.Reply op

inductive Program (I : Interface) (α : Type) where
  | done (a : α)
  | call (op : I.Op) (next : I.Reply op → Program I α)

namespace Program
variable {I : Interface} {α β : Type}

def bind : Program I α → (α → Program I β) → Program I β
  | .done a, f => f a
  | .call op next, f => .call op fun reply => (next reply).bind f

instance : Monad (Program I) where
  pure := .done
  bind := bind

def request (op : I.Op) : Program I (I.Reply op) := .call op .done

@[simp] theorem call_bind (op : I.Op) (next : I.Reply op → Program I α) (f : α → Program I β) :
    Program.call op next >>= f = .call op fun reply => next reply >>= f := rfl

end Program

/-! ## Executions -/

section Executions
variable {I : Interface} {α β : Type}

/-- The program makes the calls of `events` in order and is then left with the last program. -/
inductive Steps : Program I α → List (Event I) → Program I α → Prop
  | refl (p : Program I α) : Steps p [] p
  | call {op : I.Op} {next : I.Reply op → Program I α} {events : List (Event I)}
      {q : Program I α} (reply : I.Reply op) :
      Steps (next reply) events q → Steps (.call op next) (⟨op, reply⟩ :: events) q

def Run (p : Program I α) (events : List (Event I)) (a : α) : Prop := Steps p events (.done a)

@[simp] theorem steps_nil_iff {p q : Program I α} : Steps p [] q ↔ p = q := by
  constructor
  · intro steps
    cases steps
    rfl
  · rintro rfl
    exact .refl _

@[simp] theorem steps_done_iff {a : α} {events : List (Event I)} {q : Program I α} :
    Steps (.done a) events q ↔ events = [] ∧ .done a = q := by
  constructor
  · intro steps
    cases steps
    exact ⟨rfl, rfl⟩
  · rintro ⟨rfl, rfl⟩
    exact .refl _

theorem steps_cons_iff {p q : Program I α} {e : Event I} {events : List (Event I)} :
    Steps p (e :: events) q ↔
      ∃ next, p = .call e.op next ∧ Steps (next e.reply) events q := by
  constructor
  · intro steps
    cases steps with
    | call reply steps => exact ⟨_, rfl, steps⟩
  · rintro ⟨next, rfl, steps⟩
    exact .call e.reply steps

theorem steps_call_iff {op : I.Op} {next : I.Reply op → Program I α} {events : List (Event I)}
    {q : Program I α} : Steps (.call op next) events q ↔
      (events = [] ∧ .call op next = q) ∨
        ∃ reply rest, events = ⟨op, reply⟩ :: rest ∧ Steps (next reply) rest q := by
  constructor
  · intro steps
    cases steps with
    | refl => exact .inl ⟨rfl, rfl⟩
    | call reply steps => exact .inr ⟨reply, _, rfl, steps⟩
  · rintro (⟨rfl, rfl⟩ | ⟨reply, rest, rfl, steps⟩)
    · exact .refl _
    · exact .call reply steps

@[simp] theorem run_done_iff {a b : α} {events : List (Event I)} :
    Run (.done a) events b ↔ events = [] ∧ a = b := by
  simp [Run]

theorem run_call_iff {op : I.Op} {next : I.Reply op → Program I α} {events : List (Event I)}
    {a : α} : Run (.call op next) events a ↔
      ∃ reply rest, events = ⟨op, reply⟩ :: rest ∧ Run (next reply) rest a := by
  simp [Run, steps_call_iff]

theorem Run.bind {p : Program I α} {f : α → Program I β} {first second : List (Event I)} {a : α}
    {q : Program I β} (one : Run p first a) (two : Steps (f a) second q) :
    Steps (p >>= f) (first ++ second) q := by
  induction p generalizing first with
  | done b =>
      obtain ⟨rfl, rfl⟩ := run_done_iff.mp one
      exact two
  | call op next ih =>
      obtain ⟨reply, rest, rfl, tail⟩ := run_call_iff.mp one
      exact .call reply (ih reply tail)

/-- An execution of a sequence is still in the first part, or has completed it. -/
theorem steps_bind {p : Program I α} {f : α → Program I β} {events : List (Event I)}
    {q : Program I β} (steps : Steps (p >>= f) events q) :
    (∃ p', Steps p events p') ∨
      ∃ first second a, events = first ++ second ∧ Run p first a ∧ Steps (f a) second q := by
  induction p generalizing events with
  | done a => exact .inr ⟨[], events, a, rfl, by simp, steps⟩
  | call op next ih =>
      rw [Program.call_bind, steps_call_iff] at steps
      rcases steps with ⟨rfl, -⟩ | ⟨reply, rest, rfl, steps⟩
      · exact .inl ⟨_, .refl _⟩
      · rcases ih reply steps with ⟨p', inside⟩ | ⟨first, second, a, rfl, one, two⟩
        · exact .inl ⟨p', .call reply inside⟩
        · exact .inr ⟨_, second, a, rfl, .call reply one, two⟩

theorem run_bind_iff {p : Program I α} {f : α → Program I β} {events : List (Event I)} {b : β} :
    Run (p >>= f) events b ↔
      ∃ first second a, events = first ++ second ∧ Run p first a ∧ Run (f a) second b := by
  constructor
  · intro run
    induction p generalizing events with
    | done a => exact ⟨[], events, a, rfl, by simp, run⟩
    | call op next ih =>
        rw [Program.call_bind, run_call_iff] at run
        obtain ⟨reply, rest, rfl, run⟩ := run
        obtain ⟨first, second, a, rfl, one, two⟩ := ih reply run
        exact ⟨_, second, a, rfl, .call reply one, two⟩
  · rintro ⟨first, second, a, rfl, one, two⟩
    exact one.bind two

theorem Run.unique {p : Program I α} {events : List (Event I)} {a b : α} (one : Run p events a)
    (two : Run p events b) : a = b := by
  induction p generalizing events with
  | done c => exact (run_done_iff.mp one).2.symm.trans (run_done_iff.mp two).2
  | call op next ih =>
      obtain ⟨reply, rest, rfl, tail⟩ := run_call_iff.mp one
      obtain ⟨reply', rest', equal, tail'⟩ := run_call_iff.mp two
      cases equal
      exact ih reply tail tail'

end Executions

/-! ## Triples -/

section Triples
variable {I : Interface} {α β : Type}

/-- At every point of every execution the calls so far are in `during`, and those of a complete
execution are in `post` with the outcome. -/
structure Obeys (p : Program I α) (during : List (Event I) → Prop)
    (post : List (Event I) → α → Prop) : Prop where
  during : ∀ events q, Steps p events q → during events
  post : ∀ events a, Run p events a → post events a

theorem Obeys.done {a : α} {during : List (Event I) → Prop} {post : List (Event I) → α → Prop}
    (start : during []) (finish : post [] a) : Obeys (.done a) during post where
  during events q steps := by
    obtain ⟨rfl, -⟩ := steps_done_iff.mp steps
    exact start
  post events b run := by
    obtain ⟨rfl, rfl⟩ := run_done_iff.mp run
    exact finish

theorem Obeys.call {op : I.Op} {next : I.Reply op → Program I α} {during : List (Event I) → Prop}
    {post : List (Event I) → α → Prop} (start : during [])
    (rest : ∀ reply, Obeys (next reply) (fun events => during (⟨op, reply⟩ :: events))
      (fun events a => post (⟨op, reply⟩ :: events) a)) :
    Obeys (.call op next) during post where
  during events q steps := by
    rcases steps_call_iff.mp steps with ⟨rfl, -⟩ | ⟨reply, events, rfl, tail⟩
    · exact start
    · exact (rest reply).during events q tail
  post events a run := by
    obtain ⟨reply, events, rfl, tail⟩ := run_call_iff.mp run
    exact (rest reply).post events a tail

theorem Obeys.bind {p : Program I α} {f : α → Program I β} {during : List (Event I) → Prop}
    {middle : List (Event I) → α → Prop} {post : List (Event I) → β → Prop}
    (one : Obeys p during middle)
    (two : ∀ first a, middle first a → Obeys (f a) (fun second => during (first ++ second))
      (fun second b => post (first ++ second) b)) :
    Obeys (p >>= f) during post where
  during events q steps := by
    rcases steps_bind steps with ⟨p', inside⟩ | ⟨first, second, a, rfl, run, steps⟩
    · exact one.during events p' inside
    · exact (two first a (one.post first a run)).during second q steps
  post events b run := by
    obtain ⟨first, second, a, rfl, run, rest⟩ := run_bind_iff.mp run
    exact (two first a (one.post first a run)).post second b rest

theorem Obeys.weaken {p : Program I α} {during during' : List (Event I) → Prop}
    {post post' : List (Event I) → α → Prop} (obeys : Obeys p during post)
    (hd : ∀ events, during events → during' events)
    (hp : ∀ events a, post events a → post' events a) : Obeys p during' post' where
  during events q steps := hd events (obeys.during events q steps)
  post events a run := hp events a (obeys.post events a run)

end Triples

/-! ## The calls of a program -/

section Calls
variable {I : Interface} {α β : Type} {P : I.Op → Prop}

/-- Every call that the program can come to make satisfies `P`. -/
inductive Calls (P : I.Op → Prop) : Program I α → Prop
  | done (a : α) : Calls P (.done a)
  | call {op : I.Op} {next : I.Reply op → Program I α} :
      P op → (∀ reply, Calls P (next reply)) → Calls P (.call op next)

theorem Calls.bind {p : Program I α} {f : α → Program I β} (first : Calls P p)
    (rest : ∀ a, Calls P (f a)) : Calls P (p >>= f) := by
  induction first with
  | done a => exact rest a
  | call holds _ ih => exact .call holds ih

theorem Calls.of_steps {p q : Program I α} {events : List (Event I)} (calls : Calls P p)
    (steps : Steps p events q) : ∀ e ∈ events, P e.op := by
  induction steps with
  | refl p => simp
  | call reply _ ih =>
      cases calls with
      | call holds rest => exact List.forall_mem_cons.mpr ⟨holds, ih (rest reply)⟩

/-- The program makes at most `n` calls, all of them in `P`, and its outcome is in `Q`. -/
inductive Confined (P : I.Op → Prop) (Q : α → Prop) : Nat → Program I α → Prop
  | done {n : Nat} {a : α} : Q a → Confined P Q n (.done a)
  | call {n : Nat} {op : I.Op} {next : I.Reply op → Program I α} :
      P op → (∀ reply, Confined P Q n (next reply)) → Confined P Q (n + 1) (.call op next)

section Confined
variable {Q : α → Prop} {R : β → Prop} {n m : Nat}

theorem Confined.mono {p : Program I α} (confined : Confined P Q n p) (le : n ≤ m) :
    Confined P Q m p := by
  induction confined generalizing m with
  | done holds => exact .done holds
  | @call n op next allowed _ ih =>
      obtain ⟨k, rfl⟩ : ∃ k, m = k + 1 := ⟨m - 1, by omega⟩
      exact .call allowed fun reply => ih reply (by omega)

theorem Confined.weaken {p : Program I α} {Q' : α → Prop} (confined : Confined P Q n p)
    (weaker : ∀ a, Q a → Q' a) : Confined P Q' n p := by
  induction confined with
  | done holds => exact .done (weaker _ holds)
  | call allowed _ ih => exact .call allowed ih

theorem Confined.bind {p : Program I α} {f : α → Program I β} (first : Confined P Q n p)
    (rest : ∀ a, Q a → Confined P R m (f a)) : Confined P R (n + m) (p >>= f) := by
  induction first with
  | done holds => exact (rest _ holds).mono (by omega)
  | @call n op next allowed _ ih =>
      rw [Program.call_bind, Nat.add_right_comm]
      exact .call allowed ih

theorem Confined.of_steps {p q : Program I α} {events : List (Event I)}
    (confined : Confined P Q n p) (steps : Steps p events q) :
    events.length ≤ n ∧ ∀ e ∈ events, P e.op := by
  induction steps generalizing n with
  | refl p => simp
  | call reply _ ih =>
      cases confined with
      | call allowed next =>
          obtain ⟨short, calls⟩ := ih (next reply)
          exact ⟨Nat.succ_le_succ short, List.forall_mem_cons.mpr ⟨allowed, calls⟩⟩

theorem Confined.of_run {p : Program I α} {events : List (Event I)} {a : α}
    (confined : Confined P Q n p) (run : Run p events a) : Q a := by
  induction confined generalizing events with
  | done holds =>
      obtain ⟨-, rfl⟩ := run_done_iff.mp run
      exact holds
  | call _ _ ih =>
      obtain ⟨reply, _, rfl, tail⟩ := run_call_iff.mp run
      exact ih reply tail

end Confined
end Calls

/-! ## Agreement -/

section Agreement
variable {I : Interface} {α β γ δ : Type}

/-- The programs make the same calls under the same replies, and their outcomes are related. -/
inductive Agree (R : α → β → Prop) : Program I α → Program I β → Prop
  | done {a : α} {b : β} : R a b → Agree R (.done a) (.done b)
  | call {op : I.Op} {f : I.Reply op → Program I α} {g : I.Reply op → Program I β} :
      (∀ reply, Agree R (f reply) (g reply)) → Agree R (.call op f) (.call op g)

theorem Agree.refl {R : α → α → Prop} (same : ∀ a, R a a) (p : Program I α) : Agree R p p := by
  induction p with
  | done a => exact .done (same a)
  | call op next ih => exact .call ih

theorem Agree.bind {R : α → β → Prop} {S : γ → δ → Prop} {p : Program I α} {q : Program I β}
    {f : α → Program I γ} {g : β → Program I δ} (first : Agree R p q)
    (rest : ∀ a b, R a b → Agree S (f a) (g b)) : Agree S (p >>= f) (q >>= g) := by
  induction first with
  | done related => exact rest _ _ related
  | call _ ih => exact .call ih

theorem Agree.run {R : α → β → Prop} {p : Program I α} {q : Program I β} (agree : Agree R p q)
    {events : List (Event I)} {a : α} (run : Run p events a) : ∃ b, Run q events b ∧ R a b := by
  induction agree generalizing events with
  | @done c d related =>
      obtain ⟨rfl, rfl⟩ := run_done_iff.mp run
      exact ⟨d, by simp, related⟩
  | call _ ih =>
      obtain ⟨reply, rest, rfl, tail⟩ := run_call_iff.mp run
      obtain ⟨b, tail', related⟩ := ih reply tail
      exact ⟨b, .call reply tail', related⟩

end Agreement

/-! ## Interleavings -/

section Interleavings
variable {I : Interface} {α ι : Type} [DecidableEq ι]

/-- At each step one of the programs gets the reply to its call. -/
inductive Interleaved : (ι → Program I α) → List (ι × Event I) → (ι → Program I α) → Prop
  | refl (pool : ι → Program I α) : Interleaved pool [] pool
  | step {pool final : ι → Program I α} {events : List (ι × Event I)} {i : ι} {op : I.Op}
      {next : I.Reply op → Program I α} (waiting : pool i = .call op next) (reply : I.Reply op) :
      Interleaved (Function.update pool i (next reply)) events final →
      Interleaved pool ((i, ⟨op, reply⟩) :: events) final

def own (i : ι) (events : List (ι × Event I)) : List (Event I) :=
  events.filterMap fun (j, e) => if j = i then some e else none

@[simp] theorem own_nil (i : ι) : own i ([] : List (ι × Event I)) = [] := rfl

@[simp] theorem own_cons (i j : ι) (e : Event I) (events : List (ι × Event I)) :
    own i ((j, e) :: events) = if j = i then e :: own i events else own i events := by
  by_cases same : j = i <;> simp [own, same]

@[simp] theorem own_append (i : ι) (first second : List (ι × Event I)) :
    own i (first ++ second) = own i first ++ own i second :=
  List.filterMap_append

theorem own_map (i j : ι) (events : List (Event I)) :
    own i (events.map (Prod.mk j)) = if j = i then events else [] := by
  induction events with
  | nil => simp
  | cons e events ih =>
      rw [List.map_cons, own_cons, ih]
      split_ifs <;> rfl

theorem mem_of_mem_own {i : ι} {e : Event I} {events : List (ι × Event I)}
    (member : e ∈ own i events) : (i, e) ∈ events := by
  simp only [own, List.mem_filterMap, Option.ite_none_right_eq_some, Option.some.injEq] at member
  obtain ⟨⟨j, e'⟩, member, rfl, rfl⟩ := member
  exact member

/-- The interleavings are the shuffles of one execution of each program. -/
theorem interleaved_iff {pool final : ι → Program I α} {events : List (ι × Event I)} :
    Interleaved pool events final ↔ ∀ i, Steps (pool i) (own i events) (final i) := by
  constructor
  · intro interleaved
    induction interleaved with
    | refl pool => exact fun i => .refl _
    | @step pool final events j op next waiting reply _ ih =>
        intro i
        have rest := ih i
        by_cases same : j = i
        · subst same
          rw [Function.update_self] at rest
          rw [own_cons, if_pos rfl, waiting]
          exact .call reply rest
        · rw [Function.update_of_ne (Ne.symm same)] at rest
          rwa [own_cons, if_neg same]
  · intro each
    induction events generalizing pool with
    | nil =>
        obtain rfl : pool = final := funext fun i => steps_nil_iff.mp (each i)
        exact .refl _
    | cons head events ih =>
        obtain ⟨j, e⟩ := head
        have first := each j
        rw [own_cons, if_pos rfl, steps_cons_iff] at first
        obtain ⟨next, waiting, rest⟩ := first
        refine .step waiting e.reply (ih fun i => ?_)
        by_cases same : i = j
        · subst same
          rwa [Function.update_self]
        · have other := each i
          rw [own_cons, if_neg (Ne.symm same)] at other
          rwa [Function.update_of_ne same]

theorem Interleaved.pair (pool : ι → Program I α) {i j : ι} (different : i ≠ j)
    {first second : List (Event I)} {a b : α} (one : Run (pool i) first a)
    (two : Run (pool j) second b) : ∃ final,
      Interleaved pool (first.map (Prod.mk i) ++ second.map (Prod.mk j)) final ∧
        final i = .done a ∧ final j = .done b := by
  refine ⟨Function.update (Function.update pool i (.done a)) j (.done b),
    interleaved_iff.mpr fun k => ?_, by simp [different], by simp⟩
  simp only [own_append, own_map]
  by_cases isJ : k = j
  · subst isJ
    simpa [Run, different] using two
  · by_cases isI : k = i
    · subst isI
      simpa [Run, isJ, Ne.symm isJ] using one
    · simp [isI, isJ, Ne.symm isI, Ne.symm isJ]

end Interleavings
end NttX402.Library
