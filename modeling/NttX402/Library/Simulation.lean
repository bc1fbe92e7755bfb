import NttX402.Library.Machine
import Mathlib.Logic.Function.Basic
import Mathlib.Data.List.Perm.Basic

/-!
# Simulations between machines

`M.Simulates N f keep P` says that, in the states that meet `P`, the instructions `keep` of `M` do
what the same instructions of `N` do on the images under `f`, and the others leave the image as it
is. A run of `M` is then a run of `N` on the kept instructions.

A machine is local where each instruction reads and writes only what is stored at its address. Its
runs are simulated at each address by the runs of that cell alone.
-/

namespace NttX402.Library
variable {σ τ κ α ι ε ω : Type}

namespace Transition
variable (f : σ → τ) (t : Transition σ ι ε ω)

def map : Transition τ ι ε ω := ⟨f t.before, t.instruction, t.result.map (Prod.map f id)⟩

@[simp] theorem map_instruction : (t.map f).instruction = t.instruction := rfl

@[simp] theorem map_before : (t.map f).before = f t.before := rfl

@[simp] theorem map_after : (t.map f).after = f t.after := by
  obtain ⟨s, i, result⟩ := t
  cases result <;> rfl

@[simp] theorem map_events : (t.map f).events = t.events := by
  obtain ⟨s, i, result⟩ := t
  cases result <;> rfl

@[simp] theorem map_succeeded : (t.map f).succeeded = t.succeeded := by
  obtain ⟨s, i, result⟩ := t
  cases result <;> rfl

end Transition

namespace Machine

/-! ## Runs of a simulated machine -/

structure Simulates (M : Machine σ ι ε ω) (N : Machine τ ι ε ω) (f : σ → τ) (keep : ι → Bool)
    (P : σ → Prop) : Prop where
  keeps : M.Keeps P
  kept : ∀ s i, P s → keep i = true → (M.exec s i).map (Prod.map f id) = N.exec (f s) i
  hidden : ∀ s i, P s → keep i = false → f (M.step s i).after = f s

namespace Simulates
variable {M : Machine σ ι ε ω} {N : Machine τ ι ε ω} {f : σ → τ} {keep : ι → Bool} {P : σ → Prop}
  (simulates : M.Simulates N f keep P)
include simulates

theorem step_map {s : σ} (holds : P s) {i : ι} (kept : keep i = true) :
    (M.step s i).map f = N.step (f s) i :=
  congrArg (Transition.mk (f s) i) (simulates.kept s i holds kept)

theorem step_after {s : σ} (holds : P s) {i : ι} (kept : keep i = true) :
    f (M.step s i).after = (N.step (f s) i).after := by
  rw [← simulates.step_map holds kept, Transition.map_after]

theorem after_map {s : σ} (holds : P s) (is : List ι) :
    f (M.after s is) = N.after (f s) (is.filter keep) := by
  induction is generalizing s with
  | nil => rfl
  | cons i is ih =>
      have next := simulates.keeps.step holds i
      cases kept : keep i with
      | true =>
          rw [List.filter_cons_of_pos kept, after_cons, after_cons, ih next,
            simulates.step_after holds kept]
      | false =>
          rw [List.filter_cons_of_neg (by simp [kept]), after_cons, ih next,
            simulates.hidden s i holds kept]

theorem trace_map {s : σ} (holds : P s) (is : List ι) :
    ((M.trace s is).filter fun t => keep t.instruction).map (Transition.map f) =
      N.trace (f s) (is.filter keep) := by
  induction is generalizing s with
  | nil => rfl
  | cons i is ih =>
      have rest := ih (simulates.keeps.step holds i)
      cases kept : keep i with
      | true =>
          rw [trace, List.filter_cons_of_pos (by simpa using kept), List.map_cons,
            List.filter_cons_of_pos kept, trace, rest, simulates.step_map holds kept,
            simulates.step_after holds kept]
      | false =>
          rw [trace, List.filter_cons_of_neg (by simp [kept]),
            List.filter_cons_of_neg (by simp [kept]), rest, simulates.hidden s i holds kept]

theorem emitted_eq (silent : ∀ s i, P s → keep i = false → (M.step s i).events = []) {s : σ}
    (holds : P s) (is : List ι) : M.emitted s is = N.emitted (f s) (is.filter keep) := by
  rw [emitted, emitted, ← simulates.trace_map holds]
  induction is generalizing s with
  | nil => rfl
  | cons i is ih =>
      have rest := ih (simulates.keeps.step holds i)
      rw [trace, List.flatMap_cons, rest]
      cases kept : keep i with
      | true => simp [kept]
      | false => simp [kept, silent s i holds kept]

end Simulates

/-! ## Refinement -/

section Refinement
variable {δ : Type} {M : Machine σ ι ε ω} {N : Machine τ κ δ ω} {f : σ → τ}
  {order : σ → ι → Option κ} {P : σ → Prop}

theorem succeeded_step_iff {s : σ} {i : ι} :
    (M.step s i).succeeded = true ↔ ∃ s' events, M.exec s i = .ok (s', events) := by
  rcases step_cases (M := M) s i with ⟨e, step⟩ | ⟨s', events, step, ok⟩
  · have failed : M.exec s i = .error e := congrArg Transition.result step
    simp [step, failed]
  · simp [step, ok]

structure Refines (M : Machine σ ι ε ω) (N : Machine τ κ δ ω) (f : σ → τ)
    (order : σ → ι → Option κ) (P : σ → Prop) : Prop where
  keeps : M.Keeps P
  follows : ∀ s i s' events, P s → M.exec s i = .ok (s', events) →
    ∃ o, order s i = some o ∧ N.exec (f s) o = .ok (f s', events)

/-- What a run orders, where it succeeds. -/
def orders (M : Machine σ ι ε ω) (order : σ → ι → Option κ) (s : σ) (is : List ι) : List κ :=
  (M.trace s is).filterMap fun t => if t.succeeded then order t.before t.instruction else none

theorem emitted_cons (s : σ) (i : ι) (is : List ι) :
    M.emitted s (i :: is) = (M.step s i).events ++ M.emitted (M.step s i).after is := rfl

theorem orders_of_error {s : σ} {i : ι} {e : ε} (step : M.step s i = ⟨s, i, .error e⟩)
    (is : List ι) : M.orders order s (i :: is) = M.orders order s is := by
  rw [orders, trace, step]
  rfl

theorem orders_of_ok {s s' : σ} {i : ι} {events : List ω} {o : κ}
    (step : M.step s i = ⟨s, i, .ok (s', events)⟩) (ordered : order s i = some o) (is : List ι) :
    M.orders order s (i :: is) = o :: M.orders order s' is := by
  rw [orders, trace, step]
  exact List.filterMap_cons_some ordered

theorem Refines.run (refines : M.Refines N f order P) {s : σ} (holds : P s) (is : List ι) :
    N.after (f s) (M.orders order s is) = f (M.after s is) ∧
    N.emitted (f s) (M.orders order s is) = M.emitted s is ∧
    ∀ t ∈ N.trace (f s) (M.orders order s is), t.succeeded = true := by
  induction is generalizing s with
  | nil => exact ⟨rfl, rfl, fun t member => nomatch member⟩
  | cons i is ih =>
      have rest := ih (refines.keeps.step holds i)
      rcases step_cases (M := M) s i with ⟨e, step⟩ | ⟨s', events, step, ok⟩
      · rw [step] at rest
        rw [orders_of_error step, after_cons, emitted_cons, step]
        exact rest
      · obtain ⟨o, ordered, accepted⟩ := refines.follows s i s' events holds ok
        have follows := step_of_exec accepted
        rw [step] at rest
        obtain ⟨final, emits, succeed⟩ := rest
        rw [orders_of_ok step ordered, after_cons, after_cons, emitted_cons, emitted_cons, trace,
          follows, step]
        refine ⟨final, congrArg (events ++ ·) emits, ?_⟩
        exact List.forall_mem_cons.mpr ⟨rfl, succeed⟩

end Refinement

/-! ## Local machines -/

section Local
variable [DecidableEq κ] (M : Machine (κ → α) ι ε ω) (address : ι → κ)

def cell : Machine α ι ε ω where
  exec a i := (M.exec (fun _ => a) i).map (Prod.map (· (address i)) id)

def Local : Prop :=
  ∀ s i, M.exec s i =
    ((M.cell address).exec (s (address i)) i).map (Prod.map (Function.update s (address i)) id)

/-- What happened at an address: each instruction for it with what it found and left there. -/
def history (a : κ) (trace : List (Transition (κ → α) ι ε ω)) : List (Transition α ι ε ω) :=
  (trace.filter fun t => address t.instruction = a).map (Transition.map (· a))

variable {M address} (isLocal : M.Local address)
include isLocal

theorem Local.step_after (s : κ → α) (i : ι) : ∃ a,
    (M.step s i).after = Function.update s (address i) a := by
  rcases step_cases (M := M) s i with ⟨e, step⟩ | ⟨s', events, step, ok⟩
  · refine ⟨s (address i), ?_⟩
    rw [step, Transition.after_error, Function.update_eq_self]
  · rw [isLocal] at ok
    cases outcome : (M.cell address).exec (s (address i)) i with
    | error e =>
        rw [outcome] at ok
        cases ok
    | ok result =>
        rw [outcome] at ok
        refine ⟨result.1, ?_⟩
        rw [step, Transition.after_ok]
        exact (Prod.mk.inj (Except.ok.inj ok)).1.symm

theorem Local.simulates (a : κ) :
    M.Simulates (M.cell address) (· a) (fun i => address i = a) fun _ => True where
  keeps _ _ _ _ _ _ := trivial
  kept s i _ kept := by
    obtain rfl := of_decide_eq_true kept
    rw [isLocal]
    cases (M.cell address).exec (s (address i)) i with
    | error e => rfl
    | ok result => exact congrArg Except.ok (Prod.ext (Function.update_self ..) rfl)
  hidden s i _ hidden := by
    obtain ⟨content, after⟩ := isLocal.step_after s i
    rw [after]
    exact Function.update_of_ne (Ne.symm (of_decide_eq_false hidden)) content s

theorem Local.history_eq (s : κ → α) (is : List ι) (a : κ) :
    history address a (M.trace s is) =
      (M.cell address).trace (s a) (is.filter fun i => address i = a) :=
  (isLocal.simulates a).trace_map trivial is

theorem Local.after_eq (s : κ → α) (is : List ι) (a : κ) :
    M.after s is a = (M.cell address).after (s a) (is.filter fun i => address i = a) :=
  (isLocal.simulates a).after_map trivial is

/-! ## Interleavings of the cells -/

theorem Local.alone (s : κ → α) (is : List ι) (a : κ) :
    M.after s (is.filter fun i => address i = a) a = M.after s is a ∧
      history address a (M.trace s (is.filter fun i => address i = a)) =
        history address a (M.trace s is) := by
  rw [isLocal.after_eq, isLocal.after_eq, isLocal.history_eq, isLocal.history_eq,
    List.filter_filter]
  simp

omit isLocal in
theorem perm_of_filter_eq {β : Type} (key : β → κ) {l l' : List β}
    (same : ∀ a, l.filter (key · = a) = l'.filter (key · = a)) : l.Perm l' := by
  classical
  rw [List.perm_iff_count]
  intro x
  have counted := congrArg (List.count x) (same (key x))
  rwa [List.count_filter (by simp), List.count_filter (by simp)] at counted

omit isLocal in
theorem history_filter (address : ι → κ) (a : κ) (trace : List (Transition (κ → α) ι ε ω)) :
    (trace.map fun t => t.map (· (address t.instruction))).filter
        (fun t => address t.instruction = a) = history address a trace := by
  rw [List.filter_map]
  apply List.map_congr_left
  intro t member
  have own := of_decide_eq_true (List.mem_filter.mp member).2
  rw [← own]
  rfl

/-- Runs that agree on the order of the instructions for each address, and on no other order, give
every instruction the same result, end in the same state and emit the same events, up to order. -/
theorem Local.interleaved (s : κ → α) {is js : List ι}
    (same : ∀ a, is.filter (address · = a) = js.filter (address · = a)) :
    M.after s is = M.after s js ∧
      (∀ a, history address a (M.trace s is) = history address a (M.trace s js)) ∧
      (M.emitted s is).Perm (M.emitted s js) := by
  have histories (a : κ) :
      history address a (M.trace s is) = history address a (M.trace s js) := by
    rw [isLocal.history_eq, isLocal.history_eq, same a]
  refine ⟨funext fun a => ?_, histories, ?_⟩
  · rw [isLocal.after_eq, isLocal.after_eq, same a]
  · have shuffled : ((M.trace s is).map fun t => t.map (· (address t.instruction))).Perm
        ((M.trace s js).map fun t => t.map (· (address t.instruction))) := by
      apply perm_of_filter_eq fun t => address t.instruction
      intro a
      rw [history_filter, history_filter, histories a]
    have emits (is : List ι) : M.emitted s is =
        ((M.trace s is).map fun t => t.map (· (address t.instruction))).flatMap
          Transition.events := by
      simp only [emitted, List.flatMap_map, Transition.map_events]
    rw [emits is, emits js]
    exact shuffled.flatMap_right Transition.events

end Local
end Machine
end NttX402.Library
