import Mathlib.Data.List.Basic

/-!
# Machines whose failed instructions are rolled back

An instruction either fails, and then the state stays and nothing is emitted, or it gives the next
state and the events it emitted.
-/

namespace NttX402.Library
variable {σ ι ε ω : Type}

structure Machine (σ ι ε ω : Type) where
  exec : σ → ι → Except ε (σ × List ω)

structure Transition (σ ι ε ω : Type) where
  before : σ
  instruction : ι
  result : Except ε (σ × List ω)

namespace Transition

def after (t : Transition σ ι ε ω) : σ :=
  match t.result with
  | .ok (s, _) => s
  | .error _ => t.before

def events (t : Transition σ ι ε ω) : List ω :=
  match t.result with
  | .ok (_, events) => events
  | .error _ => []

def succeeded (t : Transition σ ι ε ω) : Bool := t.result.isOk

@[simp] theorem after_ok (s s' : σ) (i : ι) (events : List ω) :
    (⟨s, i, .ok (s', events)⟩ : Transition σ ι ε ω).after = s' := rfl

@[simp] theorem after_error (s : σ) (i : ι) (e : ε) :
    (⟨s, i, .error e⟩ : Transition σ ι ε ω).after = s := rfl

@[simp] theorem events_ok (s s' : σ) (i : ι) (events : List ω) :
    (⟨s, i, .ok (s', events)⟩ : Transition σ ι ε ω).events = events := rfl

@[simp] theorem events_error (s : σ) (i : ι) (e : ε) :
    (⟨s, i, .error e⟩ : Transition σ ι ε ω).events = [] := rfl

@[simp] theorem succeeded_ok (s s' : σ) (i : ι) (events : List ω) :
    (⟨s, i, .ok (s', events)⟩ : Transition σ ι ε ω).succeeded = true := rfl

@[simp] theorem succeeded_error (s : σ) (i : ι) (e : ε) :
    (⟨s, i, .error e⟩ : Transition σ ι ε ω).succeeded = false := rfl

end Transition

namespace Machine
variable (M : Machine σ ι ε ω)

def step (s : σ) (i : ι) : Transition σ ι ε ω := ⟨s, i, M.exec s i⟩

@[simp] theorem step_before (s : σ) (i : ι) : (M.step s i).before = s := rfl

@[simp] theorem step_instruction (s : σ) (i : ι) : (M.step s i).instruction = i := rfl

variable {M}

theorem step_of_exec {s : σ} {i : ι} {result : Except ε (σ × List ω)} (exec : M.exec s i = result) :
    M.step s i = ⟨s, i, result⟩ := by
  rw [step, exec]

theorem step_cases (s : σ) (i : ι) :
    (∃ e, M.step s i = ⟨s, i, .error e⟩) ∨
      ∃ s' events, M.step s i = ⟨s, i, .ok (s', events)⟩ ∧ M.exec s i = .ok (s', events) := by
  cases outcome : M.exec s i with
  | error e => exact .inl ⟨e, step_of_exec outcome⟩
  | ok result => exact .inr ⟨result.1, result.2, step_of_exec outcome, rfl⟩

/-! ## Runs -/

variable (M)

def after (s : σ) (is : List ι) : σ := is.foldl (fun s i => (M.step s i).after) s

def trace : σ → List ι → List (Transition σ ι ε ω)
  | _, [] => []
  | s, i :: is => M.step s i :: trace (M.step s i).after is

def emitted (s : σ) (is : List ι) : List ω := (M.trace s is).flatMap Transition.events

variable {M}

@[simp] theorem after_nil (s : σ) : M.after s [] = s := rfl

@[simp] theorem after_cons (s : σ) (i : ι) (is : List ι) :
    M.after s (i :: is) = M.after (M.step s i).after is := rfl

theorem after_append (s : σ) (is js : List ι) :
    M.after s (is ++ js) = M.after (M.after s is) js :=
  List.foldl_append

theorem after_concat (s : σ) (is : List ι) (i : ι) :
    M.after s (is ++ [i]) = (M.step (M.after s is) i).after :=
  after_append s is [i]

theorem trace_append (s : σ) (is js : List ι) :
    M.trace s (is ++ js) = M.trace s is ++ M.trace (M.after s is) js := by
  induction is generalizing s with
  | nil => rfl
  | cons i is ih => exact congrArg (M.step s i :: ·) (ih _)

theorem mem_trace_iff {s : σ} {is : List ι} {t : Transition σ ι ε ω} :
    t ∈ M.trace s is ↔
      ∃ earlier later, is = earlier ++ t.instruction :: later ∧
        t = M.step (M.after s earlier) t.instruction := by
  constructor
  · intro member
    induction is generalizing s with
    | nil => cases member
    | cons i is ih =>
        cases member with
        | head => exact ⟨[], is, rfl, rfl⟩
        | tail _ member =>
            obtain ⟨earlier, later, split, step⟩ := ih member
            exact ⟨i :: earlier, later, congrArg (i :: ·) split, step⟩
  · rintro ⟨earlier, later, split, step⟩
    rw [split, trace_append]
    apply List.mem_append_right
    rw [step]
    exact List.mem_cons_self

/-! ## Rules -/

def Keeps (M : Machine σ ι ε ω) (P : σ → Prop) : Prop :=
  ∀ s i s' events, P s → M.exec s i = .ok (s', events) → P s'

theorem Keeps.step {P : σ → Prop} (keeps : M.Keeps P) {s : σ} (holds : P s) (i : ι) :
    P (M.step s i).after := by
  rcases step_cases s i with ⟨e, step⟩ | ⟨s', events, step, ok⟩
  · rwa [step]
  · rw [step]
    exact keeps s i s' events holds ok

theorem Keeps.after {P : σ → Prop} (keeps : M.Keeps P) {s : σ} (holds : P s) (is : List ι) :
    P (M.after s is) := by
  induction is generalizing s with
  | nil => exact holds
  | cons i is ih => exact ih (keeps.step holds i)

/-- An invariant that only instructions meeting `C` keep holds as long as all of them do. -/
theorem after_of_each {P : σ → Prop} {C : σ → ι → Prop}
    (kept : ∀ s i, P s → C s i → P (M.step s i).after) {s : σ} (holds : P s) {is : List ι}
    (each : ∀ earlier i later, is = earlier ++ i :: later → C (M.after s earlier) i) :
    P (M.after s is) := by
  induction is generalizing s with
  | nil => exact holds
  | cons i is ih =>
      apply ih (kept s i holds (each [] i is rfl))
      intro earlier j later split
      exact each (i :: earlier) j later (congrArg (i :: ·) split)

/-- A run relates its first state to its last by any order that its instructions follow. -/
theorem after_related {r : σ → σ → Prop} (refl : ∀ s, r s s)
    (trans : ∀ s s' s'', r s s' → r s' s'' → r s s'')
    (follows : ∀ s i s' events, M.exec s i = .ok (s', events) → r s s') (s : σ) (is : List ι) :
    r s (M.after s is) :=
  Keeps.after
    (fun s' i s'' events related ok => trans s s' s'' related (follows s' i s'' events ok))
    (refl s) is

/-- What `P` says of the states and `Q` of the steps from them holds of every transition. -/
theorem Keeps.trace {P : σ → Prop} {Q : Transition σ ι ε ω → Prop} (keeps : M.Keeps P) {s : σ}
    (holds : P s) (steps : ∀ s i, P s → Q (M.step s i)) (is : List ι) :
    ∀ t ∈ M.trace s is, Q t := by
  intro t member
  obtain ⟨earlier, -, -, step⟩ := mem_trace_iff.mp member
  rw [step]
  exact steps _ _ (keeps.after holds earlier)

/-- Where `P` is never lost and exactly the transitions in `creates` bring it about, a run that
starts without `P` creates it once if it ends with `P` and never otherwise. -/
theorem filter_trace {P : σ → Prop} [DecidablePred P] {creates : Transition σ ι ε ω → Bool}
    (keeps : M.Keeps P) (created : ∀ s i, creates (M.step s i) = true ↔ ¬P s ∧ P (M.step s i).after)
    (s : σ) (is : List ι) :
    ((M.trace s is).filter creates).length = if P (M.after s is) ∧ ¬P s then 1 else 0 := by
  induction is generalizing s with
  | nil => simp [trace]
  | cons i is ih =>
      rw [trace, List.filter_cons, after_cons]
      by_cases start : P s
      · have quiet : creates (M.step s i) = false := by
          rw [Bool.eq_false_iff]
          exact fun creating => ((created s i).mp creating).1 start
        simp [quiet, ih, start, keeps.step start i]
      · by_cases next : P (M.step s i).after
        · have creating := (created s i).mpr ⟨start, next⟩
          simp [creating, ih, start, next, keeps.after next is]
        · have quiet : creates (M.step s i) = false := by
            rw [Bool.eq_false_iff]
            exact fun creating => next ((created s i).mp creating).2
          simp [quiet, ih, start, next]

end Machine
end NttX402.Library
