import Mathlib.Data.List.Basic

/-!
# Substring search

First occurrences in a text and what follows them, over an arbitrary alphabet.
-/

namespace NttX402.Library
section Search
variable {α : Type*} [DecidableEq α]

def find? (needle : List α) : List α → Option Nat
  | [] => if needle = [] then some 0 else none
  | c :: text => if needle <+: c :: text then some 0 else (find? needle text).map (· + 1)

def afterFirst (needle text : List α) : Option (List α) :=
  (find? needle text).map fun start => text.drop (start + needle.length)

theorem isSome_afterFirst (needle text : List α) :
    (afterFirst needle text).isSome = (find? needle text).isSome := by
  simp [afterFirst]

@[simp] theorem afterFirst_nil {needle : List α} (nonempty : needle ≠ []) :
    afterFirst needle [] = none := by
  simp [afterFirst, find?, nonempty]

theorem afterFirst_here (needle rest : List α) :
    afterFirst needle (needle ++ rest) = some rest := by
  cases needle with
  | nil => cases rest <;> simp [afterFirst, find?]
  | cons c needle =>
      have here : c :: needle <+: c :: (needle ++ rest) := ⟨rest, rfl⟩
      simp [afterFirst, find?, here]

theorem afterFirst_later {needle : List α} {c : α} {text : List α}
    (notHere : ¬ needle <+: c :: text) :
    afterFirst needle (c :: text) = afterFirst needle text := by
  have shift (start : Nat) : start + 1 + needle.length = start + needle.length + 1 := by omega
  simp only [afterFirst, find?, if_neg notHere, Option.map_map, Function.comp_def, shift,
    List.drop_succ_cons]

theorem afterFirst_skip {needle : List α} {n : α} (skipped : List α) (absent : n ∉ skipped)
    (rest : List α) :
    afterFirst (n :: needle) (skipped ++ rest) = afterFirst (n :: needle) rest := by
  induction skipped with
  | nil => rfl
  | cons c skipped ih =>
      rw [List.mem_cons, not_or] at absent
      rw [List.cons_append, afterFirst_later, ih absent.2]
      intro here
      exact absent.1 (List.cons_prefix_cons.mp here).1

theorem take_findIdx? (stop : α) (text rest : List α) :
    ((text ++ stop :: rest).findIdx? (· = stop)).map (fun i => (text ++ stop :: rest).take i) =
      some (text.takeWhile (· ≠ stop)) := by
  induction text with
  | nil => simp [List.findIdx?_cons]
  | cons c text ih =>
      by_cases here : c = stop
      · simp [List.findIdx?_cons, here]
      · obtain ⟨i, found, cut⟩ := Option.map_eq_some_iff.mp ih
        simp [List.findIdx?_cons, here, found, cut]

end Search
end NttX402.Library
