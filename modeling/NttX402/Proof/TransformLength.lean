import NttX402.Library.Result
import NttX402.Worker.Backend
import Mathlib.Data.List.Iterate
import Mathlib.Data.Nat.Log

namespace NttX402.Proof
open Worker Library

section Length
variable {G : P3Goldilocks}

/-! ## One level of the recursion -/

/-- What is left is twice the shortest of the three zipped sequences. -/
theorem nttRecursive_length_of_long {coeffs : List G.Elem} (long : ¬coeffs.length ≤ 1)
    (omega : G.Elem) :
    (nttRecursive G coeffs omega).length =
      2 * min (min (nttRecursive G (stepByTwo coeffs) (G.mul omega omega)).length
        (nttRecursive G (stepByTwo (coeffs.drop 1)) (G.mul omega omega)).length)
        (coeffs.length / 2) := by
  rw [nttRecursive, if_neg long]
  simp only [List.length_append, List.length_map, List.length_zip, List.length_iterate]
  omega

/-! ## All levels -/

theorem two_pow_log_half {n : ℕ} (long : 2 ≤ n) :
    2 ^ Nat.log 2 n = 2 * 2 ^ Nat.log 2 (n / 2) := by
  rw [Nat.log_of_one_lt_of_le Nat.one_lt_two long, pow_succ']

theorem nttRecursive_length (coeffs : List G.Elem) (omega : G.Elem) (nonempty : coeffs ≠ []) :
    (nttRecursive G coeffs omega).length = 2 ^ Nat.log 2 coeffs.length := by
  induction coeffs, omega using nttRecursive.induct G with
  | case1 coeffs omega short =>
      have positive := List.length_pos_of_ne_nil nonempty
      have one : coeffs.length = 1 := by omega
      rw [nttRecursive_of_short G short, one, Nat.log_one_right, pow_zero]
  | case2 coeffs omega long evens odds omegaSq ihEvens ihOdds =>
      -- The odd half is the shorter one, and the even half keeps no fewer elements than it does.
      have evensLength : evens.length = (coeffs.length + 1) / 2 := stepByTwo_length coeffs
      have oddsLength : odds.length = coeffs.length / 2 := odds_length coeffs
      have e := ihEvens (List.ne_nil_of_length_pos (by omega))
      have o := ihOdds (List.ne_nil_of_length_pos (by omega))
      rw [evensLength] at e
      rw [oddsLength] at o
      have shorter : 2 ^ Nat.log 2 (coeffs.length / 2) ≤ 2 ^ Nat.log 2 ((coeffs.length + 1) / 2) :=
        Nat.pow_le_pow_right Nat.two_pos (Nat.log_mono_right (by omega))
      have twiddles : 2 ^ Nat.log 2 (coeffs.length / 2) ≤ coeffs.length / 2 :=
        Nat.pow_log_le_self 2 (by omega)
      calc (nttRecursive G coeffs omega).length
          = 2 * min (min (2 ^ Nat.log 2 ((coeffs.length + 1) / 2))
              (2 ^ Nat.log 2 (coeffs.length / 2))) (coeffs.length / 2) := by
            rw [nttRecursive_length_of_long long, e, o]
        _ = 2 * 2 ^ Nat.log 2 (coeffs.length / 2) := by
            rw [Nat.min_eq_right shorter, Nat.min_eq_left twiddles]
        _ = 2 ^ Nat.log 2 coeffs.length := (two_pow_log_half (by omega)).symm

/-! ## Losing elements -/

theorem two_pow_log_lt_iff {n : ℕ} (nonzero : n ≠ 0) : 2 ^ Nat.log 2 n < n ↔ ¬∃ m, n = 2 ^ m := by
  have atMost := Nat.pow_log_le_self 2 nonzero
  rw [← not_le, not_iff_not]
  constructor
  · exact fun atLeast => ⟨_, Nat.le_antisymm atLeast atMost⟩
  · rintro ⟨m, rfl⟩
    rw [Nat.log_pow Nat.one_lt_two]

theorem nttRecursive_length_lt_iff (coeffs : List G.Elem) (omega : G.Elem) :
    (nttRecursive G coeffs omega).length < coeffs.length ↔
      coeffs.length ≠ 0 ∧ ¬∃ m, coeffs.length = 2 ^ m := by
  by_cases empty : coeffs.length = 0
  · simp [empty]
  · have nonempty : coeffs ≠ [] := List.ne_nil_of_length_pos (by omega)
    rw [nttRecursive_length coeffs omega nonempty, two_pow_log_lt_iff empty]
    simp [empty]

theorem goldilocksNtt_length {coefficients output : List UInt64} {direction : Direction}
    {degree : PolyDegreeLog2} (ok : goldilocksNtt G coefficients direction degree = .ok output) :
    ∃ omega, output.length = (nttRecursive G (coefficients.map G.fromU64) omega).length := by
  unfold goldilocksNtt at ok
  by_cases outside : degree.get.toNat > G.twoAdicity
  · rw [if_pos outside] at ok
    cases ok
  · rw [if_neg outside] at ok
    cases direction with
    | Forward =>
        obtain rfl := Except.ok.inj ok
        exact ⟨_, List.length_map ..⟩
    | Inverse =>
        dsimp only at ok
        split at ok
        · split at ok
          · obtain rfl := Except.ok.inj ok
            exact ⟨_, by rw [List.length_map, List.length_map]⟩
          · cases ok
        · cases ok

theorem computeWasm_ok_length {sha256 : List UInt8 → Vector UInt8 32} {field : Field}
    {direction : Direction} {degree : PolyDegreeLog2} {coefficients : List UInt64}
    {outcome : ComputeOutcome}
    (ok : computeWasm G sha256 field direction degree coefficients = .ok outcome) :
    coefficients.length = 2 ^ degree.get.toNat ∧
      goldilocksNtt G coefficients direction degree = .ok outcome.output := by
  simp only [computeWasm, Nat.one_shiftLeft] at ok
  split at ok
  · rename_i length
    cases dispatched : dispatchField G field direction degree coefficients with
    | error e =>
        rw [dispatched] at ok
        cases ok
    | ok output =>
        rw [dispatched] at ok
        obtain rfl := Except.ok.inj ok
        cases field with
        | Goldilocks => exact ⟨length, dispatched⟩
        | BabyBear => cases dispatched
  · cases ok

end Length

/-- The recursion returns the largest power of two of its elements, so it loses some exactly for
the other lengths; the backend alone would do so silently, and the length check keeps every
element. -/
theorem nttRecursive_loses (G : P3Goldilocks) :
    (∀ coeffs omega, (nttRecursive G coeffs omega).length =
      if coeffs.length = 0 then 0 else 2 ^ Nat.log 2 coeffs.length) ∧
    (∀ coeffs omega, (nttRecursive G coeffs omega).length < coeffs.length ↔
      coeffs.length ≠ 0 ∧ ¬∃ m, coeffs.length = 2 ^ m) ∧
    (∀ coefficients direction degree output,
      goldilocksNtt G coefficients direction degree = .ok output →
        (output.length < coefficients.length ↔
          coefficients.length ≠ 0 ∧ ¬∃ m, coefficients.length = 2 ^ m)) ∧
    ∀ sha256 field direction degree coefficients outcome,
      computeWasm G sha256 field direction degree coefficients = .ok outcome →
        outcome.output.length = coefficients.length := by
  refine ⟨?_, nttRecursive_length_lt_iff, ?_, ?_⟩
  · intro coeffs omega
    split_ifs with empty
    · rw [nttRecursive_of_short G (by omega), empty]
    · exact nttRecursive_length coeffs omega (List.ne_nil_of_length_pos (by omega))
  · intro coefficients direction degree output ok
    obtain ⟨omega, length⟩ := goldilocksNtt_length ok
    have lost := nttRecursive_length_lt_iff (coefficients.map G.fromU64) omega
    rwa [← length, List.length_map] at lost
  · intro sha256 field direction degree coefficients outcome ok
    obtain ⟨length, transformed⟩ := computeWasm_ok_length ok
    obtain ⟨omega, kept⟩ := goldilocksNtt_length transformed
    have nonempty : coefficients.map G.fromU64 ≠ [] := by
      apply List.ne_nil_of_length_pos
      rw [List.length_map, length]
      exact Nat.two_pow_pos _
    rw [kept, nttRecursive_length _ omega nonempty, List.length_map, length,
      Nat.log_pow Nat.one_lt_two]

end NttX402.Proof
