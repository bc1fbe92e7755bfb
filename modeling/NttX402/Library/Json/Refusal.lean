import NttX402.Library.Json.Value

/-! # Texts that are not JSON -/

namespace NttX402.Library.Json

theorem tokens_lexStart {tokens : List Token} {c : Char} {st : LexState}
    (start : lexStart tokens c = some st) : tokens <+: st.tokens := by
  unfold lexStart at start
  split at start
  · obtain rfl := Option.some.inj start
    exact List.prefix_rfl
  · split at start
    · obtain rfl := Option.some.inj start
      exact List.prefix_append ..
    · split_ifs at start
      · obtain rfl := Option.some.inj start
        exact List.prefix_rfl
      · obtain rfl := Option.some.inj start
        exact List.prefix_rfl

theorem tokens_lexStep {st st' : LexState} {c : Char} (step : lexStep st c = some st') :
    st.tokens <+: st'.tokens := by
  obtain ⟨tokens, mode⟩ := st
  cases mode with
  | idle => exact tokens_lexStart step
  | word w =>
      simp only [lexStep] at step
      split_ifs at step
      · obtain rfl := Option.some.inj step
        exact List.prefix_rfl
      · exact (List.prefix_append ..).trans (tokens_lexStart step)
  | string s =>
      simp only [lexStep] at step
      split_ifs at step
      · obtain rfl := Option.some.inj step
        exact List.prefix_append ..
      · obtain rfl := Option.some.inj step
        exact List.prefix_rfl
      · obtain rfl := Option.some.inj step
        exact List.prefix_rfl
  | escape s =>
      simp only [lexStep] at step
      split_ifs at step
      · obtain rfl := Option.some.inj step
        exact List.prefix_rfl
      · split at step
        · obtain rfl := Option.some.inj step
          exact List.prefix_rfl
        · cases step
  | unicode s digits =>
      simp only [lexStep] at step
      split_ifs at step
      split at step
      · obtain rfl := Option.some.inj step
        exact List.prefix_rfl
      · obtain rfl := Option.some.inj step
        exact List.prefix_rfl

theorem tokens_lexRun {st st' : LexState} {text : List Char} (run : lexRun st text = some st') :
    st.tokens <+: st'.tokens := by
  induction text generalizing st with
  | nil =>
      obtain rfl := Option.some.inj run
      exact List.prefix_rfl
  | cons c text ih =>
      rw [lexRun_cons, Option.bind_eq_some_iff] at run
      obtain ⟨next, step, run⟩ := run
      exact (tokens_lexStep step).trans (ih run)

theorem tokens_lexEnd {st : LexState} {tokens : List Token} (finish : lexEnd st = some tokens) :
    st.tokens <+: tokens := by
  obtain ⟨done, mode⟩ := st
  cases mode with
  | idle =>
      obtain rfl := Option.some.inj finish
      exact List.prefix_rfl
  | word w =>
      obtain rfl := Option.some.inj finish
      exact List.prefix_append ..
  | string s => cases finish
  | escape s => cases finish
  | unicode s digits => cases finish

theorem lex_of_word {w rest : List Char} {c : Char} (isWord : IsWord w)
    (other : isWordChar c = false) {tokens : List Token}
    (read : lex (w ++ c :: rest) = some tokens) : ∃ others, tokens = .word w :: others := by
  obtain ⟨first, tail, rfl⟩ := List.exists_cons_of_ne_nil isWord.1
  have head : isWordChar first = true := isWord.2 first List.mem_cons_self
  have word : lexRun ⟨[], .idle⟩ (first :: tail) = some ⟨[], .word (first :: tail)⟩ := by
    have opened : lexStep ⟨[], .idle⟩ first = some ⟨[], .word [first]⟩ := lexStart_word [] head
    rw [lexRun_cons, opened, Option.bind_some,
      lexRun_word [] [first] tail fun d member => isWord.2 d (List.mem_cons_of_mem _ member)]
    rfl
  obtain ⟨final, run, finish⟩ := Option.bind_eq_some_iff.mp read
  rw [lexRun_append, word, Option.bind_some, lexRun_cons, Option.bind_eq_some_iff] at run
  obtain ⟨next, step, run⟩ := run
  have closed : lexStart [.word (first :: tail)] c = some next := by
    simpa [lexStep, other] using step
  obtain ⟨others, whole⟩ :=
    ((tokens_lexStart closed).trans (tokens_lexRun run)).trans (tokens_lexEnd finish)
  exact ⟨others, whole.symm⟩

/-- What starts with a word other than `null`, `true`, `false` or a number is not JSON. -/
theorem not_renders_of_word {w rest : List Char} {c : Char} (isWord : IsWord w)
    (other : isWordChar c = false) (notScalar : scalar? w = none) (v : Value) :
    ¬Renders v (w ++ c :: rest) := by
  intro renders
  have parsed := parse_eq_some_iff.mpr renders
  obtain ⟨tokens, read, parsed⟩ := Option.bind_eq_some_iff.mp parsed
  obtain ⟨others, rfl⟩ := lex_of_word isWord other read
  simp [parseTokens, parseStep, notScalar] at parsed

end NttX402.Library.Json
