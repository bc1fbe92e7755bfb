import NttX402.Library.Json.Token

namespace NttX402.Library.Json

/-! ## Spaced texts -/

theorem isWordChar_of_isWs {c : Char} (ws : isWs c = true) : isWordChar c = false := by
  simp only [isWs, Bool.or_eq_true, decide_eq_true_eq] at ws
  rcases ws with ((rfl | rfl) | rfl) | rfl <;> decide

theorem isWs_of_isWordChar {c : Char} (word : isWordChar c = true) : isWs c = false := by
  by_contra ws
  simp [isWordChar_of_isWs (by simpa using ws)] at word

@[simp] theorem isWordChar_punct (p : Punct) : isWordChar p.char = false := by
  cases p <;> decide

@[simp] theorem isWs_punct (p : Punct) : isWs p.char = false := by
  cases p <;> decide

theorem punct?_of_isWordChar {c : Char} (word : isWordChar c = true) : punct? c = none := by
  cases found : punct? c with
  | none => rfl
  | some p => simp [← char_of_punct? found] at word

def EndsInWord (text : List Char) : Prop := ∃ c ∈ text.getLast?, isWordChar c = true

theorem not_endsInWord_concat {text : List Char} {c : Char} (other : isWordChar c = false) :
    ¬ EndsInWord (text ++ [c]) := by
  simp [EndsInWord, other]

theorem endsInWord_append {text w : List Char} (nonempty : w ≠ []) :
    EndsInWord (text ++ w) ↔ EndsInWord w := by
  rw [EndsInWord, EndsInWord, List.getLast?_append, List.getLast?_eq_some_getLast nonempty,
    Option.some_or]

def IsWord (w : List Char) : Prop := w ≠ [] ∧ Every isWordChar w

/-- `text` is the tokens in order, with whitespace anywhere between them and at both ends. Two
words never touch. -/
inductive Spaced : List Token → List Char → Prop
  | nil : Spaced [] []
  | space {tokens text c} : Spaced tokens text → isWs c = true → Spaced tokens (text ++ [c])
  | punct {tokens text} (p : Punct) : Spaced tokens text →
      Spaced (tokens ++ [.punct p]) (text ++ (Token.punct p).text)
  | string {tokens text} (s : List Item) : Spaced tokens text →
      Spaced (tokens ++ [.string s]) (text ++ (Token.string s).text)
  | word {tokens text} {w : List Char} : Spaced tokens text → IsWord w → ¬ EndsInWord text →
      Spaced (tokens ++ [.word w]) (text ++ (Token.word w).text)

theorem Spaced.append {tokens tokens' : List Token} {text text' : List Char}
    (first : Spaced tokens text) (apart : ¬ EndsInWord text) (second : Spaced tokens' text') :
    Spaced (tokens ++ tokens') (text ++ text') := by
  induction second with
  | nil => simpa using first
  | space _ ws ih =>
      rw [← List.append_assoc]
      exact ih.space ws
  | punct p _ ih =>
      rw [← List.append_assoc, ← List.append_assoc]
      exact ih.punct p
  | string s _ ih =>
      rw [← List.append_assoc, ← List.append_assoc]
      exact ih.string s
  | @word _ before w _ isWord boundary ih =>
      rw [← List.append_assoc, ← List.append_assoc]
      refine ih.word isWord ?_
      by_cases empty : before = []
      · rwa [empty, List.append_nil]
      · rwa [endsInWord_append empty]

/-! ## The lexer -/

inductive Mode
  | idle
  | word (w : List Char)
  | string (s : List Item)
  | escape (s : List Item)
  | unicode (s : List Item) (digits : List HexDigit)
  deriving DecidableEq

/-- The tokens read so far, and what has been read of the next one. -/
structure LexState where
  tokens : List Token
  mode : Mode
  deriving DecidableEq

def lexStart (tokens : List Token) (c : Char) : Option LexState :=
  if isWs c then some ⟨tokens, .idle⟩
  else match punct? c with
    | some p => some ⟨tokens ++ [.punct p], .idle⟩
    | none =>
      if c = '"' then some ⟨tokens, .string []⟩
      else if isWordChar c then some ⟨tokens, .word [c]⟩
      else none

def lexStep (st : LexState) (c : Char) : Option LexState :=
  match st.mode with
  | .idle => lexStart st.tokens c
  | .word w =>
    if isWordChar c then some ⟨st.tokens, .word (w ++ [c])⟩
    else lexStart (st.tokens ++ [.word w]) c
  | .string s =>
    if c = '"' then some ⟨st.tokens ++ [.string s], .idle⟩
    else if c = '\\' then some ⟨st.tokens, .escape s⟩
    else if valid : isPlain c then some ⟨st.tokens, .string (s ++ [.plain c valid])⟩
    else none
  | .escape s =>
    if c = 'u' then some ⟨st.tokens, .unicode s []⟩
    else match escape? c with
      | some e => some ⟨st.tokens, .string (s ++ [.escape e])⟩
      | none => none
  | .unicode s digits =>
    if valid : (hexValue? c).isSome then
      match digits with
      | [a, b, d] => some ⟨st.tokens, .string (s ++ [.unicode a b d ⟨c, valid⟩])⟩
      | _ => some ⟨st.tokens, .unicode s (digits ++ [⟨c, valid⟩])⟩
    else none

def lexRun (st : LexState) (text : List Char) : Option LexState := text.foldlM lexStep st

def lexEnd (st : LexState) : Option (List Token) :=
  match st.mode with
  | .idle => some st.tokens
  | .word w => some (st.tokens ++ [.word w])
  | _ => none

def lex (text : List Char) : Option (List Token) := (lexRun ⟨[], .idle⟩ text).bind lexEnd

@[simp] theorem lexRun_nil (st : LexState) : lexRun st [] = some st := rfl

@[simp] theorem lexRun_cons (st : LexState) (c : Char) (text : List Char) :
    lexRun st (c :: text) = (lexStep st c).bind fun st' => lexRun st' text := by
  simp [lexRun]

theorem lexRun_append (st : LexState) (text text' : List Char) :
    lexRun st (text ++ text') = (lexRun st text).bind fun st' => lexRun st' text' := by
  simp [lexRun, List.foldlM_append]

/-! ## Soundness -/

def Mode.text : Mode → List Char
  | .idle => []
  | .word w => w
  | .string s => '"' :: itemsText s
  | .escape s => '"' :: (itemsText s ++ ['\\'])
  | .unicode s digits => '"' :: (itemsText s ++ '\\' :: 'u' :: digits.map HexDigit.char)

/-- What may stand before the open token. -/
def Mode.Follows (done : List Char) : Mode → Prop
  | .idle => ¬ EndsInWord done
  | .word w => IsWord w ∧ ¬ EndsInWord done
  | _ => True

/-- What the lexer has seen: the finished tokens spaced out, and the open one. -/
def Seen (st : LexState) (text : List Char) : Prop :=
  ∃ done, Spaced st.tokens done ∧ text = done ++ st.mode.text ∧ st.mode.Follows done

theorem seen_lexStart {tokens : List Token} {text : List Char} {c : Char} {st : LexState}
    (spaced : Spaced tokens text) (apart : isWordChar c = true → ¬ EndsInWord text)
    (step : lexStart tokens c = some st) : Seen st (text ++ [c]) := by
  unfold lexStart at step
  split at step
  · rename_i ws
    obtain rfl := Option.some.inj step
    exact ⟨_, spaced.space ws, by simp [Mode.text],
      not_endsInWord_concat (isWordChar_of_isWs ws)⟩
  · split at step
    · rename_i p found
      obtain rfl := Option.some.inj step
      rw [← char_of_punct? found]
      exact ⟨_, spaced.punct p, by simp [Mode.text, Token.text],
        not_endsInWord_concat (isWordChar_punct p)⟩
    · split at step
      · rename_i quote
        obtain rfl := Option.some.inj step
        exact ⟨text, spaced, by simp [Mode.text, quote], trivial⟩
      · split at step
        · rename_i word
          obtain rfl := Option.some.inj step
          exact ⟨text, spaced, rfl, ⟨by simp, by simpa using word⟩, apart word⟩
        · cases step

theorem seen_lexStep {st st' : LexState} {text : List Char} {c : Char} (seen : Seen st text)
    (step : lexStep st c = some st') : Seen st' (text ++ [c]) := by
  obtain ⟨tokens, mode⟩ := st
  obtain ⟨done, spaced, rfl, follows⟩ := seen
  cases mode with
  | idle =>
      simp only [Mode.text, List.append_nil]
      exact seen_lexStart spaced (fun _ => follows) step
  | word w =>
      obtain ⟨isWord, apart⟩ := follows
      simp only [lexStep] at step
      split at step
      · rename_i word
        obtain rfl := Option.some.inj step
        refine ⟨done, spaced, by simp [Mode.text], ⟨by simp, ?_⟩, apart⟩
        intro d member
        rcases List.mem_append.mp member with old | new
        · exact isWord.2 d old
        · simpa [List.mem_singleton.mp new] using word
      · rename_i other
        exact seen_lexStart (spaced.word isWord apart) (fun word => absurd word other) step
  | string s =>
      simp only [lexStep] at step
      split_ifs at step with quote backslash plain
      · obtain rfl := Option.some.inj step
        subst quote
        refine ⟨_, spaced.string s, by simp [Mode.text, Token.text], ?_⟩
        rw [Token.text, ← List.cons_append, ← List.append_assoc]
        exact not_endsInWord_concat (by decide)
      · obtain rfl := Option.some.inj step
        exact ⟨done, spaced, by simp [Mode.text, backslash], trivial⟩
      · obtain rfl := Option.some.inj step
        exact ⟨done, spaced, by simp [Mode.text, Item.text], trivial⟩
  | escape s =>
      simp only [lexStep] at step
      split_ifs at step with isU
      · obtain rfl := Option.some.inj step
        exact ⟨done, spaced, by simp [Mode.text, isU], trivial⟩
      · split at step
        · rename_i e found
          obtain rfl := Option.some.inj step
          exact ⟨done, spaced, by simp [Mode.text, Item.text, letter_of_escape? found], trivial⟩
        · cases step
  | unicode s digits =>
      simp only [lexStep] at step
      split_ifs at step with hex
      split at step
      · obtain rfl := Option.some.inj step
        exact ⟨done, spaced, by simp [Mode.text, Item.text], trivial⟩
      · obtain rfl := Option.some.inj step
        exact ⟨done, spaced, by simp [Mode.text], trivial⟩

theorem seen_lexRun {st st' : LexState} {text rest : List Char} (seen : Seen st text)
    (run : lexRun st rest = some st') : Seen st' (text ++ rest) := by
  induction rest generalizing st text with
  | nil =>
      obtain rfl := Option.some.inj run
      simpa using seen
  | cons c rest ih =>
      rw [lexRun_cons, Option.bind_eq_some_iff] at run
      obtain ⟨next, step, run⟩ := run
      simpa using ih (seen_lexStep seen step) run

theorem spaced_of_lex {text : List Char} {tokens : List Token} (h : lex text = some tokens) :
    Spaced tokens text := by
  obtain ⟨st, run, finish⟩ := Option.bind_eq_some_iff.mp h
  have start : Seen ⟨[], .idle⟩ [] := ⟨[], .nil, rfl, by simp [Mode.Follows, EndsInWord]⟩
  obtain ⟨done, spaced, whole, follows⟩ := seen_lexRun start run
  rw [List.nil_append] at whole
  obtain ⟨tokens', mode⟩ := st
  cases mode with
  | idle =>
      obtain rfl := Option.some.inj finish
      simpa [whole, Mode.text] using spaced
  | word w =>
      obtain rfl := Option.some.inj finish
      rw [whole]
      exact spaced.word follows.1 follows.2
  | string s => cases finish
  | escape s => cases finish
  | unicode s digits => cases finish

/-! ## Completeness -/

/-- The lexer has all the tokens, the last one perhaps still open as a word. -/
def Ready (st : LexState) (tokens : List Token) (text : List Char) : Prop :=
  st = ⟨tokens, .idle⟩ ∨
    ∃ init w, st = ⟨init, .word w⟩ ∧ tokens = init ++ [.word w] ∧ EndsInWord text

theorem Ready.lexStep {st : LexState} {tokens : List Token} {text : List Char}
    (ready : Ready st tokens text) {c : Char} (apart : isWordChar c = true → ¬ EndsInWord text) :
    lexStep st c = lexStart tokens c := by
  rcases ready with rfl | ⟨init, w, rfl, rfl, word⟩
  · rfl
  · have other : isWordChar c = false := by
      by_contra h
      exact apart (by simpa using h) word
    simp [Json.lexStep, other]

theorem lexRun_items (tokens : List Token) (read s : List Item) (rest : List Char) :
    lexRun ⟨tokens, .string read⟩ (itemsText s ++ rest) =
      lexRun ⟨tokens, .string (read ++ s)⟩ rest := by
  induction s generalizing read with
  | nil => simp
  | cons i s ih =>
      have next := ih (read ++ [i])
      rw [List.append_assoc, List.singleton_append] at next
      rw [← next]
      cases i with
      | plain c valid =>
          have notQuote : c ≠ '"' := by rintro rfl; simp [isPlain] at valid
          have notBackslash : c ≠ '\\' := by rintro rfl; simp [isPlain] at valid
          simp [Item.text, Json.lexStep, notQuote, notBackslash, valid]
      | escape e =>
          have notU : e.letter ≠ 'u' := by cases e <;> decide
          simp [Item.text, Json.lexStep, notU]
      | unicode a b c d =>
          simp [Item.text, Json.lexStep, a.valid, b.valid, c.valid, d.valid]

theorem lexRun_word (tokens : List Token) (read w : List Char)
    (word : Every isWordChar w) :
    lexRun ⟨tokens, .word read⟩ w = some ⟨tokens, .word (read ++ w)⟩ := by
  induction w generalizing read with
  | nil => simp
  | cons c w ih =>
      have head : isWordChar c = true := word c (by simp)
      simp [Json.lexStep, head, ih (read ++ [c]) fun d member => word d (by simp [member])]

theorem lexStart_word (tokens : List Token) {c : Char} (word : isWordChar c = true) :
    lexStart tokens c = some ⟨tokens, .word [c]⟩ := by
  have notQuote : c ≠ '"' := by rintro rfl; simp [isWordChar] at word
  simp [lexStart, isWs_of_isWordChar word, punct?_of_isWordChar word, notQuote, word]

theorem endsInWord_of_isWord {text w : List Char} (isWord : IsWord w) : EndsInWord (text ++ w) := by
  rw [endsInWord_append isWord.1]
  exact ⟨w.getLast isWord.1, by simp [List.getLast?_eq_some_getLast isWord.1],
    isWord.2 _ (List.getLast_mem isWord.1)⟩

theorem lexRun_of_spaced {tokens : List Token} {text : List Char} (spaced : Spaced tokens text) :
    ∃ st, lexRun ⟨[], .idle⟩ text = some st ∧ Ready st tokens text := by
  induction spaced with
  | nil => exact ⟨_, rfl, Or.inl rfl⟩
  | @space _ _ c _ ws ih =>
      obtain ⟨st, run, ready⟩ := ih
      have step := ready.lexStep (c := c) (by simp [isWordChar_of_isWs ws])
      exact ⟨_, by simp [lexRun_append, run, step, lexStart, ws], Or.inl rfl⟩
  | punct p _ ih =>
      obtain ⟨st, run, ready⟩ := ih
      have step := ready.lexStep (c := p.char) (by simp)
      exact ⟨_, by simp [lexRun_append, run, Token.text, step, lexStart], Or.inl rfl⟩
  | @string tokens _ s _ ih =>
      obtain ⟨st, run, ready⟩ := ih
      have step := ready.lexStep (c := '"') (by simp [isWordChar])
      have opened : lexStart tokens '"' = some ⟨tokens, .string []⟩ := by
        simp [lexStart, isWs, punct?]
      have closed : Json.lexStep ⟨tokens, .string s⟩ '"' =
          some ⟨tokens ++ [.string s], .idle⟩ := rfl
      refine ⟨⟨tokens ++ [.string s], .idle⟩, ?_, Or.inl rfl⟩
      rw [lexRun_append, run, Option.bind_some, Token.text, lexRun_cons, step, opened,
        Option.bind_some, lexRun_items, List.nil_append, lexRun_cons, closed, Option.bind_some,
        lexRun_nil]
  | @word tokens text w _ isWord apart ih =>
      obtain ⟨st, run, ready⟩ := ih
      obtain ⟨c, w, rfl⟩ := List.exists_cons_of_ne_nil isWord.1
      have head : isWordChar c = true := isWord.2 c (by simp)
      have step := ready.lexStep (c := c) (fun _ => apart)
      have tail := lexRun_word tokens [c] w fun d member => isWord.2 d (by simp [member])
      refine ⟨⟨tokens, .word (c :: w)⟩, ?_, Or.inr ⟨tokens, c :: w, rfl, rfl, ?_⟩⟩
      · simp [lexRun_append, run, Token.text, step, lexStart_word tokens head, tail]
      · exact endsInWord_of_isWord isWord

theorem lex_eq_some_iff {text : List Char} {tokens : List Token} :
    lex text = some tokens ↔ Spaced tokens text := by
  refine ⟨spaced_of_lex, fun spaced => ?_⟩
  obtain ⟨st, run, ready⟩ := lexRun_of_spaced spaced
  rw [lex, run, Option.bind_some]
  rcases ready with rfl | ⟨init, w, rfl, rfl, -⟩ <;> rfl

end NttX402.Library.Json
