import NttX402.Library.Json.Lexer
import Mathlib.Data.List.TakeWhile

/-!
# JSON values

A value keeps what was written, without the whitespace: strings are items and numbers are their
literals. `Renders v text` says that `text` is a JSON text for `v`; a text renders at most one
value, the one that `parse` returns (`parse_eq_some_iff`).
-/

namespace NttX402.Library.Json

/-! ## Numbers -/

def isExponent : List Char → Bool
  | [] => true
  | e :: rest =>
    let digits := match rest with
      | '+' :: ds => ds
      | '-' :: ds => ds
      | ds => ds
    (e = 'e' || e = 'E') && digits ≠ [] && digits.all Char.isDigit

def isFraction (text : List Char) : Bool :=
  match text with
  | '.' :: rest =>
    (rest.takeWhile Char.isDigit ≠ []) && isExponent (rest.dropWhile Char.isDigit)
  | rest => isExponent rest

def isNumber (text : List Char) : Bool :=
  let body := match text with
    | '-' :: rest => rest
    | rest => rest
  let digits := body.takeWhile Char.isDigit
  (digits = ['0'] || (digits ≠ [] && digits.head? ≠ some '0')) &&
    isFraction (body.dropWhile Char.isDigit)

structure Number where
  text : List Char
  valid : isNumber text = true
  deriving DecidableEq

theorem isWordChar_of_isDigit {c : Char} (digit : c.isDigit = true) : isWordChar c = true := by
  simp [isWordChar, Char.isAlphanum, digit]

theorem word_of_span {text : List Char}
    (tail : Every isWordChar (text.dropWhile Char.isDigit)) :
    Every isWordChar text := by
  intro c member
  rw [← List.takeWhile_append_dropWhile (p := Char.isDigit) (l := text)] at member
  rcases List.mem_append.mp member with digit | rest
  · exact isWordChar_of_isDigit (List.mem_takeWhile_imp digit)
  · exact tail c rest

theorem word_of_isExponent {text : List Char} (valid : isExponent text = true) :
    Every isWordChar text := by
  have digits {ds : List Char} (all : ds.all Char.isDigit = true) :
      Every isWordChar ds :=
    fun c member => isWordChar_of_isDigit (List.all_eq_true.mp all c member)
  cases text with
  | nil => simp
  | cons e rest =>
      simp only [isExponent, Bool.and_eq_true, Bool.or_eq_true, decide_eq_true_eq] at valid
      obtain ⟨⟨mark, -⟩, all⟩ := valid
      have head : isWordChar e = true := by rcases mark with rfl | rfl <;> decide
      have tail : Every isWordChar rest := by
        split at all
        · exact every_cons.mpr ⟨by decide, digits all⟩
        · exact every_cons.mpr ⟨by decide, digits all⟩
        · exact digits all
      exact every_cons.mpr ⟨head, tail⟩

theorem word_of_isFraction {text : List Char} (valid : isFraction text = true) :
    Every isWordChar text := by
  unfold isFraction at valid
  split at valid
  · rw [Bool.and_eq_true] at valid
    exact every_cons.mpr ⟨by decide, word_of_span (word_of_isExponent valid.2)⟩
  · exact word_of_isExponent valid

theorem Number.isWord (n : Number) : IsWord n.text := by
  obtain ⟨text, valid⟩ := n
  unfold isNumber at valid
  split at valid
  · simp only [Bool.and_eq_true] at valid
    refine ⟨by simp, every_cons.mpr ⟨by decide, ?_⟩⟩
    exact word_of_span (word_of_isFraction valid.2)
  · simp only [Bool.and_eq_true] at valid
    refine ⟨?_, word_of_span (word_of_isFraction valid.2)⟩
    rintro rfl
    simp at valid

theorem Number.head (n : Number) :
    ∃ c rest, n.text = c :: rest ∧ (c = '-' ∨ c.isDigit = true) := by
  obtain ⟨text, valid⟩ := n
  cases text with
  | nil => simp [isNumber] at valid
  | cons c rest =>
      refine ⟨c, rest, rfl, ?_⟩
      by_contra other
      rw [not_or, Bool.not_eq_true] at other
      have noDigits : (c :: rest).takeWhile Char.isDigit = [] := by simp [other.2]
      unfold isNumber at valid
      split at valid
      · rename_i equal
        exact other.1 (List.cons.inj equal).1
      · simp [noDigits] at valid

/-- The value of a literal without sign, fraction and exponent. -/
def Number.natural? (n : Number) : Option Nat :=
  if n.text.all Char.isDigit then some (Nat.ofDigitChars 10 n.text 0)
  else none

/-! ## Values and their tokens -/

inductive Value
  | null
  | bool (b : Bool)
  | number (n : Number)
  | string (s : List Item)
  | array (elements : List Value)
  | object (members : List (List Item × Value))

mutual
def Value.tokens : Value → List Token
  | .null => [.word ['n', 'u', 'l', 'l']]
  | .bool true => [.word ['t', 'r', 'u', 'e']]
  | .bool false => [.word ['f', 'a', 'l', 's', 'e']]
  | .number n => [.word n.text]
  | .string s => [.string s]
  | .array [] => [.punct .lbracket, .punct .rbracket]
  | .array (v :: vs) => .punct .lbracket :: (v.tokens ++ moreElements vs)
  | .object [] => [.punct .lbrace, .punct .rbrace]
  | .object ((name, v) :: ms) =>
    .punct .lbrace :: .string name :: .punct .colon :: (v.tokens ++ moreMembers ms)

def moreElements : List Value → List Token
  | [] => [.punct .rbracket]
  | v :: vs => .punct .comma :: (v.tokens ++ moreElements vs)

def moreMembers : List (List Item × Value) → List Token
  | [] => [.punct .rbrace]
  | (name, v) :: ms =>
    .punct .comma :: .string name :: .punct .colon :: (v.tokens ++ moreMembers ms)
end

@[elab_as_elim]
theorem Value.ind {P : Value → Prop} (null : P .null) (bool : ∀ b, P (.bool b))
    (number : ∀ n, P (.number n)) (string : ∀ s, P (.string s))
    (array : ∀ vs, (∀ v ∈ vs, P v) → P (.array vs))
    (object : ∀ ms : List (List Item × Value), (∀ m ∈ ms, P m.2) → P (.object ms))
    (v : Value) : P v :=
  @Value.rec P (fun vs => ∀ v ∈ vs, P v) (fun ms => ∀ m ∈ ms, P m.2) (fun m => P m.2)
    null bool number string array object
    (by simp) (fun v vs hv hvs => List.forall_mem_cons.mpr ⟨hv, hvs⟩)
    (by simp) (fun m ms hm hms => List.forall_mem_cons.mpr ⟨hm, hms⟩)
    (fun _ _ hv => hv) v

def scalar? (w : List Char) : Option Value :=
  if w = ['n', 'u', 'l', 'l'] then some .null
  else if w = ['t', 'r', 'u', 'e'] then some (.bool true)
  else if w = ['f', 'a', 'l', 's', 'e'] then some (.bool false)
  else if valid : isNumber w then some (.number ⟨w, valid⟩)
  else none

theorem scalar?_number (n : Number) : scalar? n.text = some (.number n) := by
  have notWord {w : List Char} (bad : isNumber w = false) : n.text ≠ w := by
    intro equal
    simp [← equal, n.valid] at bad
  rw [scalar?, if_neg (notWord (by decide)), if_neg (notWord (by decide)),
    if_neg (notWord (by decide)), dif_pos n.valid]

theorem tokens_of_scalar? {w : List Char} {v : Value} (h : scalar? w = some v) :
    v.tokens = [.word w] := by
  unfold scalar? at h
  split_ifs at h <;> simp only [Option.some.injEq] at h <;> subst h <;>
    simp_all [Value.tokens]

/-! ## The parser -/

/-- An open array or object: what it holds so far, and the name whose value comes next. -/
inductive Frame
  | array (done : List Value)
  | object (done : List (List Item × Value)) (name : List Item)

/-- What comes next: a value, a member name, the colon after one, or what follows a value. -/
inductive ParseState
  | value (stack : List Frame)
  | member (done : List (List Item × Value)) (stack : List Frame)
  | colon (done : List (List Item × Value)) (name : List Item) (stack : List Frame)
  | after (v : Value) (stack : List Frame)

def parseStep : ParseState → Token → Option ParseState
  | .value stack, .word w => (scalar? w).map (.after · stack)
  | .value stack, .string s => some (.after (.string s) stack)
  | .value stack, .punct .lbracket => some (.value (.array [] :: stack))
  | .value stack, .punct .lbrace => some (.member [] stack)
  | .value (.array [] :: stack), .punct .rbracket => some (.after (.array []) stack)
  | .member done stack, .string name => some (.colon done name stack)
  | .member [] stack, .punct .rbrace => some (.after (.object []) stack)
  | .colon done name stack, .punct .colon => some (.value (.object done name :: stack))
  | .after v (.array done :: stack), .punct .comma => some (.value (.array (done ++ [v]) :: stack))
  | .after v (.array done :: stack), .punct .rbracket =>
    some (.after (.array (done ++ [v])) stack)
  | .after v (.object done name :: stack), .punct .comma =>
    some (.member (done ++ [(name, v)]) stack)
  | .after v (.object done name :: stack), .punct .rbrace =>
    some (.after (.object (done ++ [(name, v)])) stack)
  | _, _ => none

def parseRun (st : ParseState) (tokens : List Token) : Option ParseState :=
  tokens.foldlM parseStep st

def parseTokens (tokens : List Token) : Option Value :=
  match parseRun (.value []) tokens with
  | some (.after v []) => some v
  | _ => none

@[simp] theorem parseRun_nil (st : ParseState) : parseRun st [] = some st := rfl

@[simp] theorem parseRun_cons (st : ParseState) (t : Token) (tokens : List Token) :
    parseRun st (t :: tokens) = (parseStep st t).bind fun st' => parseRun st' tokens := by
  simp [parseRun]

theorem parseRun_append (st : ParseState) (tokens tokens' : List Token) :
    parseRun st (tokens ++ tokens') =
      (parseRun st tokens).bind fun st' => parseRun st' tokens' := by
  simp [parseRun, List.foldlM_append]

/-! ## Soundness of the parser -/

def elementsBefore (vs : List Value) : List Token :=
  vs.flatMap fun v => v.tokens ++ [.punct .comma]

def membersBefore (ms : List (List Item × Value)) : List Token :=
  ms.flatMap fun m => .string m.1 :: .punct .colon :: (m.2.tokens ++ [.punct .comma])

theorem moreElements_concat (vs : List Value) (v : Value) : moreElements (vs ++ [v]) =
    .punct .comma :: (elementsBefore vs ++ (v.tokens ++ [.punct .rbracket])) := by
  induction vs with
  | nil => simp [moreElements, elementsBefore]
  | cons u vs ih => simp [moreElements, ih, elementsBefore]

theorem tokens_array_concat (done : List Value) (v : Value) :
    (Value.array (done ++ [v])).tokens =
      .punct .lbracket :: (elementsBefore done ++ (v.tokens ++ [.punct .rbracket])) := by
  cases done with
  | nil => simp [Value.tokens, moreElements, elementsBefore]
  | cons u vs => simp [Value.tokens, moreElements_concat, elementsBefore]

theorem moreMembers_concat (ms : List (List Item × Value)) (name : List Item) (v : Value) :
    moreMembers (ms ++ [(name, v)]) =
      .punct .comma :: (membersBefore ms ++
        .string name :: .punct .colon :: (v.tokens ++ [.punct .rbrace])) := by
  induction ms with
  | nil => simp [moreMembers, membersBefore]
  | cons m ms ih => simp [moreMembers, ih, membersBefore]

theorem tokens_object_concat (done : List (List Item × Value)) (name : List Item) (v : Value) :
    (Value.object (done ++ [(name, v)])).tokens =
      .punct .lbrace :: (membersBefore done ++
        .string name :: .punct .colon :: (v.tokens ++ [.punct .rbrace])) := by
  cases done with
  | nil => simp [Value.tokens, moreMembers, membersBefore]
  | cons m ms => simp [Value.tokens, moreMembers_concat, membersBefore]

def Frame.tokens : Frame → List Token
  | .array done => .punct .lbracket :: elementsBefore done
  | .object done name =>
    .punct .lbrace :: (membersBefore done ++ [.string name, .punct .colon])

def stackTokens : List Frame → List Token
  | [] => []
  | frame :: stack => stackTokens stack ++ frame.tokens

/-- The tokens that led to a state. -/
def ParseState.tokens : ParseState → List Token
  | .value stack => stackTokens stack
  | .member done stack => stackTokens stack ++ .punct .lbrace :: membersBefore done
  | .colon done name stack =>
    stackTokens stack ++ .punct .lbrace :: (membersBefore done ++ [.string name])
  | .after v stack => stackTokens stack ++ v.tokens

theorem tokens_parseStep {st st' : ParseState} {t : Token} (step : parseStep st t = some st') :
    st'.tokens = st.tokens ++ [t] := by
  unfold parseStep at step
  split at step
  case h_1 =>
    obtain ⟨v, found, rfl⟩ := Option.map_eq_some_iff.mp step
    simp [ParseState.tokens, tokens_of_scalar? found]
  case h_13 => cases step
  all_goals
    obtain rfl := Option.some.inj step
    simp [ParseState.tokens, stackTokens, Frame.tokens, elementsBefore, membersBefore,
      Value.tokens, tokens_array_concat, tokens_object_concat]

theorem tokens_parseRun {st st' : ParseState} {tokens : List Token}
    (run : parseRun st tokens = some st') : st'.tokens = st.tokens ++ tokens := by
  induction tokens generalizing st with
  | nil =>
      obtain rfl := Option.some.inj run
      simp
  | cons t tokens ih =>
      rw [parseRun_cons, Option.bind_eq_some_iff] at run
      obtain ⟨next, step, run⟩ := run
      simp [ih run, tokens_parseStep step]

/-! ## Completeness of the parser -/

/-- The parser takes in the value, whatever it is inside of. -/
def TakesIn (v : Value) : Prop :=
  ∀ stack, parseRun (.value stack) v.tokens = some (.after v stack)

theorem parseRun_moreElements {vs : List Value} (each : ∀ v ∈ vs, TakesIn v) (done : List Value)
    (u : Value) (stack : List Frame) :
    parseRun (.after u (.array done :: stack)) (moreElements vs) =
      some (.after (.array (done ++ u :: vs)) stack) := by
  induction vs generalizing done u with
  | nil => simp [moreElements, parseStep]
  | cons v vs ih =>
      obtain ⟨first, each⟩ := List.forall_mem_cons.mp each
      have tail := ih each (done ++ [u]) v
      simp [moreElements, parseStep, parseRun_append, first _, tail]

theorem parseRun_moreMembers {ms : List (List Item × Value)} (each : ∀ m ∈ ms, TakesIn m.2)
    (done : List (List Item × Value)) (name : List Item) (u : Value) (stack : List Frame) :
    parseRun (.after u (.object done name :: stack)) (moreMembers ms) =
      some (.after (.object (done ++ (name, u) :: ms)) stack) := by
  induction ms generalizing done name u with
  | nil => simp [moreMembers, parseStep]
  | cons m ms ih =>
      obtain ⟨first, each⟩ := List.forall_mem_cons.mp each
      have tail := ih each (done ++ [(name, u)]) m.1 m.2
      simp [moreMembers, parseStep, parseRun_append, first _, tail]

theorem parseRun_tokens (v : Value) : TakesIn v := by
  induction v using Value.ind with
  | null => exact fun _ => rfl
  | bool b => cases b <;> exact fun _ => rfl
  | number n =>
      intro stack
      simp [Value.tokens, parseStep, scalar?_number]
  | string s => exact fun _ => rfl
  | array vs ih =>
      intro stack
      cases vs with
      | nil => rfl
      | cons v vs =>
          obtain ⟨first, each⟩ := List.forall_mem_cons.mp ih
          have tail := parseRun_moreElements each [] v stack
          simp [Value.tokens, parseStep, parseRun_append, first _, tail]
  | object ms ih =>
      intro stack
      cases ms with
      | nil => rfl
      | cons m ms =>
          obtain ⟨first, each⟩ := List.forall_mem_cons.mp ih
          have tail := parseRun_moreMembers each [] m.1 m.2 stack
          simp [Value.tokens, parseStep, parseRun_append, first _, tail]

theorem parseTokens_eq_some_iff {tokens : List Token} {v : Value} :
    parseTokens tokens = some v ↔ v.tokens = tokens := by
  constructor
  · intro h
    unfold parseTokens at h
    split at h
    · rename_i u run
      obtain rfl := Option.some.inj h
      simpa [ParseState.tokens, stackTokens] using tokens_parseRun run
    · cases h
  · rintro rfl
    rw [parseTokens, parseRun_tokens v]

/-! ## Texts -/

def Renders (v : Value) (text : List Char) : Prop := Spaced v.tokens text

def parse (text : List Char) : Option Value := (lex text).bind parseTokens

theorem parse_eq_some_iff {text : List Char} {v : Value} :
    parse text = some v ↔ Renders v text := by
  simp only [parse, Option.bind_eq_some_iff, lex_eq_some_iff, parseTokens_eq_some_iff, Renders]
  exact ⟨fun ⟨_, spaced, equal⟩ => equal ▸ spaced, fun spaced => ⟨_, spaced, rfl⟩⟩

theorem Renders.unique {v w : Value} {text : List Char} (hv : Renders v text)
    (hw : Renders w text) : v = w :=
  Option.some.inj ((parse_eq_some_iff.mpr hv).symm.trans (parse_eq_some_iff.mpr hw))

/-- A reader of the text sees what the rendered value holds, and nothing else. -/
theorem Renders.seen_iff {α : Type} {v : Value} {text : List Char} (renders : Renders v text)
    (read : Value → Option α) {x : α} (seen : read v = some x) (y : α) :
    (∃ w, Renders w text ∧ read w = some y) ↔ x = y := by
  constructor
  · rintro ⟨w, renders', seen'⟩
    rw [renders'.unique renders, seen] at seen'
    exact Option.some.inj seen'
  · rintro rfl
    exact ⟨v, renders, seen⟩

end NttX402.Library.Json
