import Mathlib.Data.List.Basic

/-!
# JSON tokens

The lexical level of RFC 8259. A text is spaced out from a list of tokens when it is the tokens
in order with any JSON whitespace around them; `lex` recovers the tokens (`lex_eq_some_iff`).
-/

namespace NttX402.Library.Json

/-! ## Characters -/

def isWs (c : Char) : Bool := c = ' ' || c = '\t' || c = '\n' || c = '\r'

/-- The characters of literals and numbers. -/
def isWordChar (c : Char) : Bool := c.isAlphanum || c = '-' || c = '+' || c = '.'

def isPlain (c : Char) : Bool := c ≠ '"' && c ≠ '\\' && 0x20 ≤ c.toNat

def Every (p : Char → Bool) (text : List Char) : Prop := ∀ c ∈ text, p c = true

-- Only the characters of the text are tried, not all that there are.
instance (p : Char → Bool) (text : List Char) : Decidable (Every p text) :=
  List.decidableBAll _ text

@[simp] theorem every_nil {p : Char → Bool} : Every p [] := List.forall_mem_nil _

@[simp] theorem every_cons {p : Char → Bool} {c : Char} {text : List Char} :
    Every p (c :: text) ↔ p c = true ∧ Every p text := List.forall_mem_cons

def hexValue? (c : Char) : Option Nat :=
  if '0' ≤ c ∧ c ≤ '9' then some (c.toNat - '0'.toNat)
  else if 'a' ≤ c ∧ c ≤ 'f' then some (c.toNat - 'a'.toNat + 10)
  else if 'A' ≤ c ∧ c ≤ 'F' then some (c.toNat - 'A'.toNat + 10)
  else none

structure HexDigit where
  char : Char
  valid : (hexValue? char).isSome = true
  deriving DecidableEq

def HexDigit.value (d : HexDigit) : Nat := (hexValue? d.char).get d.valid

inductive Punct
  | lbracket | rbracket | lbrace | rbrace | comma | colon
  deriving DecidableEq

def Punct.char : Punct → Char
  | .lbracket => '['
  | .rbracket => ']'
  | .lbrace => '\x7b'
  | .rbrace => '\x7d'
  | .comma => ','
  | .colon => ':'

def punct? (c : Char) : Option Punct :=
  if c = '[' then some .lbracket
  else if c = ']' then some .rbracket
  else if c = '\x7b' then some .lbrace
  else if c = '\x7d' then some .rbrace
  else if c = ',' then some .comma
  else if c = ':' then some .colon
  else none

inductive Escape
  | quote | backslash | slash | backspace | formFeed | lineFeed | carriageReturn | tab
  deriving DecidableEq

/-- The letter that follows the backslash. -/
def Escape.letter : Escape → Char
  | .quote => '"'
  | .backslash => '\\'
  | .slash => '/'
  | .backspace => 'b'
  | .formFeed => 'f'
  | .lineFeed => 'n'
  | .carriageReturn => 'r'
  | .tab => 't'

/-- The character that the escape stands for. -/
def Escape.char : Escape → Char
  | .quote => '"'
  | .backslash => '\\'
  | .slash => '/'
  | .backspace => '\x08'
  | .formFeed => '\x0c'
  | .lineFeed => '\n'
  | .carriageReturn => '\r'
  | .tab => '\t'

def escape? (c : Char) : Option Escape :=
  if c = '"' then some .quote
  else if c = '\\' then some .backslash
  else if c = '/' then some .slash
  else if c = 'b' then some .backspace
  else if c = 'f' then some .formFeed
  else if c = 'n' then some .lineFeed
  else if c = 'r' then some .carriageReturn
  else if c = 't' then some .tab
  else none

/-- One character of a string literal, as it is written. -/
inductive Item
  | plain (c : Char) (valid : isPlain c = true)
  | escape (e : Escape)
  | unicode (a b c d : HexDigit)
  deriving DecidableEq

def Item.text : Item → List Char
  | .plain c _ => [c]
  | .escape e => ['\\', e.letter]
  | .unicode a b c d => ['\\', 'u', a.char, b.char, c.char, d.char]

def itemsText (s : List Item) : List Char := s.flatMap Item.text

@[simp] theorem itemsText_nil : itemsText [] = [] := rfl

@[simp] theorem itemsText_cons (i : Item) (s : List Item) :
    itemsText (i :: s) = i.text ++ itemsText s := rfl

@[simp] theorem itemsText_append (s t : List Item) :
    itemsText (s ++ t) = itemsText s ++ itemsText t := by
  simp [itemsText]

inductive Token
  | punct (p : Punct)
  | word (w : List Char)
  | string (s : List Item)
  deriving DecidableEq

def Token.text : Token → List Char
  | .punct p => [p.char]
  | .word w => w
  | .string s => '"' :: (itemsText s ++ ['"'])

@[simp] theorem punct?_char (p : Punct) : punct? p.char = some p := by
  cases p <;> rfl

theorem char_of_punct? {c : Char} {p : Punct} (h : punct? c = some p) : p.char = c := by
  unfold punct? at h
  split_ifs at h <;> simp_all [Punct.char]
  all_goals subst h; rfl

@[simp] theorem escape?_letter (e : Escape) : escape? e.letter = some e := by
  cases e <;> rfl

theorem letter_of_escape? {c : Char} {e : Escape} (h : escape? c = some e) : e.letter = c := by
  unfold escape? at h
  split_ifs at h <;> simp_all [Escape.letter]
  all_goals subst h; rfl

end NttX402.Library.Json
