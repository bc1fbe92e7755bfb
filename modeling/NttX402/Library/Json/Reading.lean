import NttX402.Library.Json.Value
import Mathlib.Data.List.Nodup

/-!
# Reading JSON values

Strings are decoded to characters, members are looked up by their decoded names (of several
members with one name the last counts), and a literal without sign, fraction and exponent is read
as a natural number. `literal` writes a string, `compact` a value without whitespace.
-/

namespace NttX402.Library.Json

/-! ## Strings -/

def codeUnit (a b c d : HexDigit) : Nat :=
  ((a.value * 16 + b.value) * 16 + c.value) * 16 + d.value

/-- The characters that a string literal stands for; none when a surrogate has no partner. -/
def decodeChars : List Item → Option (List Char)
  | [] => some []
  | .plain c _ :: s => (decodeChars s).map (c :: ·)
  | .escape e :: s => (decodeChars s).map (e.char :: ·)
  | .unicode a b c d :: s =>
    let high := codeUnit a b c d
    if high < 0xD800 ∨ 0xDFFF < high then (decodeChars s).map (Char.ofNat high :: ·)
    else match s with
      | .unicode a' b' c' d' :: s' =>
        let low := codeUnit a' b' c' d'
        if high < 0xDC00 ∧ 0xDC00 ≤ low ∧ low ≤ 0xDFFF then
          (decodeChars s').map
            (Char.ofNat (0x10000 + (high - 0xD800) * 0x400 + (low - 0xDC00)) :: ·)
        else none
      | _ => none

def decode (s : List Item) : Option String := (decodeChars s).map String.ofList

/-! ## Literals -/

theorem hexValue?_digitChar : ∀ n < 16, hexValue? n.digitChar = some n := by decide

def HexDigit.ofNat (n : Nat) : HexDigit where
  char := (n % 16).digitChar
  valid := by rw [hexValue?_digitChar _ (Nat.mod_lt n (by decide)), Option.isSome_some]

theorem HexDigit.value_ofNat (n : Nat) : (HexDigit.ofNat n).value = n % 16 :=
  Option.get_of_eq_some _ (hexValue?_digitChar _ (Nat.mod_lt n (by decide)))

/-- A character is written as itself where it may be, and by its code elsewhere. -/
def Item.ofChar (c : Char) : Item :=
  if valid : isPlain c = true then .plain c valid
  else .unicode (.ofNat 0) (.ofNat 0) (.ofNat (c.toNat / 16)) (.ofNat c.toNat)

theorem Item.ofChar_of_isPlain {c : Char} (valid : isPlain c = true) :
    Item.ofChar c = .plain c valid := dif_pos valid

theorem toNat_lt_of_not_isPlain {c : Char} (other : ¬isPlain c = true) : c.toNat < 128 := by
  by_contra large
  have notQuote : c ≠ '"' := by rintro rfl; exact large (by decide)
  have notBackslash : c ≠ '\\' := by rintro rfl; exact large (by decide)
  simp only [isPlain, notQuote, notBackslash, ne_eq, not_false_eq_true, decide_true,
    Bool.true_and, decide_eq_true_eq] at other
  omega

theorem decodeChars_ofChar (c : Char) (s : List Item) :
    decodeChars (Item.ofChar c :: s) = (decodeChars s).map (c :: ·) := by
  unfold Item.ofChar
  split_ifs with valid
  · rfl
  · have small := toNat_lt_of_not_isPlain valid
    have code : codeUnit (.ofNat 0) (.ofNat 0) (.ofNat (c.toNat / 16)) (.ofNat c.toNat) =
        c.toNat := by
      simp only [codeUnit, HexDigit.value_ofNat]
      omega
    have unpaired : c.toNat < 0xD800 ∨ 0xDFFF < c.toNat := by omega
    rw [decodeChars.eq_def]
    simp only [code, if_pos unpaired, Char.ofNat_toNat]

def literal (s : String) : List Item := s.toList.map Item.ofChar

@[simp] theorem decode_literal (s : String) : decode (literal s) = some s := by
  have chars (text : List Char) : decodeChars (text.map Item.ofChar) = some text := by
    induction text with
    | nil => rfl
    | cons c text ih => rw [List.map_cons, decodeChars_ofChar, ih, Option.map_some]
  rw [decode, literal, chars, Option.map_some, String.ofList_toList]

theorem itemsText_map_ofChar {text : List Char} (plain : Every isPlain text) :
    itemsText (text.map Item.ofChar) = text := by
  induction text with
  | nil => rfl
  | cons c text ih =>
      obtain ⟨first, rest⟩ := every_cons.mp plain
      rw [List.map_cons, itemsText_cons, Item.ofChar_of_isPlain first, ih rest]
      rfl

theorem itemsText_literal {s : String} (plain : Every isPlain s.toList) :
    itemsText (literal s) = s.toList := itemsText_map_ofChar plain

/-! ## Natural numbers -/

theorem takeWhile_toDigits (n : Nat) :
    (Nat.toDigits 10 n).takeWhile Char.isDigit = Nat.toDigits 10 n :=
  List.takeWhile_eq_self_iff.mpr fun _ member =>
    Nat.isDigit_of_mem_toDigits (by decide) (by decide) member

theorem head?_toDigits {n : Nat} (positive : n ≠ 0) : (Nat.toDigits 10 n).head? ≠ some '0' := by
  induction n using Nat.strongRecOn with
  | ind n ih =>
      rw [Nat.toDigits_eq_if (by decide)]
      split_ifs with small
      · have digit : ∀ m < 10, m ≠ 0 → m.digitChar ≠ '0' := by decide
        simpa using digit n small positive
      · rw [List.head?_append_of_ne_nil _ Nat.toDigits_ne_nil]
        exact ih (n / 10) (by omega) (by omega)

theorem isNumber_toDigits (n : Nat) : isNumber (Nat.toDigits 10 n) = true := by
  have rest : (Nat.toDigits 10 n).dropWhile Char.isDigit = [] :=
    List.dropWhile_eq_nil_iff.mpr fun _ member =>
      Nat.isDigit_of_mem_toDigits (by decide) (by decide) member
  have leading : Nat.toDigits 10 n = ['0'] ∨ (Nat.toDigits 10 n).head? ≠ some '0' := by
    by_cases zero : n = 0
    · exact .inl (zero ▸ Nat.toDigits_zero 10)
    · exact .inr (head?_toDigits zero)
  unfold isNumber
  split
  · rename_i text sign
    have digit : Char.isDigit '-' = true :=
      Nat.isDigit_of_mem_toDigits (by decide) (by decide) (sign ▸ List.mem_cons_self)
    simp at digit
  · simp only [takeWhile_toDigits, rest]
    simpa [isFraction, isExponent, Nat.toDigits_ne_nil] using leading

def Number.ofNat (n : Nat) : Number := ⟨Nat.toDigits 10 n, isNumber_toDigits n⟩

@[simp] theorem Number.natural?_ofNat (n : Nat) : (Number.ofNat n).natural? = some n := by
  have digits : (Nat.toDigits 10 n).all Char.isDigit = true :=
    List.all_eq_true.mpr fun _ member =>
      Nat.isDigit_of_mem_toDigits (by decide) (by decide) member
  refine (if_pos digits).trans ?_
  exact congrArg some (Nat.ofDigitChars_toDigits (by decide) (by decide))

/-! ## Accessors -/

/-- The last of the members whose name decodes to `key`. -/
def lookup (members : List (List Item × Value)) (key : String) : Option Value :=
  (members.reverse.find? fun m => decode m.1 = some key).map Prod.snd

/-- Among members of distinct names it does not matter which one is looked at first. -/
theorem lookup_eq_some_iff {members : List (List Item × Value)}
    (distinct : (members.map fun m => decode m.1).Nodup) {key : String} {v : Value} :
    lookup members key = some v ↔ ∃ m ∈ members, decode m.1 = some key ∧ m.2 = v := by
  constructor
  · intro found
    obtain ⟨m, found, value⟩ := Option.map_eq_some_iff.mp found
    have member := List.mem_reverse.mp (List.mem_of_find?_eq_some found)
    have name : decode m.1 = some key := by simpa using List.find?_some found
    exact ⟨m, member, name, value⟩
  · rintro ⟨m, member, name, rfl⟩
    cases found : members.reverse.find? fun m => decode m.1 = some key with
    | none =>
        have other := List.find?_eq_none.mp found m (List.mem_reverse.mpr member)
        simp [name] at other
    | some last =>
        have listed := List.mem_reverse.mp (List.mem_of_find?_eq_some found)
        have named : decode last.1 = some key := by simpa using List.find?_some found
        have same := List.inj_on_of_nodup_map distinct listed member (named.trans name.symm)
        rw [lookup, found, same]
        rfl

def Value.get : Value → String → Option Value
  | .object members, key => lookup members key
  | _, _ => none

def Value.asStr : Value → Option String
  | .string s => decode s
  | _ => none

def Value.asU64 : Value → Option UInt64
  | .number n => n.natural?.bind fun k => if k < UInt64.size then some (UInt64.ofNat k) else none
  | _ => none

def Value.asArray : Value → Option (List Value)
  | .array elements => some elements
  | _ => none

def Value.isTrue : Value → Bool
  | .bool true => true
  | _ => false

def Value.isString : Value → Bool
  | .string _ => true
  | _ => false

theorem Value.isString_iff {v : Value} : v.isString = true ↔ ∃ s, v = .string s := by
  cases v <;> simp [isString]

theorem Value.isTrue_iff {v : Value} : v.isTrue = true ↔ v = .bool true := by
  cases v with
  | bool b => cases b <;> simp [isTrue]
  | _ => simp [isTrue]

def Value.isScalar : Value → Bool
  | .array _ => false
  | .object _ => false
  | _ => true

mutual
def Value.distinctNames : Value → Bool
  | .array vs => elementsDistinct vs
  | .object ms => decide (ms.map fun m => decode m.1).Nodup && membersDistinct ms
  | _ => true

def elementsDistinct : List Value → Bool
  | [] => true
  | v :: vs => v.distinctNames && elementsDistinct vs

def membersDistinct : List (List Item × Value) → Bool
  | [] => true
  | (_, v) :: ms => v.distinctNames && membersDistinct ms
end

mutual
/-- Within the limits of a reader of 64-bit integers: arrays and objects nested at most `depth`
deep, natural numbers below `2^64`, and strings that decode. -/
def Value.isReadable : Value → Nat → Bool
  | .null, _ => true
  | .bool _, _ => true
  | .number n, _ => n.natural?.any (· < UInt64.size)
  | .string s, _ => (decode s).isSome
  | .array vs, depth => decide (0 < depth) && elementsReadable vs (depth - 1)
  | .object ms, depth => decide (0 < depth) && membersReadable ms (depth - 1)

def elementsReadable : List Value → Nat → Bool
  | [], _ => true
  | v :: vs, depth => v.isReadable depth && elementsReadable vs depth

def membersReadable : List (List Item × Value) → Nat → Bool
  | [], _ => true
  | (name, v) :: ms, depth =>
    (decode name).isSome && v.isReadable depth && membersReadable ms depth
end

/-! ## Compact texts -/

def tokensText (tokens : List Token) : List Char := tokens.flatMap Token.text

@[simp] theorem tokensText_nil : tokensText [] = [] := rfl

@[simp] theorem tokensText_cons (t : Token) (tokens : List Token) :
    tokensText (t :: tokens) = t.text ++ tokensText tokens := rfl

@[simp] theorem tokensText_append (tokens tokens' : List Token) :
    tokensText (tokens ++ tokens') = tokensText tokens ++ tokensText tokens' := by
  simp [tokensText]

def Value.compact (v : Value) : List Char := tokensText v.tokens

theorem compact_moreElements (v : Value) (vs : List Value) :
    v.compact ++ tokensText (moreElements vs) =
      [','].intercalate ((v :: vs).map Value.compact) ++ [']'] := by
  induction vs generalizing v with
  | nil => simp [moreElements, Token.text, Punct.char]
  | cons w vs ih =>
      calc v.compact ++ tokensText (moreElements (w :: vs))
          = v.compact ++ ',' :: (w.compact ++ tokensText (moreElements vs)) := by
            simp [moreElements, Token.text, Punct.char, Value.compact]
        _ = _ := by rw [ih w]; simp

theorem compact_array (vs : List Value) : (Value.array vs).compact =
    '[' :: ([','].intercalate (vs.map Value.compact) ++ [']']) := by
  cases vs with
  | nil => rfl
  | cons v vs =>
      calc (Value.array (v :: vs)).compact
          = '[' :: (v.compact ++ tokensText (moreElements vs)) := by
            simp [Value.tokens, Token.text, Punct.char, Value.compact]
        _ = _ := by rw [compact_moreElements]

def memberText (m : List Item × Value) : List Char :=
  (Token.string m.1).text ++ ':' :: m.2.compact

theorem memberText_literal {name : String} (plain : Every isPlain name.toList) (v : Value) :
    memberText (literal name, v) = '"' :: (name.toList ++ '"' :: ':' :: v.compact) := by
  simp [memberText, Token.text, itemsText_literal plain]

theorem memberText_moreMembers (m : List Item × Value) (ms : List (List Item × Value)) :
    memberText m ++ tokensText (moreMembers ms) =
      [','].intercalate ((m :: ms).map memberText) ++ ['\x7d'] := by
  induction ms generalizing m with
  | nil => simp [moreMembers, Token.text, Punct.char]
  | cons l ms ih =>
      calc memberText m ++ tokensText (moreMembers (l :: ms))
          = memberText m ++ ',' :: (memberText l ++ tokensText (moreMembers ms)) := by
            simp [moreMembers, memberText, Token.text, Punct.char, Value.compact]
        _ = _ := by rw [ih l]; simp

theorem compact_object (ms : List (List Item × Value)) : (Value.object ms).compact =
    '\x7b' :: ([','].intercalate (ms.map memberText) ++ ['\x7d']) := by
  cases ms with
  | nil => rfl
  | cons m ms =>
      calc (Value.object (m :: ms)).compact
          = '\x7b' :: (memberText m ++ tokensText (moreMembers ms)) := by
            simp [Value.tokens, memberText, Token.text, Punct.char, Value.compact]
        _ = _ := by rw [memberText_moreMembers]

theorem not_endsInWord_punct (text : List Char) (p : Punct) :
    ¬ EndsInWord (text ++ (Token.punct p).text) :=
  not_endsInWord_concat (isWordChar_punct p)

theorem Spaced.oneWord {tokens : List Token} {text w : List Char} (spaced : Spaced tokens text)
    (apart : ¬ EndsInWord text) (isWord : IsWord w) :
    Spaced (tokens ++ [.word w]) (text ++ tokensText [.word w]) := by
  simpa using spaced.word isWord apart

theorem Spaced.moreElements {vs : List Value} (each : ∀ v ∈ vs, ∀ {tokens text},
      Spaced tokens text → ¬ EndsInWord text →
        Spaced (tokens ++ v.tokens) (text ++ v.compact))
    {tokens : List Token} {text : List Char} (spaced : Spaced tokens text) :
    Spaced (tokens ++ Json.moreElements vs) (text ++ tokensText (Json.moreElements vs)) := by
  induction vs generalizing tokens text with
  | nil => simpa [Json.moreElements] using spaced.punct .rbracket
  | cons v vs ih =>
      have element := each v (by simp) (spaced.punct .comma) (not_endsInWord_punct _ _)
      have rest := ih (fun w member => each w (by simp [member])) element
      simpa [Json.moreElements, Value.compact] using rest

theorem Spaced.moreMembers {ms : List (List Item × Value)} (each : ∀ m ∈ ms, ∀ {tokens text},
      Spaced tokens text → ¬ EndsInWord text →
        Spaced (tokens ++ m.2.tokens) (text ++ m.2.compact))
    {tokens : List Token} {text : List Char} (spaced : Spaced tokens text) :
    Spaced (tokens ++ Json.moreMembers ms) (text ++ tokensText (Json.moreMembers ms)) := by
  induction ms generalizing tokens text with
  | nil => simpa [Json.moreMembers] using spaced.punct .rbrace
  | cons m ms ih =>
      have named := ((spaced.punct .comma).string m.1).punct .colon
      have member := each m (by simp) named (not_endsInWord_punct _ _)
      have rest := ih (fun w member => each w (by simp [member])) member
      simpa [Json.moreMembers, Value.compact] using rest

theorem Spaced.compact (v : Value) {tokens : List Token} {text : List Char}
    (spaced : Spaced tokens text) (apart : ¬ EndsInWord text) :
    Spaced (tokens ++ v.tokens) (text ++ v.compact) := by
  induction v using Value.ind generalizing tokens text with
  | null => exact spaced.oneWord apart ⟨by simp, by decide⟩
  | bool b => cases b <;> exact spaced.oneWord apart ⟨by simp, by decide⟩
  | number n => exact spaced.oneWord apart n.isWord
  | string s => simpa [Value.compact, Value.tokens] using spaced.string s
  | array vs ih =>
      cases vs with
      | nil => simpa [Value.compact, Value.tokens] using
          (spaced.punct .lbracket).punct .rbracket
      | cons v vs =>
          have element := ih v (by simp) (spaced.punct .lbracket) (not_endsInWord_punct _ _)
          have rest := element.moreElements fun w member => ih w (List.mem_cons_of_mem v member)
          simpa [Value.compact, Value.tokens] using rest
  | object ms ih =>
      cases ms with
      | nil => simpa [Value.compact, Value.tokens] using (spaced.punct .lbrace).punct .rbrace
      | cons m ms =>
          have named := ((spaced.punct .lbrace).string m.1).punct .colon
          have member := ih m (by simp) named (not_endsInWord_punct _ _)
          have rest := member.moreMembers fun w listed => ih w (List.mem_cons_of_mem m listed)
          simpa [Value.compact, Value.tokens] using rest

theorem renders_compact (v : Value) : Renders v v.compact := by
  simpa [Renders] using Spaced.compact v .nil (by simp [EndsInWord])

theorem renders_of_compact {v : Value} {text : List Char} (compact : v.compact = text) :
    Renders v text :=
  compact ▸ renders_compact v

/-! ## Texts around rendered values -/

theorem renders_singleton {v : Value} {text : List Char} (renders : Renders v text) :
    Renders (.array [v]) ('[' :: (text ++ [']'])) := by
  have opened := (Spaced.nil.punct .lbracket).append (not_endsInWord_punct _ _) renders
  have whole := opened.punct .rbracket
  rw [Renders]
  convert whole using 1
  · simp [Value.tokens, moreElements]
  · rfl

structure RenderedMember where
  name : String
  plain : Every isPlain name.toList
  value : Value
  text : List Char
  renders : Renders value text

namespace RenderedMember

def member (m : RenderedMember) : List Item × Value := (literal m.name, m.value)

def chars (m : RenderedMember) : List Char := '"' :: (m.name.toList ++ '"' :: ':' :: m.text)

theorem spaced (m : RenderedMember) {tokens : List Token} {text : List Char}
    (before : Spaced tokens text) :
    Spaced (tokens ++ .string m.member.1 :: .punct .colon :: m.value.tokens)
      (text ++ m.chars) := by
  have named := (before.string m.member.1).punct .colon
  have whole := named.append (not_endsInWord_punct _ _) m.renders
  simpa [member, chars, Token.text, Punct.char, itemsText_literal m.plain] using whole

theorem spaced_more (ms : List RenderedMember) {tokens : List Token} {text : List Char}
    (before : Spaced tokens text) :
    Spaced (tokens ++ moreMembers (ms.map member))
      (text ++ (ms.flatMap (fun m => ',' :: m.chars) ++ ['\x7d'])) := by
  induction ms generalizing tokens text with
  | nil => simpa [moreMembers, Token.text, Punct.char] using before.punct .rbrace
  | cons m ms ih =>
      have next := m.spaced (before.punct .comma)
      simpa [moreMembers, member, Token.text, Punct.char] using ih next

end RenderedMember

/-- An object with these members, its text written out. -/
theorem renders_object (m : RenderedMember) (ms : List RenderedMember) {text : List Char}
    (shape : '\x7b' :: (m.chars ++ (ms.flatMap (fun m => ',' :: m.chars) ++ ['\x7d'])) = text) :
    Renders (.object ((m :: ms).map RenderedMember.member)) text := by
  have first := m.spaced (Spaced.nil.punct .lbrace)
  have whole := RenderedMember.spaced_more ms first
  rw [← shape, Renders]
  simpa [Value.tokens, RenderedMember.member, Token.text, Punct.char] using whole

end NttX402.Library.Json
