import NttX402.Library.Json.Reading
import NttX402.Library.Text

/-!
# Substring scans of JSON texts

A scan looks for `"key":` and the first characters `opening` of a value, in a JSON text from
which whitespace and perhaps other characters have been filtered out. `afterFirst_renders` says
which member of the value, at any depth, the first match belongs to.
-/

namespace NttX402.Library.Json

mutual
/-- All members at any depth, in the order of the text. -/
def Value.members : Value → List (List Item × Value)
  | .array vs => elementsMembers vs
  | .object ms => objectMembers ms
  | _ => []

def elementsMembers : List Value → List (List Item × Value)
  | [] => []
  | v :: vs => v.members ++ elementsMembers vs

def objectMembers : List (List Item × Value) → List (List Item × Value)
  | [] => []
  | (name, v) :: ms => (name, v) :: (v.members ++ objectMembers ms)
end

theorem Value.members_of_scalar {v : Value} (scalar : v.isScalar = true) : v.members = [] := by
  cases v with
  | array vs => cases scalar
  | object ms => cases scalar
  | _ => rfl

theorem objectMembers_of_scalars {ms : List (List Item × Value)}
    (scalars : ∀ m ∈ ms, m.2.isScalar = true) : objectMembers ms = ms := by
  induction ms with
  | nil => rfl
  | cons m ms ih =>
      obtain ⟨scalar, scalars⟩ := List.forall_mem_cons.mp scalars
      rw [objectMembers, Value.members_of_scalar scalar, List.nil_append, ih scalars]

section Filter
variable (drops : Char → Bool)

def keep (text : List Char) : List Char := text.filter fun c => !drops c

@[simp] theorem keep_nil : keep drops [] = [] := rfl

@[simp] theorem keep_append (text text' : List Char) :
    keep drops (text ++ text') = keep drops text ++ keep drops text' := by
  simp [keep]

theorem keep_cons (c : Char) (text : List Char) :
    keep drops (c :: text) = if drops c then keep drops text else c :: keep drops text := by
  cases h : drops c <;> simp [keep, h]

def endsAs (key : List Char) : List Item → Bool
  | [] => false
  | .escape .quote :: s => decide (keep drops (itemsText s) = key) || endsAs key s
  | _ :: s => endsAs key s

/-- How a member name must be written for the scan to take it for `key`. -/
def readsAs (key : List Char) (s : List Item) : Bool :=
  decide (keep drops (itemsText s) = key) || endsAs drops key s

theorem keep_of_kept {text : List Char} (kept : Every (fun c => !drops c) text) :
    keep drops text = text :=
  List.filter_eq_self.mpr kept

theorem endsAs_of_plain (key : List Char) {text : List Char} (plain : Every isPlain text) :
    endsAs drops key (text.map Item.ofChar) = false := by
  induction text with
  | nil => rfl
  | cons c text ih =>
      obtain ⟨first, rest⟩ := every_cons.mp plain
      rw [List.map_cons, Item.ofChar_of_isPlain first]
      exact ih rest

theorem readsAs_literal_iff {name : String} (plain : Every isPlain name.toList)
    (kept : Every (fun c => !drops c) name.toList) (key : String) :
    readsAs drops key.toList (literal name) = true ↔ name = key := by
  rw [readsAs, itemsText_literal plain, keep_of_kept drops kept, literal,
    endsAs_of_plain drops key.toList plain, Bool.or_false, decide_eq_true_eq, String.toList_inj]

/-- The filter removes JSON whitespace and no printing ASCII character. -/
structure Filters : Prop where
  drops_ws : ∀ c, isWs c = true → drops c = true
  keeps_ascii : ∀ c : Char, 0x20 < c.toNat → c.toNat < 0x7f → drops c = false

end Filter

section Scan
variable {drops : Char → Bool} (filters : Filters drops)
include filters

theorem keep_quote (text : List Char) : keep drops ('"' :: text) = '"' :: keep drops text := by
  simp [keep_cons, filters.keeps_ascii '"' (by decide) (by decide)]

theorem keep_backslash (text : List Char) :
    keep drops ('\\' :: text) = '\\' :: keep drops text := by
  simp [keep_cons, filters.keeps_ascii '\\' (by decide) (by decide)]

theorem keep_punct (p : Punct) (text : List Char) :
    keep drops (p.char :: text) = p.char :: keep drops text := by
  have kept : drops p.char = false := by
    cases p <;> exact filters.keeps_ascii _ (by decide) (by decide)
  simp [keep_cons, kept]

theorem keep_spaced {tokens : List Token} {text : List Char} (spaced : Spaced tokens text) :
    keep drops text = keep drops (tokensText tokens) := by
  induction spaced with
  | nil => rfl
  | space _ ws ih => simp [keep_cons, filters.drops_ws _ ws, ih]
  | punct p _ ih => simp [ih]
  | string s _ ih => simp [ih]
  | word _ _ _ ih => simp [ih]

omit filters in
theorem not_mem_of_word {key : List Char} (word : Every isWordChar key) {c : Char}
    (other : isWordChar c = false) : c ∉ key := by
  intro member
  simp [word c member] at other

omit filters in
theorem not_prefix_of_word {key : List Char} (word : Every isWordChar key) {c : Char}
    (other : isWordChar c = false) (notQuote : c ≠ '"') (tail more : List Char) :
    ¬ key ++ '"' :: tail <+: c :: more := by
  cases key with
  | nil => simp [notQuote.symm]
  | cons k key =>
      have : k ≠ c := fun equal => not_mem_of_word word other (by simp [equal])
      simp [this]

/-- Past an opening quote, the scan matches a literal that is the key as filtered. -/
theorem prefix_literal_iff {key : List Char} (word : Every isWordChar key)
    (s : List Item) (tail rest : List Char) :
    key ++ '"' :: tail <+: keep drops (itemsText s) ++ '"' :: rest ↔
      keep drops (itemsText s) = key ∧ tail <+: rest := by
  have atBackslash {key : List Char} (word : Every isWordChar key) (more : List Char) :
      ¬ key ++ '"' :: tail <+: '\\' :: more ∧ '\\' :: more ≠ key :=
    ⟨not_prefix_of_word word (by decide) (by decide) _ _,
      fun equal => not_mem_of_word word (c := '\\') (by decide) (by simp [← equal])⟩
  induction s generalizing key with
  | nil =>
      cases key with
      | nil => simp
      | cons k key =>
          have : k ≠ '"' := fun equal =>
            not_mem_of_word word (c := '"') (by decide) (by simp [equal])
          simp [this]
  | cons i s ih =>
      cases i with
      | plain c valid =>
          have notQuote : '"' ≠ c := by rintro rfl; simp [isPlain] at valid
          by_cases dropped : drops c = true
          · simpa [Item.text, keep_cons, dropped] using ih word
          · cases key with
            | nil => simp [Item.text, keep_cons, dropped, notQuote]
            | cons k key =>
                have tail := ih (fun d member => word d (List.mem_cons_of_mem k member))
                simp [Item.text, keep_cons, dropped, tail, and_assoc, eq_comm]
      | escape e => simp [Item.text, keep_backslash filters, atBackslash word]
      | unicode a b c d => simp [Item.text, keep_backslash filters, atBackslash word]

omit filters in
theorem quote_not_mem_text {i : Item} (other : i ≠ .escape .quote) : '"' ∉ i.text := by
  cases i with
  | plain c valid =>
      have notQuote : '"' ≠ c := by rintro rfl; simp [isPlain] at valid
      simpa [Item.text] using notQuote
  | escape e => cases e <;> simp_all [Item.text, Escape.letter]
  | unicode a b c d =>
      have hex (h : HexDigit) : '"' ≠ h.char := by
        intro equal
        simpa [← equal, hexValue?] using h.valid
      simp [Item.text, hex]

omit filters in
theorem endsAs_cons_of_ne {i : Item} (other : i ≠ .escape .quote) (key : List Char)
    (s : List Item) : endsAs drops key (i :: s) = endsAs drops key s := by
  cases i with
  | plain c valid => rfl
  | escape e => cases e <;> first | rfl | exact absurd rfl other
  | unicode a b c d => rfl

section Key
variable {key opening : List Char} (word : Every isWordChar key)
include word

def needle (key opening : List Char) : List Char := '"' :: (key ++ '"' :: ':' :: opening)

theorem afterFirst_quote (s : List Item) (rest : List Char) :
    afterFirst (needle key opening) ('"' :: (keep drops (itemsText s) ++ '"' :: rest)) =
      if keep drops (itemsText s) = key ∧ ':' :: opening <+: rest then
        some (rest.drop (opening.length + 1))
      else afterFirst (needle key opening) (keep drops (itemsText s) ++ '"' :: rest) := by
  have here := prefix_literal_iff filters word s (':' :: opening) rest
  split
  · rename_i found
    obtain ⟨equal, tail, rfl⟩ := found
    have shape : '"' :: (keep drops (itemsText s) ++ '"' :: (':' :: opening ++ tail)) =
        needle key opening ++ tail := by simp [needle, equal]
    rw [shape, afterFirst_here]
    simp
  · rename_i notFound
    refine afterFirst_later ?_
    rw [needle, List.cons_prefix_cons, here]
    exact fun found => notFound found.2

/-- From inside a literal, a match begins at an escaped quote or lies past the literal. -/
theorem afterFirst_inside (s : List Item) {rest : List Char}
    (apart : ¬ key ++ '"' :: ':' :: opening <+: rest) :
    afterFirst (needle key opening) (keep drops (itemsText s) ++ '"' :: rest) =
      if endsAs drops key s ∧ ':' :: opening <+: rest then some (rest.drop (opening.length + 1))
      else afterFirst (needle key opening) rest := by
  induction s with
  | nil =>
      rw [itemsText_nil, keep_nil, List.nil_append, afterFirst_later]
      · simp [endsAs]
      · simpa [needle] using apart
  | cons i s ih =>
      rw [itemsText_cons, keep_append, List.append_assoc]
      by_cases quote : i = .escape .quote
      · subst quote
        have skip : afterFirst (needle key opening) (keep drops (Item.escape .quote).text ++
            (keep drops (itemsText s) ++ '"' :: rest)) = afterFirst (needle key opening)
              ('"' :: (keep drops (itemsText s) ++ '"' :: rest)) := by
          simp only [Item.text, Escape.letter, keep_backslash filters, keep_quote filters, keep_nil]
          exact afterFirst_skip ['\\'] (by decide) _
        rw [skip, afterFirst_quote filters word, ih]
        by_cases equal : keep drops (itemsText s) = key <;>
          by_cases value : ':' :: opening <+: rest <;> simp [endsAs, equal, value]
      · have absent : '"' ∉ keep drops i.text := fun member =>
          quote_not_mem_text quote (List.mem_filter.mp member).1
        rw [needle, afterFirst_skip _ absent, ← needle, ih, endsAs_cons_of_ne quote]

/-- A literal as the scan meets it: it is a match when it is written as the key and a colon and
the opening follow. -/
theorem afterFirst_literal (s : List Item) {rest : List Char}
    (apart : ¬ key ++ '"' :: ':' :: opening <+: rest) :
    afterFirst (needle key opening) ('"' :: (keep drops (itemsText s) ++ '"' :: rest)) =
      if readsAs drops key s ∧ ':' :: opening <+: rest then some (rest.drop (opening.length + 1))
      else afterFirst (needle key opening) rest := by
  rw [afterFirst_quote filters word, afterFirst_inside filters word s apart]
  by_cases equal : keep drops (itemsText s) = key <;>
    by_cases value : ':' :: opening <+: rest <;> simp [readsAs, equal, value]

end Key

/-! ## Values -/

/-- What may stand behind a value: nothing, or a separator or closing bracket. -/
def Closed (rest : List Char) : Prop :=
  rest = [] ∨ ∃ (p : Punct) (more : List Char), p ≠ .colon ∧ rest = p.char :: more

/-- The values that a scan for `opening` accepts. -/
def Opens (drops : Char → Bool) (opening : List Char) (accepts : Value → Bool) : Prop :=
  ∀ v rest, Closed rest → (opening <+: keep drops v.compact ++ rest ↔ accepts v = true)

/-- The scan of `text` finds a member's value, or passes to `rest` without a match. -/
def Finds (drops : Char → Bool) (key opening : List Char) (text rest : List Char) :
    Option (List Item × Value) → Prop
  | none => afterFirst (needle key opening) text = afterFirst (needle key opening) rest
  | some m => ∃ tail, afterFirst (needle key opening) text =
      some ((keep drops m.2.compact ++ tail).drop opening.length)

section Members
variable {key opening : List Char} (word : Every isWordChar key)
  {accepts : Value → Bool} (opens : Opens drops opening accepts)
include word opens

omit filters word opens in
theorem Finds.or {text middle rest : List Char} {first second : Option (List Item × Value)}
    (one : Finds drops key opening text middle first)
    (two : Finds drops key opening middle rest second) :
    Finds drops key opening text rest (first.or second) := by
  cases first with
  | some m => exact one
  | none =>
      cases second with
      | none => exact one.trans two
      | some m =>
          obtain ⟨tail, found⟩ := two
          exact ⟨tail, one.trans found⟩

omit filters word opens in
theorem finds_skip {skipped : List Char} (absent : '"' ∉ skipped) (rest : List Char) :
    Finds drops key opening (keep drops skipped ++ rest) rest none :=
  afterFirst_skip _ (fun member => absent (List.mem_filter.mp member).1) rest

def wanted (drops : Char → Bool) (key : List Char) (accepts : Value → Bool)
    (m : List Item × Value) : Bool :=
  readsAs drops key m.1 && accepts m.2

omit filters opens in
theorem apart_of_closed {tail rest : List Char} (closed : Closed rest) :
    ¬ key ++ '"' :: tail <+: rest := by
  rcases closed with rfl | ⟨p, more, -, rfl⟩
  · simp
  · exact not_prefix_of_word word (isWordChar_punct p) (by cases p <;> decide) _ _

theorem finds_member (name : List Item) {v : Value} {rest : List Char} (closed : Closed rest)
    (value : Finds drops key opening (keep drops v.compact ++ rest) rest
      (v.members.find? (wanted drops key accepts))) :
    Finds drops key opening
      (keep drops (Token.string name).text ++
        (keep drops [Punct.colon.char] ++ (keep drops v.compact ++ rest))) rest
      (((name, v) :: v.members).find? (wanted drops key accepts)) := by
  have shape : keep drops (Token.string name).text ++ (keep drops [Punct.colon.char] ++
      (keep drops v.compact ++ rest)) = '"' :: (keep drops (itemsText name) ++ '"' :: ':' ::
        (keep drops v.compact ++ rest)) := by
    simp only [Token.text, keep_quote filters, keep_punct filters, keep_append, keep_nil,
      List.cons_append, List.append_assoc, List.nil_append]
    rfl
  have apart : ¬ key ++ '"' :: ':' :: opening <+: ':' :: (keep drops v.compact ++ rest) :=
    not_prefix_of_word word (by decide) (by decide) _ _
  have scan := afterFirst_literal filters word name apart
  have follows := opens v rest closed
  rw [shape]
  by_cases found : wanted drops key accepts (name, v) = true
  · rw [List.find?_cons_of_pos found]
    simp only [wanted, Bool.and_eq_true] at found
    refine ⟨rest, ?_⟩
    rw [scan, if_pos ⟨found.1, by simpa using follows.mpr found.2⟩, List.drop_succ_cons]
  · rw [List.find?_cons_of_neg found]
    have passed : Finds drops key opening ('"' :: (keep drops (itemsText name) ++
        '"' :: ':' :: (keep drops v.compact ++ rest))) (keep drops v.compact ++ rest) none := by
      rw [Finds, scan, if_neg]
      · exact afterFirst_skip [':'] (by decide) _
      · simpa [wanted, follows] using found
    exact passed.or value

omit filters word opens in
theorem finds_punct (p : Punct) (rest : List Char) :
    Finds drops key opening (keep drops [p.char] ++ rest) rest none :=
  finds_skip (by cases p <;> decide) rest

omit word opens in
theorem closed_punct {p : Punct} (other : p ≠ .colon) (text rest : List Char) :
    Closed (keep drops (p.char :: text) ++ rest) :=
  Or.inr ⟨p, _, other, by rw [keep_punct filters]; rfl⟩

omit word opens in
theorem closed_moreElements (vs : List Value) (rest : List Char) :
    Closed (keep drops (tokensText (moreElements vs)) ++ rest) := by
  cases vs with
  | nil => exact closed_punct filters (p := .rbracket) (by decide) [] rest
  | cons v vs => exact closed_punct filters (p := .comma) (by decide) _ rest

omit word opens in
theorem closed_moreMembers (ms : List (List Item × Value)) (rest : List Char) :
    Closed (keep drops (tokensText (moreMembers ms)) ++ rest) := by
  cases ms with
  | nil => exact closed_punct filters (p := .rbrace) (by decide) [] rest
  | cons m ms => exact closed_punct filters (p := .comma) (by decide) _ rest

omit word opens in
theorem finds_moreElements {vs : List Value} (each : ∀ v ∈ vs, ∀ {rest}, Closed rest →
      Finds drops key opening (keep drops v.compact ++ rest) rest
        (v.members.find? (wanted drops key accepts))) (rest : List Char) :
    Finds drops key opening (keep drops (tokensText (moreElements vs)) ++ rest) rest
      ((elementsMembers vs).find? (wanted drops key accepts)) := by
  induction vs with
  | nil => exact finds_punct .rbracket rest
  | cons v vs ih =>
      have tail := ih fun w member => each w (by simp [member])
      have first := each v (by simp) (closed_moreElements filters vs rest)
      simpa [moreElements, elementsMembers, Token.text, Value.compact, List.find?_append,
        keep_punct filters] using (finds_punct .comma _).or (first.or tail)

theorem finds_moreMembers {ms : List (List Item × Value)} (each : ∀ m ∈ ms, ∀ {rest}, Closed rest →
      Finds drops key opening (keep drops m.2.compact ++ rest) rest
        (m.2.members.find? (wanted drops key accepts))) (rest : List Char) :
    Finds drops key opening (keep drops (tokensText (moreMembers ms)) ++ rest) rest
      ((objectMembers ms).find? (wanted drops key accepts)) := by
  induction ms with
  | nil => exact finds_punct .rbrace rest
  | cons m ms ih =>
      obtain ⟨name, v⟩ := m
      have tail := ih fun w member => each w (by simp [member])
      have closed := closed_moreMembers filters ms rest
      have member := finds_member filters word opens name closed
        (each (name, v) (by simp) closed)
      have whole := (finds_punct .comma _).or (member.or tail)
      rw [← List.find?_append, Option.none_or] at whole
      simpa [moreMembers, objectMembers, Token.text, Value.compact, keep_punct filters,
        keep_quote filters] using whole

theorem finds_value (v : Value) {rest : List Char} (closed : Closed rest) :
    Finds drops key opening (keep drops v.compact ++ rest) rest
      (v.members.find? (wanted drops key accepts)) := by
  induction v using Value.ind generalizing rest with
  | null => exact finds_skip (by decide) rest
  | bool b => cases b <;> exact finds_skip (by decide) rest
  | number n =>
      have absent : '"' ∉ n.text := not_mem_of_word n.isWord.2 (by decide)
      simpa [Value.compact, Value.tokens, Token.text, Value.members] using finds_skip absent rest
  | string s =>
      have noColon : ¬ ':' :: opening <+: rest := by
        rcases closed with rfl | ⟨p, more, other, rfl⟩
        · simp
        · cases p <;> simp_all [Punct.char]
      have apart : ¬ key ++ '"' :: ':' :: opening <+: rest := apart_of_closed word closed
      have scan := afterFirst_literal filters word s apart
      rw [if_neg fun found => noColon found.2] at scan
      simpa [Finds, Value.compact, Value.tokens, Token.text, Value.members,
        keep_quote filters] using scan
  | array vs ih =>
      cases vs with
      | nil => exact finds_skip (by decide) rest
      | cons v vs =>
          have tail := finds_moreElements filters
            (fun w member => ih w (List.mem_cons_of_mem v member)) rest
          have first := ih v (by simp) (closed_moreElements filters vs rest)
          simpa [Value.compact, Value.tokens, Value.members, elementsMembers, Token.text,
            List.find?_append, keep_punct filters] using
              (finds_punct .lbracket _).or (first.or tail)
  | object ms ih =>
      cases ms with
      | nil => exact finds_skip (by decide) rest
      | cons m ms =>
          obtain ⟨name, v⟩ := m
          have tail := finds_moreMembers filters word opens
            (fun w member => ih w (List.mem_cons_of_mem _ member)) rest
          have closed := closed_moreMembers filters ms rest
          have member := finds_member filters word opens name closed
            (ih (name, v) (by simp) closed)
          have whole := (finds_punct .lbrace _).or (member.or tail)
          rw [← List.find?_append, Option.none_or] at whole
          simpa [Value.compact, Value.tokens, Value.members, objectMembers, Token.text,
            keep_punct filters, keep_quote filters] using whole

theorem afterFirst_renders {v : Value} {text : List Char} (renders : Renders v text) :
    match v.members.find? (wanted drops key accepts) with
    | none => afterFirst (needle key opening) (keep drops text) = none
    | some m => ∃ tail, afterFirst (needle key opening) (keep drops text) =
        some ((keep drops m.2.compact ++ tail).drop opening.length) := by
  have finds := finds_value filters word opens v (Or.inl rfl)
  rw [List.append_nil, Value.compact, ← keep_spaced filters renders] at finds
  split
  · rename_i missing
    rw [missing] at finds
    exact finds.trans (afterFirst_nil (by simp [needle]))
  · rename_i m found
    rw [found] at finds
    exact finds

end Members

/-! ## Scans for `true` and for strings -/

theorem keep_compact_head (v : Value) : ∃ c rest, keep drops v.compact = c :: rest ∧
    (c = 't' ↔ v.isTrue = true) ∧ (c = '"' ↔ v.isString = true) := by
  have kept (c : Char) (rest : List Char) (low : 0x20 < c.toNat) (high : c.toNat < 0x7f) :
      keep drops (c :: rest) = c :: keep drops rest := by
    simp [keep_cons, filters.keeps_ascii c low high]
  cases v with
  | null => exact ⟨_, _, kept 'n' _ (by decide) (by decide), by decide, by decide⟩
  | bool b =>
      cases b with
      | false => exact ⟨_, _, kept 'f' _ (by decide) (by decide), by decide, by decide⟩
      | true => exact ⟨_, _, kept 't' _ (by decide) (by decide), by decide, by decide⟩
  | number n =>
      obtain ⟨c, rest, text, start⟩ := n.head
      have range : (0x20 < c.toNat ∧ c.toNat < 0x7f) ∧ c ≠ 't' ∧ c ≠ '"' := by
        rcases start with rfl | digit
        · decide
        · simp only [Char.isDigit, Bool.and_eq_true, decide_eq_true_eq] at digit
          have bounds : 48 ≤ c.toNat ∧ c.toNat ≤ 57 := digit
          refine ⟨by omega, ?_, ?_⟩
          all_goals
            rintro rfl
            revert bounds
            decide
      refine ⟨c, keep drops rest, ?_, by simp [Value.isTrue, range.2.1],
        by simp [Value.isString, range.2.2]⟩
      simpa [Value.compact, Value.tokens, Token.text, text] using kept c rest range.1.1 range.1.2
  | string s =>
      exact ⟨'"', _, kept '"' _ (by decide) (by decide), by simp [Value.isTrue],
        by simp [Value.isString]⟩
  | array vs =>
      cases vs <;> exact ⟨'[', _, kept '[' _ (by decide) (by decide), by simp [Value.isTrue],
        by simp [Value.isString]⟩
  | object ms =>
      cases ms <;> exact ⟨'\x7b', _, kept '\x7b' _ (by decide) (by decide), by simp [Value.isTrue],
        by simp [Value.isString]⟩

theorem opens_true : Opens drops "true".toList Value.isTrue := by
  intro v rest _
  constructor
  · intro opening
    obtain ⟨c, more, head, isT, -⟩ := keep_compact_head filters v
    rw [head] at opening
    exact isT.mp (List.cons_prefix_cons.mp opening).1.symm
  · intro holds
    obtain rfl := Value.isTrue_iff.mp holds
    have kept : keep drops (Value.bool true).compact = "true".toList := by
      refine List.filter_eq_self.mpr fun c member => ?_
      have printing : Every (fun c => 0x20 < c.toNat ∧ c.toNat < 0x7f) "true".toList := by decide
      obtain ⟨above, below⟩ := of_decide_eq_true (printing c member)
      simp [filters.keeps_ascii c above below]
    rw [kept]
    exact List.prefix_append _ _

theorem opens_quote : Opens drops ['"'] Value.isString := by
  intro v rest _
  obtain ⟨c, more, head, -, isQuote⟩ := keep_compact_head filters v
  rw [head, ← isQuote]
  simp [eq_comm]

variable {key : List Char} (word : Every isWordChar key)
include word

/-- A scan for `"key":true` finds a member at any depth that reads as `key` and is true. -/
theorem find?_true_iff {v : Value} {text : List Char} (renders : Renders v text) :
    (find? (needle key "true".toList) (keep drops text)).isSome = true ↔
      ∃ m ∈ v.members, readsAs drops key m.1 = true ∧ m.2.isTrue = true := by
  have scan := afterFirst_renders filters word (opens_true filters) renders
  rw [← isSome_afterFirst]
  split at scan
  · rename_i missing
    rw [scan, List.find?_eq_none] at *
    simpa [wanted] using missing
  · rename_i m found
    obtain ⟨tail, scan⟩ := scan
    have wants := List.find?_some found
    simp only [wanted, Bool.and_eq_true] at wants
    simp only [scan, Option.isSome_some, true_iff]
    exact ⟨m, List.mem_of_find?_eq_some found, wants⟩

/-- A scan for `"key":"` finds the first member at any depth that reads as `key` and is a
string. -/
theorem afterFirst_string {v : Value} {text : List Char} (renders : Renders v text) :
    match v.members.find? (wanted drops key Value.isString) with
    | none => afterFirst (needle key ['"']) (keep drops text) = none
    | some m => ∃ s tail, m.2 = .string s ∧ afterFirst (needle key ['"']) (keep drops text) =
        some (keep drops (itemsText s) ++ '"' :: tail) := by
  have scan := afterFirst_renders filters word (opens_quote filters) renders
  split at scan
  · exact scan
  · rename_i m found
    obtain ⟨tail, scan⟩ := scan
    have wants := List.find?_some found
    simp only [wanted, Bool.and_eq_true] at wants
    obtain ⟨s, string⟩ := Value.isString_iff.mp wants.2
    refine ⟨s, tail, string, ?_⟩
    simpa [string, Value.compact, Value.tokens, Token.text, keep_quote filters] using scan

end Scan
end NttX402.Library.Json
