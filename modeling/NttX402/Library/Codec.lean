import Mathlib.Algebra.Group.Nat.Defs
import Mathlib.Logic.Equiv.Defs
import Mathlib.Data.List.Basic

/-!
# Byte formats

A codec reads back what it writes from the front of any bytes, and reads nothing else. Formats of
records are put together from those of their fields, one after the other.
-/

namespace NttX402.Library
variable {α β : Type}

structure Codec (α : Type) where
  encode : α → List UInt8
  decode : List UInt8 → Option (α × List UInt8)
  decode_eq_some_iff : ∀ bytes a rest, decode bytes = some (a, rest) ↔ bytes = encode a ++ rest

namespace Codec

@[simp] theorem decode_encode_append (c : Codec α) (a : α) (rest : List UInt8) :
    c.decode (c.encode a ++ rest) = some (a, rest) :=
  (c.decode_eq_some_iff _ a rest).mpr rfl

@[simp] theorem decode_encode (c : Codec α) (a : α) : c.decode (c.encode a) = some (a, []) := by
  simpa using c.decode_encode_append a []

theorem encode_injective (c : Codec α) : Function.Injective c.encode := by
  intro a b equal
  have read := c.decode_encode a
  rw [equal, c.decode_encode] at read
  exact (Prod.mk.inj (Option.some.inj read)).1.symm

def Sized (c : Codec α) (n : Nat) : Prop := ∀ a, (c.encode a).length = n

/-! ## Bytes and words -/

def byte : Codec UInt8 where
  encode b := [b]
  decode bytes := bytes.head?.map fun b => (b, bytes.tail)
  decode_eq_some_iff bytes b rest := by
    cases bytes with
    | nil => simp
    | cons head tail => simp

def bool : Codec Bool where
  encode b := [if b then 1 else 0]
  decode bytes := bytes.head?.bind fun b =>
    if b = 0 then some (false, bytes.tail) else if b = 1 then some (true, bytes.tail) else none
  decode_eq_some_iff bytes b rest := by
    cases bytes with
    | nil => simp
    | cons head tail =>
        by_cases zero : head = 0
        · cases b <;> simp [zero]
        · by_cases one : head = 1
          · cases b <;> simp [one]
          · cases b <;> simp [zero, one]

def seq (c : Codec α) (d : Codec β) : Codec (α × β) where
  encode p := c.encode p.1 ++ d.encode p.2
  decode bytes := (c.decode bytes).bind fun first =>
    (d.decode first.2).map fun second => ((first.1, second.1), second.2)
  decode_eq_some_iff bytes p rest := by
    rw [Option.bind_eq_some_iff]
    simp only [Option.map_eq_some_iff]
    constructor
    · rintro ⟨⟨a, middle⟩, first, ⟨b, rest'⟩, second, equal⟩
      obtain ⟨rfl, rfl⟩ := Prod.mk.inj equal
      have one := (c.decode_eq_some_iff ..).mp first
      have two := (d.decode_eq_some_iff ..).mp second
      dsimp only at two ⊢
      rw [one, two, List.append_assoc]
    · rintro rfl
      refine ⟨(p.1, d.encode p.2 ++ rest), ?_, (p.2, rest), ?_, rfl⟩
      · rw [List.append_assoc, decode_encode_append]
      · exact decode_encode_append d p.2 rest

def map (c : Codec α) (e : α ≃ β) : Codec β where
  encode b := c.encode (e.symm b)
  decode bytes := (c.decode bytes).map fun read => (e read.1, read.2)
  decode_eq_some_iff bytes b rest := by
    simp only [Option.map_eq_some_iff]
    constructor
    · rintro ⟨⟨a, rest'⟩, read, equal⟩
      obtain ⟨rfl, rfl⟩ := Prod.mk.inj equal
      rw [(c.decode_eq_some_iff ..).mp read, Equiv.symm_apply_apply]
    · rintro rfl
      exact ⟨(e.symm b, rest), decode_encode_append c _ rest, by rw [Equiv.apply_symm_apply]⟩

def tagged (tag : List UInt8) (c : Codec α) : Codec α where
  encode a := tag ++ c.encode a
  decode bytes := if tag <+: bytes then c.decode (bytes.drop tag.length) else none
  decode_eq_some_iff bytes a rest := by
    rw [Option.ite_none_right_eq_some]
    constructor
    · rintro ⟨⟨tail, rfl⟩, read⟩
      rw [List.drop_left, c.decode_eq_some_iff] at read
      rw [read, List.append_assoc]
    · rintro rfl
      rw [List.append_assoc, List.drop_left]
      exact ⟨List.prefix_append .., decode_encode_append c a rest⟩

/-! ## Sequences of one length -/

def readMany (c : Codec α) : Nat → List UInt8 → Option (List α × List UInt8)
  | 0, bytes => some ([], bytes)
  | n + 1, bytes => (c.decode bytes).bind fun first =>
    (readMany c n first.2).map fun others => (first.1 :: others.1, others.2)

theorem readMany_eq_some_iff (c : Codec α) (n : Nat) (bytes : List UInt8) (as : List α)
    (rest : List UInt8) :
    c.readMany n bytes = some (as, rest) ↔
      as.length = n ∧ bytes = as.flatMap c.encode ++ rest := by
  induction n generalizing bytes as with
  | zero =>
      simp only [readMany, Option.some.injEq, Prod.mk.injEq, List.length_eq_zero_iff]
      constructor
      · rintro ⟨rfl, rfl⟩
        exact ⟨rfl, rfl⟩
      · rintro ⟨rfl, rfl⟩
        exact ⟨rfl, rfl⟩
  | succ n ih =>
      rw [readMany, Option.bind_eq_some_iff]
      simp only [Option.map_eq_some_iff]
      constructor
      · rintro ⟨⟨a, middle⟩, first, ⟨others, rest'⟩, many, equal⟩
        obtain ⟨rfl, rfl⟩ := Prod.mk.inj equal
        obtain ⟨rfl, split⟩ := (ih ..).mp many
        refine ⟨rfl, ?_⟩
        rw [(c.decode_eq_some_iff ..).mp first, List.flatMap_cons, List.append_assoc]
        exact congrArg _ split
      · rintro ⟨length, rfl⟩
        obtain ⟨a, others, rfl⟩ := List.exists_cons_of_length_eq_add_one length
        refine ⟨(a, others.flatMap c.encode ++ rest), ?_, (others, rest), ?_, rfl⟩
        · rw [List.flatMap_cons, List.append_assoc, decode_encode_append]
        · exact (ih ..).mpr ⟨Nat.succ.inj length, rfl⟩

def vector (c : Codec α) (n : Nat) : Codec (Vector α n) where
  encode v := v.toList.flatMap c.encode
  decode bytes := (c.readMany n bytes).bind fun read =>
    if size : read.1.toArray.size = n then some (⟨read.1.toArray, size⟩, read.2) else none
  decode_eq_some_iff bytes v rest := by
    rw [Option.bind_eq_some_iff]
    simp only [Option.dite_none_right_eq_some, Option.some.injEq, Prod.mk.injEq]
    constructor
    · rintro ⟨⟨as, rest'⟩, many, size, rfl, rfl⟩
      exact ((c.readMany_eq_some_iff ..).mp many).2
    · rintro rfl
      refine ⟨(v.toList, rest), ?_, ?_, ?_, rfl⟩
      · exact (c.readMany_eq_some_iff ..).mpr ⟨by simp, rfl⟩
      · simp
      · simp [Vector.toList]

/-! ## Little-endian words -/

def wordBytes : Nat → Nat → List UInt8
  | 0, _ => []
  | k + 1, n => UInt8.ofNat n :: wordBytes k (n / 256)

def ofWordBytes : List UInt8 → Nat
  | [] => 0
  | b :: bytes => b.toNat + 256 * ofWordBytes bytes

@[simp] theorem wordBytes_length (k n : Nat) : (wordBytes k n).length = k := by
  induction k generalizing n with
  | zero => rfl
  | succ k ih => simp [wordBytes, ih]

theorem ofWordBytes_lt (bytes : List UInt8) : ofWordBytes bytes < 256 ^ bytes.length := by
  induction bytes with
  | nil => simp [ofWordBytes]
  | cons b bytes ih =>
      have low := b.toNat_lt
      rw [ofWordBytes, List.length_cons, Nat.pow_succ]
      omega

theorem ofWordBytes_lt_of_length {bytes : List UInt8} {k : Nat} (length : bytes.length = k) :
    ofWordBytes bytes < 256 ^ k :=
  length ▸ ofWordBytes_lt bytes

theorem ofWordBytes_wordBytes {k n : Nat} (fits : n < 256 ^ k) :
    ofWordBytes (wordBytes k n) = n := by
  induction k generalizing n with
  | zero => simp [wordBytes, ofWordBytes, Nat.lt_one_iff.mp fits]
  | succ k ih =>
      have high : n / 256 < 256 ^ k := by
        rw [Nat.pow_succ] at fits
        omega
      rw [wordBytes, ofWordBytes, ih high, UInt8.toNat_ofNat']
      omega

theorem wordBytes_ofWordBytes (bytes : List UInt8) :
    wordBytes bytes.length (ofWordBytes bytes) = bytes := by
  induction bytes with
  | nil => rfl
  | cons b bytes ih =>
      have low := b.toNat_lt
      have quotient : (b.toNat + 256 * ofWordBytes bytes) / 256 = ofWordBytes bytes := by omega
      have digit : UInt8.ofNat (b.toNat + 256 * ofWordBytes bytes) = b := by
        apply UInt8.toNat_inj.mp
        rw [UInt8.toNat_ofNat']
        omega
      rw [ofWordBytes, List.length_cons, wordBytes, quotient, ih, digit]

def word (k : Nat) : Codec (Fin (256 ^ k)) where
  encode n := wordBytes k n
  decode bytes :=
    if size : (bytes.take k).length = k then
      some (⟨ofWordBytes (bytes.take k), ofWordBytes_lt_of_length size⟩, bytes.drop k)
    else none
  decode_eq_some_iff bytes n rest := by
    rw [Option.dite_none_right_eq_some]
    constructor
    · rintro ⟨size, read⟩
      obtain ⟨rfl, rfl⟩ := Prod.mk.inj (Option.some.inj read)
      have whole := wordBytes_ofWordBytes (bytes.take k)
      rw [size] at whole
      rw [whole, List.take_append_drop]
    · rintro rfl
      have front : (wordBytes k n ++ rest).take k = wordBytes k n :=
        List.take_left' (wordBytes_length k n)
      have back : (wordBytes k n ++ rest).drop k = rest :=
        List.drop_left' (wordBytes_length k n)
      refine ⟨by rw [front, wordBytes_length], ?_⟩
      simp only [front, back, ofWordBytes_wordBytes n.isLt]

def u16 : Codec UInt16 := (word 2).map
  ⟨fun n => UInt16.ofNat n, fun x => ⟨x.toNat, x.toNat_lt⟩,
    fun n => Fin.ext (UInt16.toNat_ofNat_of_lt' n.isLt), fun _ => UInt16.ofNat_toNat⟩

def u32 : Codec UInt32 := (word 4).map
  ⟨fun n => UInt32.ofNat n, fun x => ⟨x.toNat, x.toNat_lt⟩,
    fun n => Fin.ext (UInt32.toNat_ofNat_of_lt' n.isLt), fun _ => UInt32.ofNat_toNat⟩

def u64 : Codec UInt64 := (word 8).map
  ⟨fun n => UInt64.ofNat n, fun x => ⟨x.toNat, x.toNat_lt⟩,
    fun n => Fin.ext (UInt64.toNat_ofNat_of_lt' n.isLt), fun _ => UInt64.ofNat_toNat⟩

/-! ## Sizes -/

section Sizes
variable {c : Codec α} {d : Codec β} {m n : Nat}

theorem sized_byte : byte.Sized 1 := fun _ => rfl

theorem sized_bool : bool.Sized 1 := fun _ => rfl

theorem Sized.seq (first : c.Sized m) (second : d.Sized n) : (c.seq d).Sized (m + n) := by
  intro p
  rw [Codec.seq, List.length_append, first, second]

theorem Sized.map (sized : c.Sized n) (e : α ≃ β) : (c.map e).Sized n := fun b => sized (e.symm b)

theorem Sized.tagged (sized : c.Sized n) (tag : List UInt8) :
    (c.tagged tag).Sized (tag.length + n) := by
  intro a
  rw [Codec.tagged, List.length_append, sized]

theorem Sized.vector (sized : c.Sized m) (n : Nat) : (c.vector n).Sized (n * m) := by
  intro v
  have each (as : List α) : (as.flatMap c.encode).length = as.length * m := by
    induction as with
    | nil => simp
    | cons a as ih => rw [List.flatMap_cons, List.length_append, sized, ih, List.length_cons,
        Nat.succ_mul, Nat.add_comm]
  rw [Codec.vector, each, Vector.length_toList]

theorem sized_word (k : Nat) : (word k).Sized k := fun n => wordBytes_length k n

theorem sized_u16 : u16.Sized 2 := (sized_word 2).map _

theorem sized_u32 : u32.Sized 4 := (sized_word 4).map _

theorem sized_u64 : u64.Sized 8 := (sized_word 8).map _

end Sizes

/-! ## Logs -/

theorem map_decode_encode (c : Codec α) (as : List α) :
    (as.map c.encode).map c.decode = as.map fun a => some (a, []) := by
  rw [List.map_map]
  exact List.map_congr_left fun a _ => c.decode_encode a

def slice (start length : Nat) (bytes : List UInt8) : List UInt8 := (bytes.drop start).take length

theorem slice_middle {start length : Nat} {before field after : List UInt8}
    (first : before.length = start) (second : field.length = length) :
    slice start length (before ++ (field ++ after)) = field := by
  rw [slice, List.drop_left' first, List.take_left' second]

/-- Records are found by a field at a fixed place as they are found by its bytes. -/
theorem filter_slice [DecidableEq β] (c : Codec α) {field : α → β} {write : β → List UInt8}
    {start length : Nat} (injective : Function.Injective write)
    (place : ∀ a, slice start length (c.encode a) = write (field a)) (as : List α) (b : β) :
    (as.map c.encode).filter (slice start length · = write b) =
      (as.filter (field · = b)).map c.encode := by
  rw [List.filter_map]
  congr 1
  apply List.filter_congr
  intro a _
  simp only [Function.comp_apply, place, injective.eq_iff]

end Codec
end NttX402.Library
