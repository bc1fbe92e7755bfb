import NttX402.Library.Codec
import NttX402.Library.Simulation

/-!
# Cells kept as bytes

A local machine with its cells kept as bytes. An instruction reads its cell before it does anything
else, and writes what it leaves over the front of the bytes that it found; a new cell starts with
`space` zeros. Where every content takes up exactly this space, the machine over bytes does what the
machine over contents does.
-/

namespace NttX402.Library
variable {κ α ι ε ω : Type}

structure Storage (α ε : Type) where
  codec : Codec α
  space : Nat
  unreadable : ε
  unwritable : ε

namespace Storage
variable (S : Storage α ε)

def read (found : Option (List UInt8)) : Except ε (Option α) :=
  match found with
  | none => .ok none
  | some bytes =>
    match S.codec.decode bytes with
    | none => .error S.unreadable
    | some (a, _) => .ok (some a)

def write (found : Option (List UInt8)) (left : Option α) : Except ε (Option (List UInt8)) :=
  match left with
  | none => .ok none
  | some a =>
    let bytes := found.getD (List.replicate S.space 0)
    let written := S.codec.encode a
    if written.length ≤ bytes.length then .ok (some (written ++ bytes.drop written.length))
    else .error S.unwritable

def bytesOf (s : κ → Option α) : κ → Option (List UInt8) := fun a => (s a).map S.codec.encode

@[simp] theorem read_encode (content : Option α) :
    S.read (content.map S.codec.encode) = .ok content := by
  cases content with
  | none => rfl
  | some a => simp [read]

theorem bytesOf_update [DecidableEq κ] (s : κ → Option α) (a : κ) (content : Option α) :
    S.bytesOf (Function.update s a content) =
      Function.update (S.bytesOf s) a (content.map S.codec.encode) := by
  funext b
  by_cases here : b = a
  · subst here
    simp [bytesOf]
  · simp [bytesOf, here]

variable {S}

theorem write_encode (sized : S.codec.Sized S.space) (content left : Option α) :
    S.write (content.map S.codec.encode) left = .ok (left.map S.codec.encode) := by
  have space : ((content.map S.codec.encode).getD (List.replicate S.space 0)).length = S.space := by
    cases content with
    | none => simp
    | some a => exact sized a
  cases left with
  | none => rfl
  | some a =>
      simp only [write, space, sized a, Nat.le_refl, if_true]
      rw [List.drop_of_length_le (Nat.le_of_eq space), List.append_nil]
      rfl

end Storage

namespace Machine
variable [DecidableEq κ] (M : Machine (κ → Option α) ι ε ω) (address : ι → κ) (S : Storage α ε)

def stored : Machine (κ → Option (List UInt8)) ι ε ω where
  exec bytes i := do
    let found ← S.read (bytes (address i))
    let result ← (M.cell address).exec found i
    let written ← S.write (bytes (address i)) result.1
    .ok (Function.update bytes (address i) written, result.2)

variable {M address S}

theorem Local.simulates_stored (isLocal : M.Local address) (sized : S.codec.Sized S.space) :
    M.Simulates (M.stored address S) S.bytesOf (fun _ => true) fun _ => True where
  keeps _ _ _ _ _ _ := trivial
  kept s i _ _ := by
    have found : S.read (S.bytesOf s (address i)) = .ok (s (address i)) :=
      S.read_encode (s (address i))
    have written (left : Option α) :
        S.write (S.bytesOf s (address i)) left = .ok (left.map S.codec.encode) :=
      S.write_encode sized (s (address i)) left
    rw [isLocal]
    simp only [stored, found, bind, Except.bind]
    cases (M.cell address).exec (s (address i)) i with
    | error e => rfl
    | ok result =>
        simp only [written, Except.map, Prod.map, id, Storage.bytesOf_update]
  hidden _ _ _ hidden := by cases hidden

/-- From no cells on, the bytes are at all times those of the contents and fill the space, and every
instruction has the same result as on the contents: nothing is ever unreadable or unwritable. -/
def RunsOnBytes (M : Machine (κ → Option α) ι ε ω) (address : ι → κ) (S : Storage α ε) : Prop :=
  ∀ is : List ι,
    let bytes := (M.stored address S).after (fun _ => none) is
    bytes = S.bytesOf (M.after (fun _ => none) is) ∧
    (∀ a data, bytes a = some data → data.length = S.space) ∧
    (M.stored address S).trace (fun _ => none) is =
      (M.trace (fun _ => none) is).map (Transition.map S.bytesOf) ∧
    (M.stored address S).emitted (fun _ => none) is = M.emitted (fun _ => none) is

theorem Local.runsOnBytes (isLocal : M.Local address) (sized : S.codec.Sized S.space) :
    M.RunsOnBytes address S := by
  intro is
  have simulates := isLocal.simulates_stored (S := S) sized
  have after := simulates.after_map (s := fun _ => none) trivial is
  have traces := simulates.trace_map (s := fun _ => none) trivial is
  have emits := simulates.emitted_eq (s := fun _ => none) (fun _ _ _ hidden => by cases hidden)
    trivial is
  rw [List.filter_true] at after traces emits
  refine ⟨after.symm, ?_, ?_, emits.symm⟩
  · intro a data kept
    have same : S.bytesOf (M.after (fun _ => none) is) a = some data :=
      (congrFun after a).trans kept
    obtain ⟨content, -, rfl⟩ := Option.map_eq_some_iff.mp same
    exact sized content
  · rw [List.filter_true] at traces
    exact traces.symm

end Machine
end NttX402.Library
