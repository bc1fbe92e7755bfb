import NttX402.Library.Result
import Mathlib.Data.Vector.Defs
import Mathlib.Logic.Function.Basic

/-! # Accounts and their constraints, as Anchor checks them -/

namespace NttX402.Programs
open Library

structure Pubkey where
  bytes : Vector UInt8 32
  deriving DecidableEq

def Pubkey.asRef (key : Pubkey) : List UInt8 := key.bytes.toList

structure AccountInfo where
  key : Pubkey
  isSigner : Bool
  isWritable : Bool
  /-- The balance that was loaded for the call. -/
  lamports : UInt64
  deriving DecidableEq

inductive AnchorError
  | accountNotInitialized
  | accountOwnedByWrongProgram
  | accountNotSigner
  | invalidProgramId
  | constraintMut
  | constraintSeeds
  /-- `find_program_address` panics. -/
  | noViableBump
  /-- The system program refuses to create an account that exists. -/
  | accountAlreadyInUse
  | systemProgram (detail : String)
  deriving DecidableEq

/-- An instruction fails in its account constraints or in its own code. -/
inductive ProgramError (ε : Type)
  | anchor (e : AnchorError)
  | custom (e : ε)
  deriving DecidableEq

structure Runtime where
  /-- The address is a hash of the seeds and the program, unless that hash is a curve point. -/
  createProgramAddress : List (List UInt8) → Pubkey → Option Pubkey
  /-- Whether the payer can make an account of this many bytes rent exempt, from the balances that
  were loaded for the call. What it pays is not taken from the balances of later calls: they bring
  their own. -/
  fund : AccountInfo → AccountInfo → Nat → Except String Unit

section ProgramAddress
variable (R : Runtime) (seeds : List (List UInt8)) (programId : Pubkey)

/-- The first viable bump, from 255 downwards. -/
def Runtime.findProgramAddress : Option (Pubkey × UInt8) :=
  (List.range 255).findSome? fun n =>
    let bump := UInt8.ofNat (255 - n)
    (R.createProgramAddress (seeds ++ [[bump]]) programId).map fun address => (address, bump)

variable {R seeds programId}

theorem Runtime.createProgramAddress_of_find {address : Pubkey} {bump : UInt8}
    (found : R.findProgramAddress seeds programId = some (address, bump)) :
    R.createProgramAddress (seeds ++ [[bump]]) programId = some address := by
  obtain ⟨n, -, viable⟩ := List.exists_of_findSome?_eq_some found
  obtain ⟨_, created, pair⟩ := Option.map_eq_some_iff.mp viable
  obtain ⟨rfl, rfl⟩ := Prod.mk.inj pair
  exact created

end ProgramAddress

abbrev Accounts (α : Type) := Pubkey → Option α

structure Context (α : Type) where
  accounts : α
  remainingAccounts : List AccountInfo

def systemProgramId : Pubkey := ⟨Vector.replicate 32 0⟩

section Constraints
variable {α : Type} (R : Runtime) (s : Accounts α) (info : AccountInfo)

/-- `Account::try_from`. An account without lamports does not exist. -/
def Account.tryFrom : Except AnchorError α :=
  match s info.key with
  | some account => .ok account
  | none =>
    if info.lamports = 0 then .error .accountNotInitialized
    else .error .accountOwnedByWrongProgram

def Signer.tryFrom : Except AnchorError Unit :=
  if info.isSigner then .ok () else .error .accountNotSigner

def Program.tryFrom (programId : Pubkey) : Except AnchorError Unit :=
  if info.key = programId then .ok () else .error .invalidProgramId

def constraintMut : Except AnchorError Unit :=
  if info.isWritable then .ok () else .error .constraintMut

/-- `seeds = seeds, bump = bump` -/
def constraintSeeds (seeds : List (List UInt8)) (bump : UInt8) (programId : Pubkey) :
    Except AnchorError Unit :=
  if R.createProgramAddress (seeds ++ [[bump]]) programId = some info.key then .ok ()
  else .error .constraintSeeds

/-- `init, payer = payer, space = space, seeds = seeds, bump` gives the bump. Only the new account
is kept of it, not the payer's debit. -/
def constraintInit (payer : AccountInfo) (space : Nat) (seeds : List (List UInt8))
    (programId : Pubkey) : Except AnchorError UInt8 :=
  match R.findProgramAddress seeds programId with
  | none => .error .noViableBump
  | some (address, bump) =>
    if info.key ≠ address then .error .constraintSeeds
    else if (s info.key).isSome then .error .accountAlreadyInUse
    else ((R.fund payer info space).mapError .systemProgram).map fun _ => bump

/-- `try_accounts` of an instruction that creates `target` and gives its bump. -/
def initAccounts (target payer systemProgram : AccountInfo) (space : Nat)
    (seeds : List (List UInt8)) (programId : Pubkey) : Except AnchorError UInt8 := do
  Signer.tryFrom payer
  Program.tryFrom systemProgram systemProgramId
  let bump ← constraintInit R s target payer space seeds programId
  constraintMut target
  constraintMut payer
  pure bump

variable {R s info}

theorem Account.tryFrom_eq_ok {account : α} :
    Account.tryFrom s info = .ok account ↔ s info.key = some account := by
  unfold Account.tryFrom
  cases s info.key with
  | some stored => simp
  | none => cases decEq info.lamports 0 <;> simp [*]

theorem Signer.tryFrom_eq_ok : Signer.tryFrom info = .ok () ↔ info.isSigner = true := by
  simp [Signer.tryFrom]

theorem Program.tryFrom_eq_ok {programId : Pubkey} :
    Program.tryFrom info programId = .ok () ↔ info.key = programId := by
  simp [Program.tryFrom]

theorem constraintMut_eq_ok : constraintMut info = .ok () ↔ info.isWritable = true := by
  simp [constraintMut]

theorem constraintSeeds_eq_ok {seeds : List (List UInt8)} {bump : UInt8} {programId : Pubkey} :
    constraintSeeds R info seeds bump programId = .ok () ↔
      R.createProgramAddress (seeds ++ [[bump]]) programId = some info.key := by
  simp [constraintSeeds]

theorem constraintInit_eq_ok {payer : AccountInfo} {space : Nat} {seeds : List (List UInt8)}
    {programId : Pubkey} {bump : UInt8} :
    constraintInit R s info payer space seeds programId = .ok bump ↔
      R.findProgramAddress seeds programId = some (info.key, bump) ∧ s info.key = none ∧
        R.fund payer info space = .ok () := by
  unfold constraintInit
  cases R.findProgramAddress seeds programId with
  | none => simp
  | some found =>
      obtain ⟨address, viable⟩ := found
      by_cases key : address = info.key
      · subst key
        cases stored : s info.key with
        | some account => simp
        | none =>
            cases funded : R.fund payer info space with
            | error detail => simp [Except.mapError, Except.map]
            | ok _ => simp [Except.mapError, Except.map]
      · simp [key, Ne.symm key]

theorem initAccounts_eq_ok {target payer systemProgram : AccountInfo} {space : Nat}
    {seeds : List (List UInt8)} {programId : Pubkey} {bump : UInt8} :
    initAccounts R s target payer systemProgram space seeds programId = .ok bump ↔
      payer.isSigner = true ∧ systemProgram.key = systemProgramId ∧
      R.findProgramAddress seeds programId = some (target.key, bump) ∧ s target.key = none ∧
      R.fund payer target space = .ok () ∧ target.isWritable = true ∧ payer.isWritable = true := by
  unfold initAccounts
  rw [check_bind_eq_ok, check_bind_eq_ok, bind_eq_ok, Signer.tryFrom_eq_ok, Program.tryFrom_eq_ok]
  simp only [check_bind_eq_ok, constraintInit_eq_ok, constraintMut_eq_ok, pure, Except.pure,
    Except.ok.injEq]
  constructor
  · rintro ⟨signer, system, bump', ⟨found, fresh, funded⟩, created, paying, rfl⟩
    exact ⟨signer, system, found, fresh, funded, created, paying⟩
  · rintro ⟨signer, system, found, fresh, funded, created, paying⟩
    exact ⟨signer, system, bump, ⟨found, fresh, funded⟩, created, paying, rfl⟩

theorem forall_stored_update {key : Pubkey} {written : α} {P : Pubkey → α → Prop}
    (others : ∀ a account, s a = some account → P a account) (own : P key written) (a : Pubkey)
    (account : α) (stored : Function.update s key (some written) a = some account) :
    P a account := by
  by_cases here : a = key
  · subst here
    rw [Function.update_self] at stored
    exact Option.some.inj stored ▸ own
  · rw [Function.update_of_ne here] at stored
    exact others a account stored

theorem ne_of_fresh {a key : Pubkey} {account : α} (fresh : s key = none)
    (stored : s a = some account) : a ≠ key := by
  rintro rfl
  cases fresh.symm.trans stored

theorem stored_of_update {a key : Pubkey} {account : α} (fresh : s key = none)
    (written : Option α) (stored : s a = some account) :
    Function.update s key written a = some account := by
  rw [Function.update_of_ne (ne_of_fresh fresh stored), stored]

end Constraints

end NttX402.Programs
