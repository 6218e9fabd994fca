import Mathlib.Logic.Function.Basic
import RoundTable.Shared.PublicKey

set_option autoImplicit false

/-!
# The chain under the program

`Runtime` is what the program calls and does not define: address derivation, the system program and
the rent table. `Runtime.Documented` is what the program relies on.
-/

namespace RoundTable.Contract

-- Lamports are never made, and all there are fit into the 64 bits of the source, so sums are exact.
@[ext]
structure Account where
  lamports : Nat
  data : List UInt8
  owner : PublicKey
deriving DecidableEq

-- An account that does not exist has no lamports, no data, and the system program as its owner.
abbrev Ledger := PublicKey → Account

def systemProgramId : PublicKey := .small 0

def Account.absent : Account := ⟨0, [], systemProgramId⟩

namespace Ledger

def setLamports (ledger : Ledger) (key : PublicKey) (lamports : Nat) : Ledger :=
  Function.update ledger key { ledger key with lamports }

def setData (ledger : Ledger) (key : PublicKey) (data : List UInt8) : Ledger :=
  Function.update ledger key { ledger key with data }

def setOwner (ledger : Ledger) (key : PublicKey) (owner : PublicKey) : Ledger :=
  Function.update ledger key { ledger key with owner }

def transfer (ledger : Ledger) (source destination : PublicKey) (lamports : Nat) : Ledger :=
  let taken := ledger.setLamports source ((ledger source).lamports - lamports)
  taken.setLamports destination ((taken destination).lamports + lamports)

def purge (ledger : Ledger) : Ledger := fun key =>
  if (ledger key).lamports = 0 then .absent else ledger key

@[simp] theorem setLamports_data (ledger : Ledger) (key other : PublicKey) (lamports : Nat) :
    (ledger.setLamports key lamports other).data = (ledger other).data := by
  by_cases same : other = key
  · subst same; simp [setLamports]
  · simp [setLamports, same]

@[simp] theorem setLamports_owner (ledger : Ledger) (key other : PublicKey) (lamports : Nat) :
    (ledger.setLamports key lamports other).owner = (ledger other).owner := by
  by_cases same : other = key
  · subst same; simp [setLamports]
  · simp [setLamports, same]

@[simp] theorem setLamports_lamports (ledger : Ledger) (key : PublicKey) (lamports : Nat) :
    (ledger.setLamports key lamports key).lamports = lamports := by
  simp [setLamports]

theorem setLamports_ne {key other : PublicKey} (different : other ≠ key) (ledger : Ledger)
    (lamports : Nat) : ledger.setLamports key lamports other = ledger other := by
  simp [setLamports, different]

@[simp] theorem setData_lamports (ledger : Ledger) (key other : PublicKey) (data : List UInt8) :
    (ledger.setData key data other).lamports = (ledger other).lamports := by
  by_cases same : other = key
  · subst same; simp [setData]
  · simp [setData, same]

@[simp] theorem setData_owner (ledger : Ledger) (key other : PublicKey) (data : List UInt8) :
    (ledger.setData key data other).owner = (ledger other).owner := by
  by_cases same : other = key
  · subst same; simp [setData]
  · simp [setData, same]

@[simp] theorem setData_data (ledger : Ledger) (key : PublicKey) (data : List UInt8) :
    (ledger.setData key data key).data = data := by
  simp [setData]

theorem setData_ne {key other : PublicKey} (different : other ≠ key) (ledger : Ledger)
    (data : List UInt8) : ledger.setData key data other = ledger other := by
  simp [setData, different]

@[simp] theorem setOwner_lamports (ledger : Ledger) (key other owner : PublicKey) :
    (ledger.setOwner key owner other).lamports = (ledger other).lamports := by
  by_cases same : other = key
  · subst same; simp [setOwner]
  · simp [setOwner, same]

@[simp] theorem setOwner_data (ledger : Ledger) (key other owner : PublicKey) :
    (ledger.setOwner key owner other).data = (ledger other).data := by
  by_cases same : other = key
  · subst same; simp [setOwner]
  · simp [setOwner, same]

@[simp] theorem setOwner_owner (ledger : Ledger) (key owner : PublicKey) :
    (ledger.setOwner key owner key).owner = owner := by
  simp [setOwner]

theorem setOwner_ne {key other : PublicKey} (different : other ≠ key) (ledger : Ledger)
    (owner : PublicKey) : ledger.setOwner key owner other = ledger other := by
  simp [setOwner, different]

@[simp] theorem transfer_data (ledger : Ledger) (source destination key : PublicKey)
    (lamports : Nat) : (ledger.transfer source destination lamports key).data = (ledger key).data := by
  simp [transfer]

@[simp] theorem transfer_owner (ledger : Ledger) (source destination key : PublicKey)
    (lamports : Nat) :
    (ledger.transfer source destination lamports key).owner = (ledger key).owner := by
  simp [transfer]

theorem transfer_ne {source destination key : PublicKey} (notSource : key ≠ source)
    (notDestination : key ≠ destination) (ledger : Ledger) (lamports : Nat) :
    ledger.transfer source destination lamports key = ledger key := by
  simp only [transfer]
  rw [setLamports_ne notDestination, setLamports_ne notSource]

theorem transfer_all {source destination : PublicKey} (other : source ≠ destination)
    (ledger : Ledger) :
    ledger.transfer source destination (ledger source).lamports source =
      { ledger source with lamports := 0 } := by
  simp only [transfer]
  rw [setLamports_ne other]
  simp [setLamports]

theorem transfer_received {source destination : PublicKey} (other : source ≠ destination)
    (ledger : Ledger) (lamports : Nat) :
    (ledger.transfer source destination lamports destination).lamports =
      (ledger destination).lamports + lamports := by
  simp only [transfer]
  rw [setLamports_lamports, setLamports_ne (Ne.symm other)]

theorem le_transfer_lamports (ledger : Ledger) (source destination : PublicKey) (lamports : Nat) :
    lamports ≤ (ledger.transfer source destination lamports destination).lamports := by
  simp [transfer]

end Ledger

-- An account as an instruction lists it. Entries with one key share one account.
structure AccountInfo where
  key : PublicKey
  isSigner : Bool
  isWritable : Bool
deriving DecidableEq

inductive SystemInstruction where
  | allocate (account : PublicKey) (space : Nat)
  | transfer (source destination : PublicKey) (lamports : Nat)
  | assign (account owner : PublicKey)

structure Runtime where
  findProgramAddress : List (List UInt8) → PublicKey → PublicKey × UInt8
  createProgramAddress : List (List UInt8) → PublicKey → Option PublicKey
  system : SystemInstruction → (PublicKey → Bool) → Ledger → Option Ledger
  -- The rent due for an account with `space` bytes that holds nothing yet.
  rentDue : Nat → Nat

/-- The effects of the system instructions, each of which succeeds only on accounts that the system
program owns. -/
structure Runtime.Documented (runtime : Runtime) : Prop where
  allocate : ∀ account space signed ledger ledger',
    runtime.system (.allocate account space) signed ledger = some ledger' →
      (ledger account).owner = systemProgramId ∧ (ledger account).data = [] ∧
        ledger' = ledger.setData account (List.replicate space 0)
  transfer : ∀ source destination lamports signed ledger ledger',
    runtime.system (.transfer source destination lamports) signed ledger = some ledger' →
      (ledger source).owner = systemProgramId ∧ lamports ≤ (ledger source).lamports ∧
        ledger' = ledger.transfer source destination lamports
  assign : ∀ account owner signed ledger ledger',
    runtime.system (.assign account owner) signed ledger = some ledger' →
      ((ledger account).owner = systemProgramId ∨ (ledger account).owner = owner) ∧
        ledger' = ledger.setOwner account owner
  rent : ∀ space, 0 < runtime.rentDue space

end RoundTable.Contract
