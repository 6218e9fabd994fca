import RoundTable.Contract.Processor
import RoundTable.Shared.Reactive

set_option autoImplicit false

namespace RoundTable.Contract

inductive Step where
  | call (accounts : List AccountInfo) (input : List UInt8)
  | transfer (source destination : PublicKey) (lamports : Nat) (signers : List PublicKey)
deriving DecidableEq

variable (runtime : Runtime) (programId : PublicKey)

def Step.execute (ledger : Ledger) : Step → Option Ledger
  | .call accounts input =>
    match (processInstruction runtime programId accounts input).run ledger with
    | .ok ((), ledger') => some ledger'
    | .error _ => none
  | .transfer source destination lamports signers =>
    runtime.system (.transfer source destination lamports) (fun key => key ∈ signers) ledger

def executeAll (ledger : Ledger) (transaction : List Step) : Option Ledger :=
  transaction.foldlM (fun ledger step => step.execute runtime programId ledger) ledger

-- The real chain refuses more transactions, so that its runs are among these.
def chain : Reactive.Machine Ledger (List Step) Step := fun ledger transaction =>
  match executeAll runtime programId ledger transaction with
  | some ledger' => (ledger'.purge, transaction)
  | none => (ledger, [])

variable {runtime programId}

@[simp] theorem executeAll_single (ledger : Ledger) (step : Step) :
    executeAll runtime programId ledger [step] = step.execute runtime programId ledger := by
  simp [executeAll]

theorem executeAll_cons {ledger ledger' : Ledger} {step : Step} {transaction : List Step} :
    executeAll runtime programId ledger (step :: transaction) = some ledger' ↔
      ∃ middle, step.execute runtime programId ledger = some middle ∧
        executeAll runtime programId middle transaction = some ledger' := by
  rw [executeAll, List.foldlM_cons]
  exact Option.bind_eq_some_iff

theorem executeAll_append {ledger ledger' : Ledger} {before after : List Step} :
    executeAll runtime programId ledger (before ++ after) = some ledger' ↔
      ∃ middle, executeAll runtime programId ledger before = some middle ∧
        executeAll runtime programId middle after = some ledger' := by
  rw [executeAll, List.foldlM_append]
  exact Option.bind_eq_some_iff

theorem executeAll_invariant (kept : Ledger → List Step → Prop) {ledger ledger' : Ledger}
    (history : List Step) {transaction : List Step} (initial : kept ledger history)
    (preserved : ∀ ledger ledger' history, ∀ step ∈ transaction, kept ledger history →
      step.execute runtime programId ledger = some ledger' → kept ledger' (history ++ [step]))
    (done : executeAll runtime programId ledger transaction = some ledger') :
    kept ledger' (history ++ transaction) := by
  induction transaction generalizing ledger history with
  | nil =>
    obtain rfl := Option.some.inj done
    rwa [List.append_nil]
  | cons step transaction ih =>
    obtain ⟨middle, executed, rest⟩ := executeAll_cons.mp done
    have next := preserved ledger middle history step (by simp) initial executed
    have all := ih (history ++ [step]) next (fun ledger ledger' history step member =>
      preserved ledger ledger' history step (by simp [member])) rest
    simpa using all

theorem chain_invariant (kept : Ledger → List Step → Prop) (ledger : Ledger)
    (transactions : List (List Step)) (initial : kept ledger [])
    (preserved : ∀ ledger ledger' history, ∀ transaction ∈ transactions, ∀ step ∈ transaction,
      kept ledger history → step.execute runtime programId ledger = some ledger' →
        kept ledger' (history ++ [step]))
    (purged : ∀ ledger history, kept ledger history → kept ledger.purge history) :
    kept ((chain runtime programId).run ledger transactions).1
      ((chain runtime programId).run ledger transactions).2 := by
  apply Reactive.Machine.run_invariant _ kept ledger transactions initial
  intro ledger history transaction member holds
  unfold chain
  split
  next ledger' executed =>
    exact purged _ _ (executeAll_invariant kept history holds
      (fun ledger ledger' history step isStep =>
        preserved ledger ledger' history transaction member step isStep) executed)
  next => simpa using holds

end RoundTable.Contract
