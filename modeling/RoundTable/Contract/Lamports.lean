import Mathlib.Algebra.BigOperators.Group.Finset.Basic
import RoundTable.Contract.Creation

set_option autoImplicit false

namespace RoundTable.Contract

def Step.mentions (address : PublicKey) : Step → Bool
  | .call accounts _ => accounts.any fun account => account.key = address
  | .transfer source destination _ _ => source = address || destination = address

-- What an instruction leaves in the account that it is for.
def RoundNetInstruction.left (runtime : Runtime) (account : Account) :
    RoundNetInstruction → Nat
  | .InitTable _ => max account.lamports (runtime.rentDue TABLE_DATA_SIZE)
  | .AddSeat _ =>
    if account.data = [] then max account.lamports (runtime.rentDue SEAT_DATA_SIZE)
    else account.lamports
  | .DeleteTable | .RemoveSeat => 0
  | _ => account.lamports

structure Moved (payer account : PublicKey) (left : Nat) (ledger ledger' : Ledger) : Prop where
  left : (ledger' account).lamports = left
  balance : (ledger' payer).lamports + (ledger' account).lamports =
    (ledger payer).lamports + (ledger account).lamports
  others : ∀ key, key ≠ payer → key ≠ account → (ledger' key).lamports = (ledger key).lamports

section Moves

variable {payer account : PublicKey} {ledger ledger' : Ledger}

theorem Moved.of_same (same : ∀ key, (ledger' key).lamports = (ledger key).lamports) :
    Moved payer account (ledger account).lamports ledger ledger' :=
  ⟨same account, by rw [same, same], fun key _ _ => same key⟩

theorem Moved.congr {left : Nat} {before after : Ledger}
    (moved : Moved payer account left before after)
    (first : ∀ key, (ledger key).lamports = (before key).lamports)
    (last : ∀ key, (ledger' key).lamports = (after key).lamports) :
    Moved payer account left ledger ledger' := by
  refine ⟨?_, ?_, fun key notPayer notAccount => ?_⟩
  · rw [last, moved.left]
  · rw [first, first, last, last, moved.balance]
  · rw [first, last, moved.others key notPayer notAccount]

theorem Moved.setData {left : Nat} (moved : Moved payer account left ledger ledger')
    (key : PublicKey) (data : List UInt8) :
    Moved payer account left ledger (ledger'.setData key data) :=
  moved.congr (fun _ => rfl) fun _ => by rw [Ledger.setData_lamports]

theorem Ledger.transfer_spent {source destination : PublicKey} (other : source ≠ destination)
    (ledger : Ledger) (lamports : Nat) :
    (ledger.transfer source destination lamports source).lamports =
      (ledger source).lamports - lamports := by
  simp only [transfer]
  rw [setLamports_ne other, setLamports_lamports]

theorem Moved.refund (other : account ≠ payer) (ledger : Ledger) :
    Moved payer account 0 ledger (ledger.transfer account payer (ledger account).lamports) := by
  have received := Ledger.transfer_received other ledger (ledger account).lamports
  have spent := Ledger.transfer_spent other ledger (ledger account).lamports
  refine ⟨by omega, by omega, fun key notPayer notAccount => ?_⟩
  rw [Ledger.transfer_ne notAccount notPayer]

theorem Moved.payment (other : account ≠ payer) {lamports : Nat}
    (enough : lamports ≤ (ledger payer).lamports) :
    Moved payer account ((ledger account).lamports + lamports) ledger
      (ledger.transfer payer account lamports) := by
  have received := Ledger.transfer_received (Ne.symm other) ledger lamports
  have spent := Ledger.transfer_spent (Ne.symm other) ledger lamports
  refine ⟨received, by omega, fun key notPayer notAccount => ?_⟩
  rw [Ledger.transfer_ne notPayer notAccount]

end Moves

section Handlers

open Attempt

variable {runtime : Runtime} {ledger ledger' : Ledger}

theorem createOwnedFundedSizedPda_moved (documented : runtime.Documented)
    {newAccount programAccount payer : AccountInfo} {seed : List (List UInt8)} {space : Nat}
    {result : Except Unit Unit} (other : newAccount.key ≠ payer.key)
    (done : (createOwnedFundedSizedPda runtime newAccount programAccount payer seed space false).run
      ledger = .ok (result, ledger')) :
    Moved payer.key newAccount.key
      (if (ledger newAccount.key).data = [] then
        max (ledger newAccount.key).lamports (runtime.rentDue space)
      else (ledger newAccount.key).lamports) ledger ledger' := by
  simp only [createOwnedFundedSizedPda, run_get_bind, Bool.or_false, List.isEmpty_iff] at done
  split_ifs at done ⊢ with absent
  · obtain ⟨_, allocated, allocation, done⟩ := bind_ok.mp done
    obtain ⟨data, -, rfl⟩ := documented.allocated absent allocation
    rw [run_get_bind, Ledger.setData_lamports] at done
    split at done
    next poor =>
      obtain ⟨_, funded, transfer, done⟩ := bind_ok.mp done
      obtain ⟨_, owned, assign, done⟩ := bind_ok.mp done
      obtain ⟨-, rfl⟩ := Prod.mk.inj (Except.ok.inj done)
      obtain ⟨failed, -⟩ | ⟨-, signed, called⟩ := invokeSigned_ok (unwrapped_ok transfer)
      · cases failed
      · obtain ⟨-, enough, rfl⟩ := documented.transfer _ _ _ _ _ _ called
        have moved := Moved.payment other enough
        rw [Ledger.setData_lamports, Nat.add_sub_of_le poor.le] at moved
        rw [documented.assigned assign, max_eq_right poor.le]
        exact moved.congr (fun key => by simp) fun key => by simp
    next rich =>
      obtain ⟨_, owned, assign, done⟩ := bind_ok.mp done
      obtain ⟨-, rfl⟩ := Prod.mk.inj (Except.ok.inj done)
      rw [documented.assigned assign, max_eq_left (Nat.not_lt.mp rich)]
      exact Moved.of_same fun key => by simp
  · obtain ⟨-, rfl⟩ := Prod.mk.inj (Except.ok.inj done)
    exact Moved.of_same fun key => rfl

variable {user program account : AccountInfo} {others : List AccountInfo}
  {instruction : RoundNetInstruction}

theorem RoundNetInstruction.process_moved (documented : runtime.Documented)
    (listed : (user :: program :: others)[instruction.slot]? = some account)
    (other : account.key ≠ user.key)
    (done : (instruction.process runtime ⟨user, program, others⟩).run ledger = .ok ((), ledger')) :
    Moved user.key account.key (instruction.left runtime (ledger account.key)) ledger ledger' := by
  cases instruction with
  | InitTable closed =>
    obtain ⟨table, _, found, done⟩ := bind_ok.mp done
    obtain ⟨listed', rfl⟩ := Context.other_ok.mp found
    obtain rfl := Option.some.inj (listed.symm.trans listed')
    obtain ⟨_, _, checked, done⟩ := bind_ok.mp done
    obtain ⟨-, rfl, rfl⟩ := checkTableAccount_ok.mp checked
    rw [run_get_bind] at done
    split at done
    next => cases done
    next absent =>
      obtain ⟨_, created, creation, done⟩ := bind_ok.mp done
      obtain ⟨-, rfl⟩ := serializeInto_ok.mp done
      have moved := createOwnedFundedSizedPda_moved documented other creation
      rw [if_pos (by simpa using absent)] at moved
      exact moved.setData _ _
  | DeleteTable =>
    obtain ⟨table, listed', -, -, rfl⟩ := deleteTable_ok done
    obtain rfl := Option.some.inj (listed.symm.trans listed')
    exact Moved.refund other ledger
  | AddSeat channelKey =>
    obtain ⟨_, _, checking, seating⟩ := bind_ok.mp done
    obtain ⟨rfl, owner, table, checked⟩ := checkSeat_ok checking
    obtain rfl := Option.some.inj (listed.symm.trans checked.seatListed)
    obtain ⟨_, created, creation, writing⟩ := bind_ok.mp seating
    obtain ⟨-, rfl⟩ := serializeInto_ok.mp writing
    exact (createOwnedFundedSizedPda_moved documented other creation).setData _ _
  | RemoveSeat =>
    have handled := RoundNetInstruction.process_ok documented done
    cases handled with
    | edited edits => cases edits
    | removeSeat checked change =>
      obtain rfl := Option.some.inj (listed.symm.trans checked.seatListed)
      rw [change]
      exact Moved.refund other ledger
  | AddBootstrap | RemoveBootstrap | AddChannelArgs | RemoveChannelArgs =>
    have handled := RoundNetInstruction.process_ok documented done
    cases handled with
    | edited edits listed' address long fits change =>
      rw [change]
      exact Moved.of_same fun key => by rw [Ledger.setData_lamports]

end Handlers

def Ledger.total (keys : Finset PublicKey) (ledger : Ledger) : Nat :=
  keys.sum fun key => (ledger key).lamports

section Totals

variable {runtime : Runtime} {programId : PublicKey} {known : Set PublicKey}
  {keys : Finset PublicKey} {ledger ledger' : Ledger} {step : Step}

theorem Moved.total {payer account : PublicKey} {left : Nat}
    (moved : Moved payer account left ledger ledger') (other : account ≠ payer)
    (payerListed : payer ∈ keys) (accountListed : account ∈ keys) :
    ledger'.total keys = ledger.total keys := by
  have split (ledger : Ledger) : ledger.total keys = (ledger payer).lamports +
      ((ledger account).lamports + ledger.total ((keys.erase payer).erase account)) := by
    simp only [Ledger.total]
    rw [Finset.add_sum_erase _ (fun key => (ledger key).lamports)
      (Finset.mem_erase.mpr ⟨other, accountListed⟩),
      Finset.add_sum_erase _ (fun key => (ledger key).lamports) payerListed]
  have rest : ledger'.total ((keys.erase payer).erase account) =
      ledger.total ((keys.erase payer).erase account) := by
    apply Finset.sum_congr rfl
    intro key member
    simp only [Finset.mem_erase] at member
    exact moved.others key member.2.1 member.1
  have balance := moved.balance
  have before := split ledger
  have after := split ledger'
  omega

theorem Ledger.transfer_self (ledger : Ledger) {key : PublicKey} {lamports : Nat}
    (enough : lamports ≤ (ledger key).lamports) (other : PublicKey) :
    (ledger.transfer key key lamports other).lamports = (ledger other).lamports := by
  by_cases same : other = key
  · subst same
    simp only [transfer, setLamports_lamports]
    omega
  · rw [transfer_ne same same]

theorem Step.execute_total (documented : runtime.Documented)
    (genuine : step.Genuine runtime programId known)
    (listed : ∀ key, step.mentions key = true → key ∈ keys)
    (executed : step.execute runtime programId ledger = some ledger') :
    ledger'.total keys = ledger.total keys := by
  cases step with
  | call accounts input =>
    simp only [Step.execute] at executed
    split at executed
    next after done =>
      obtain rfl := Option.some.inj executed
      obtain ⟨user, program, others, instruction, rfl, signed, rfl, -, done⟩ :=
        processInstruction_ran done
      obtain ⟨account, place, found, within, -, address, -⟩ :=
        (instruction.process_ok documented done).slot genuine.1
      have notUser : account.key ≠ user.key := by
        rw [address]
        exact (genuine.2 user (by simp) signed place within).symm
      have mentioned : ∀ account ∈ user :: program :: others, account.key ∈ keys := by
        intro account member
        apply listed
        simp only [Step.mentions, List.any_eq_true, decide_eq_true_eq]
        exact ⟨account, member, rfl⟩
      exact (instruction.process_moved documented found notUser done).total notUser
        (mentioned user (by simp)) (mentioned account (List.mem_of_getElem? found))
    next => cases executed
  | transfer source destination lamports signers =>
    obtain ⟨-, enough, rfl⟩ := documented.transfer _ _ _ _ _ _ executed
    by_cases same : destination = source
    · subst same
      exact Finset.sum_congr rfl fun key _ => ledger.transfer_self enough key
    · exact (Moved.payment same enough).total same (listed source (by simp [Step.mentions]))
        (listed destination (by simp [Step.mentions]))

theorem Ledger.purge_total (keys : Finset PublicKey) (ledger : Ledger) :
    ledger.purge.total keys = ledger.total keys := by
  apply Finset.sum_congr rfl
  intro key _
  unfold purge
  split_ifs with poor
  · exact poor.symm
  · rfl

/-- The program never makes or destroys lamports: along every chain, accounts that include all those
mentioned have together what they had at first. -/
theorem chain_total (documented : runtime.Documented) {initial : Ledger}
    {transactions : List (List Step)}
    (genuine : ∀ transaction ∈ transactions, ∀ step ∈ transaction,
      step.Genuine runtime programId known)
    (listed : ∀ transaction ∈ transactions, ∀ step ∈ transaction, ∀ key,
      step.mentions key = true → key ∈ keys) :
    ((chain runtime programId).run initial transactions).1.total keys = initial.total keys := by
  apply chain_invariant (fun ledger _ => ledger.total keys = initial.total keys) initial
    transactions rfl
  · intro ledger ledger' history transaction isTransaction step member kept executed
    rw [Step.execute_total documented (genuine transaction isTransaction step member)
      (listed transaction isTransaction step member) executed, kept]
  · intro ledger history kept
    rw [ledger.purge_total, kept]

theorem Step.Genuine.known_of_mentions {key : PublicKey} (genuine : step.Genuine runtime programId known)
    (isCall : step.isCall = true) (mentioned : step.mentions key = true) : key ∈ known := by
  cases step with
  | call accounts input =>
    simp only [Step.mentions, List.any_eq_true, decide_eq_true_eq] at mentioned
    obtain ⟨account, member, rfl⟩ := mentioned
    exact genuine.1 account member
  | transfer => cases isCall

end Totals

theorem Sample.reopened_genuine : ∀ transaction ∈ Sample.reopened, ∀ step ∈ transaction,
    step.Genuine Sample.runtime PROGRAM_ID {key | key ∈ Sample.keys} := by
  simp only [Sample.reopened, List.forall_mem_cons, List.not_mem_nil, IsEmpty.forall_iff,
    implies_true, and_true]
  exact ⟨Sample.table_genuine _, Sample.seat_genuine _, Sample.table_genuine _,
    Sample.table_genuine _⟩

theorem chain_total_reopened :
    ((chain Sample.runtime PROGRAM_ID).run Sample.funded Sample.reopened).1.total
      Sample.keys.toFinset = Sample.funded.total Sample.keys.toFinset :=
  chain_total Sample.runtime_documented Sample.reopened_genuine
    fun transaction isTransaction step member key mentioned => by
      have isCall : ∀ transaction ∈ Sample.reopened, ∀ step ∈ transaction, step.isCall = true := by
        decide
      have genuine := Sample.reopened_genuine transaction isTransaction step member
      exact List.mem_toFinset.mpr (Step.Genuine.known_of_mentions genuine
        (isCall transaction isTransaction step member) mentioned)

end RoundTable.Contract
