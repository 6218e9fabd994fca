import RoundTable.Client.Contract
import RoundTable.Contract.Replay

set_option autoImplicit false

namespace RoundTable.Client

open Contract

def TableView.of (table : TableData) : TableView :=
  ⟨entries table.servers.toList, entries table.channels.toList, Borsh.ofBool table.closed⟩

section Reads

variable {runtime : Runtime} {known : Set PublicKey} {ledger : Ledger} {deployment : Deployment}
  {owner user : PublicKey}

theorem getTableData_iff (documented : runtime.Documented)
    (holds : (Place.table owner).Holds runtime PROGRAM_ID
      (ledger (tableAddress runtime PROGRAM_ID owner)) (deployment.held (.table owner)))
    (view : TableView) : getTableData runtime ledger owner = .ok (some view) ↔
      ∃ table, deployment.table owner = some table ∧ view = .of table := by
  cases found : deployment.table owner with
  | none =>
    rw [Deployment.held, found] at holds
    simpa using getTableData_of_empty holds view
  | some table =>
    rw [Deployment.held, found] at holds
    rw [getTableData_of_serialize holds.1 ((documented.rent _).trans_le holds.2.2)]
    simp [TableView.of, eq_comm]

theorem seatDeserialize_serialize (seat : SeatData) :
    seatDeserialize seat.serialize = .ok ⟨seat.channelPubkey.bytes⟩ := by
  have length := seat.channelPubkey.length_eq
  simp [seatDeserialize, readFixed, SeatData.serialize, length]

theorem getSeatData_iff (documented : runtime.Documented)
    (holds : (Place.seat owner user).Holds runtime PROGRAM_ID
      (ledger (seatAddress runtime PROGRAM_ID owner user)) (deployment.held (.seat owner user)))
    (data : RoundTableSeatData) :
    getSeatData runtime ledger owner user = .ok (some data) ↔
      ∃ seat, deployment.seat owner user = some seat ∧ data = ⟨seat.channelPubkey.bytes⟩ := by
  change (Place.seat owner user).Holds runtime PROGRAM_ID (ledger (getSeatAddress runtime
    (getTableAddress runtime owner PROGRAM_ID).1 user PROGRAM_ID).1) _ at holds
  simp only [getSeatData, getAccountInfo]
  generalize (getSeatAddress runtime (getTableAddress runtime owner PROGRAM_ID).1 user
    PROGRAM_ID).1 = address at holds ⊢
  cases found : deployment.seat owner user with
  | none =>
    rw [Deployment.held, found] at holds
    have empty : (ledger address).data = [] := holds
    have unread : seatDeserialize [] = .error .bounds := rfl
    by_cases poor : (ledger address).lamports = 0 <;> simp [poor, empty, unread]
  | some seat =>
    rw [Deployment.held, found] at holds
    have data' : (ledger address).data = seat.serialize := holds.1
    have funded := (documented.rent _).trans_le holds.2.2
    simp [funded.ne', data', seatDeserialize_serialize, eq_comm]

/-- What a client reads of a table and its seats is what the instructions for them have made, in the
order of the history and without those for any other table. -/
theorem reads_own_commands (documented : runtime.Documented)
    (distinct : runtime.Distinct PROGRAM_ID known) {initial : Ledger}
    {transactions : List (List Step)}
    (genuine : ∀ transaction ∈ transactions, ∀ step ∈ transaction,
      step.Genuine runtime PROGRAM_ID known)
    (leaves : ∀ transaction ∈ transactions, LeavesDeleted transaction)
    (unused : Unused runtime PROGRAM_ID known initial) (ownerKnown : owner ∈ known) :
    let reached := (chain runtime PROGRAM_ID).run initial transactions
    ∃ deployment, Deployment.empty.replay (commandsFor owner reached.2) = some deployment ∧
      (∀ view, getTableData runtime reached.1 owner = .ok (some view) ↔
        ∃ table, deployment.table owner = some table ∧ view = .of table) ∧
      ∀ user ∈ known, ∀ data, getSeatData runtime reached.1 owner user = .ok (some data) ↔
        ∃ seat, deployment.seat owner user = some seat ∧ data = ⟨seat.channelPubkey.bytes⟩ := by
  intro reached
  obtain ⟨own, replayed, holds⟩ := chain_replayed_own documented distinct (by decide) genuine leaves
    unused owner
  exact ⟨own, replayed, getTableData_iff documented (holds (.table owner) ownerKnown rfl),
    fun user userKnown => getSeatData_iff documented
      (holds (.seat owner user) ⟨ownerKnown, userKnown⟩ rfl)⟩

end Reads

theorem reads_own_commands_reopened :
    let reached := (chain Contract.Sample.runtime PROGRAM_ID).run Contract.Sample.funded
      Contract.Sample.reopened
    ∃ deployment, Deployment.empty.replay (commandsFor Contract.Sample.owner reached.2) =
        some deployment ∧
      (∀ view, getTableData Contract.Sample.runtime reached.1 Contract.Sample.owner =
          .ok (some view) ↔
        ∃ table, deployment.table Contract.Sample.owner = some table ∧ view = .of table) ∧
      ∀ user ∈ {key | key ∈ Contract.Sample.keys}, ∀ data,
        getSeatData Contract.Sample.runtime reached.1 Contract.Sample.owner user =
            .ok (some data) ↔
          ∃ seat, deployment.seat Contract.Sample.owner user = some seat ∧
            data = ⟨seat.channelPubkey.bytes⟩ :=
  reads_own_commands Contract.Sample.runtime_documented Contract.Sample.distinct
    Contract.Sample.reopened_genuine Contract.Sample.reopened_leaves Contract.Sample.unused
    (by simp [Contract.Sample.keys])

end RoundTable.Client
