import RoundTable.Contract.Creation

set_option autoImplicit false

namespace RoundTable.Contract

structure SeatCall (runtime : Runtime) (programId owner sitter : PublicKey) where
  user : AccountInfo
  program : AccountInfo
  tableOwner : AccountInfo
  table : AccountInfo
  seat : AccountInfo
  rest : List AccountInfo
  isSitter : user.key = sitter
  signed : user.isSigner = true
  isProgram : program.key = programId
  isOwner : tableOwner.key = owner
  isTable : table.key = tableAddress runtime programId owner
  isSeat : seat.key = seatAddress runtime programId owner sitter

namespace SeatCall

variable {runtime : Runtime} {programId owner sitter : PublicKey}

def accounts (call : SeatCall runtime programId owner sitter) : List AccountInfo :=
  call.user :: call.program :: call.tableOwner :: call.table :: call.seat :: call.rest

def remove (call : SeatCall runtime programId owner sitter) (ledger : Ledger) :
    Except Failure (Unit × Ledger) :=
  (processInstruction runtime programId call.accounts RoundNetInstruction.RemoveSeat.serialize).run
    ledger

open Attempt

theorem checkSeat_run {context : Context} {owner table seat : AccountInfo} {ledger : Ledger}
    (checked : SeatChecked runtime context ledger owner table seat) :
    ∃ seed, (checkSeat runtime context).run ledger = .ok ((seat, seed), ledger) := by
  obtain ⟨tableData, rest, read, approved⟩ := checked.approved
  have seatKey : seat.key = (deriveSeatSeed runtime table.key context.user.key
      context.program.key).2 := by
    rw [checked.seatKey, checked.tableKey]
    rfl
  refine ⟨(deriveSeatSeed runtime table.key context.user.key context.program.key).1, ?_⟩
  rw [checkSeat, run_bind_of_ok (Context.other_ok.mpr ⟨checked.ownerListed, rfl⟩),
    run_bind_of_ok (Context.other_ok.mpr ⟨checked.tableListed, rfl⟩),
    run_bind_of_ok (checkTableAccount_ok.mpr ⟨checked.tableKey, rfl, rfl⟩),
    run_bind_of_ok (Context.other_ok.mpr ⟨checked.seatListed, rfl⟩),
    run_bind_of_ok (checkSeatAccount_ok.mpr ⟨seatKey, rfl, rfl⟩), run_get_bind]
  simp only [read]
  rw [if_neg]
  · rfl
  · cases closed : tableData.closed with
    | false => simp
    | true => simp [approved closed]

theorem remove_eq_process (call : SeatCall runtime programId owner sitter) (ledger : Ledger) :
    call.remove ledger = (removeSeat runtime ⟨call.user, call.program,
      call.tableOwner :: call.table :: call.seat :: call.rest⟩).run ledger := by
  rw [remove, accounts, processInstruction_run, RoundNetInstruction.tryFromSlice_serialize]
  simp [call.signed, call.isProgram, RoundNetInstruction.process]

theorem remove_of_open (call : SeatCall runtime programId owner sitter) {ledger : Ledger}
    {table : TableData} {rest : List UInt8}
    (read : TableData.deserialize (ledger (tableAddress runtime programId owner)).data =
      some (table, rest)) (isOpen : table.closed = false) :
    call.remove ledger = .ok ((), ledger.transfer (seatAddress runtime programId owner sitter) sitter
      (ledger (seatAddress runtime programId owner sitter)).lamports) := by
  have checked : SeatChecked runtime ⟨call.user, call.program,
      call.tableOwner :: call.table :: call.seat :: call.rest⟩ ledger call.tableOwner call.table
        call.seat := by
    refine ⟨rfl, rfl, rfl, ?_, ?_, table, rest, ?_, by simp [isOpen]⟩
    · rw [call.isTable, call.isProgram, call.isOwner]
    · rw [call.isSeat, call.isProgram, call.isOwner, call.isSitter]
    · rw [call.isTable, read]
  obtain ⟨seed, done⟩ := checkSeat_run checked
  rw [call.remove_eq_process, removeSeat, run_bind_of_ok done, deletePda_run, call.isSeat,
    call.isSitter]

theorem remove_of_no_table (call : SeatCall runtime programId owner sitter) {ledger ledger' : Ledger}
    (absent : (ledger (tableAddress runtime programId owner)).data = []) :
    call.remove ledger ≠ .ok ((), ledger') := by
  intro done
  rw [call.remove_eq_process] at done
  obtain ⟨_, _, checking, -⟩ := bind_ok.mp done
  obtain ⟨rfl, tableOwner, table, checked⟩ := checkSeat_ok checking
  obtain ⟨tableData, rest, read, -⟩ := checked.approved
  obtain rfl : call.table = table := Option.some.inj checked.tableListed
  rw [call.isTable, absent] at read
  cases read

end SeatCall

section Runs

variable {runtime : Runtime} {programId owner sitter : PublicKey} {known : Set PublicKey}

theorem TableData.edit_closed {table table' : TableData} {instruction : RoundNetInstruction}
    (edited : table.edit instruction = .ok table') : table'.closed = table.closed := by
  cases instruction with
  | AddBootstrap | RemoveBootstrap | AddChannelArgs | RemoveChannelArgs =>
    obtain ⟨region, -, rfl⟩ := Attempt.map_eq_ok edited
    rfl
  | _ =>
    obtain rfl := Except.ok.inj edited
    rfl

theorem Change.keeps_open {place : Place} {step : Step} {account account' : Account}
    (isTable : place.slot = 2)
    (notClosed : step.asks (place.address runtime programId) ≠ some (.InitTable true))
    (change : Change runtime programId place step account account')
    (isOpen : closedByte account ≠ some 1) : closedByte account' ≠ some 1 := by
  cases change with
  | received amount unasked funded change => exact change ▸ isOpen
  | spent lamports unasked owned change => exact change ▸ isOpen
  | @did instruction asked aimed does =>
    cases instruction with
    | InitTable closed =>
      rw [closedByte, does.2.1, Ne, TableData.serialize_closed_iff]
      rintro rfl
      exact notClosed asked
    | DeleteTable => exact does.2 ▸ isOpen
    | AddSeat | RemoveSeat => cases aimed.trans isTable
    | AddBootstrap | RemoveBootstrap | AddChannelArgs | RemoveChannelArgs =>
      obtain ⟨table, table', data, edited, rfl⟩ := RoundNetInstruction.does_of_edited rfl does
      rw [closedByte, data, Ne, TableData.serialize_closed_iff] at isOpen
      rw [closedByte, Ne, TableData.serialize_closed_iff, TableData.edit_closed edited]
      exact isOpen

/-- A seat was added while its table was open, the table has not been created as a closed one since,
and the seat exists. -/
structure SeatedWhileOpen (runtime : Runtime) (programId owner sitter : PublicKey)
    (initial : Ledger) (earlier : List (List Step)) (before : List Step) (added : Step)
    (after : List Step) (later : List (List Step)) (middle committed : Ledger) : Prop where
  reached : executeAll runtime programId ((chain runtime programId).run initial earlier).1 before =
    some middle
  isOpen : ∃ table rest, TableData.deserialize
    (middle (tableAddress runtime programId owner)).data = some (table, rest) ∧ table.closed = false
  adds : added.writesSeat (seatAddress runtime programId owner sitter) = true
  executed : executeAll runtime programId middle (added :: after) = some committed
  notClosed : ∀ step ∈ after ++ ((chain runtime programId).run committed.purge later).2,
    step.asks (tableAddress runtime programId owner) ≠ some (.InitTable true)
  seated : (((chain runtime programId).run committed.purge later).1
    (seatAddress runtime programId owner sitter)).data ≠ []

def Refunds (runtime : Runtime) (programId owner sitter : PublicKey) (ledger : Ledger)
    (outcome : Except Failure (Unit × Ledger)) : Prop :=
  ∃ ledger', outcome = .ok ((), ledger') ∧
    (ledger' sitter).lamports =
      (ledger sitter).lamports + (ledger (seatAddress runtime programId owner sitter)).lamports ∧
    (ledger' (seatAddress runtime programId owner sitter)).lamports = 0

theorem Step.asks_of_writesSeat {step : Step} {seat : PublicKey} (writes : step.writesSeat seat = true)
    (address : PublicKey) (closed : Bool) : step.asks address ≠ some (.InitTable closed) := by
  cases step with
  | call accounts input =>
    intro asked
    obtain ⟨decoded, -⟩ := Option.filter_eq_some_iff.mp asked
    simp [Step.writesSeat, decoded] at writes
  | transfer => cases writes

theorem closedByte_of_open {account : Account} {table : TableData} {rest : List UInt8}
    (read : TableData.deserialize account.data = some (table, rest)) (isOpen : table.closed = false) :
    closedByte account ≠ some 1 := by
  intro closed
  obtain ⟨table', rest', read', isClosed⟩ := TableData.deserialize_closed_iff.mpr closed
  obtain ⟨rfl, -⟩ := Prod.mk.inj (Option.some.inj (read.symm.trans read'))
  simp [isOpen] at isClosed

section Seated

variable {initial : Ledger} {earlier later : List (List Step)} {before after : List Step}
  {added : Step} {middle committed : Ledger}

theorem SeatedWhileOpen.table (documented : runtime.Documented)
    (distinct : runtime.Distinct programId known) (ownerKnown : owner ∈ known)
    (unused : Unused runtime programId known initial)
    (genuine : ∀ transaction ∈ earlier ++ [before ++ added :: after] ++ later, ∀ step ∈ transaction,
      step.Genuine runtime programId known)
    (seated : SeatedWhileOpen runtime programId owner sitter initial earlier before added after later
      middle committed) :
    let data := (((chain runtime programId).run committed.purge later).1
      (tableAddress runtime programId owner)).data
    data = [] ∨ ∃ table : TableData, data = table.serialize ∧ table.closed = false := by
  have within : (Place.table owner).Within known := ownerKnown
  have earlierSteps : ∀ transaction ∈ earlier, ∀ step ∈ transaction,
      step.Genuine runtime programId known :=
    fun transaction member => genuine transaction (by simp [member])
  have laterSteps : ∀ transaction ∈ later, ∀ step ∈ transaction,
      step.Genuine runtime programId known :=
    fun transaction member => genuine transaction (by simp [member])
  have steps := genuine (before ++ added :: after) (by simp)
  have fits := chain_fits documented distinct within earlierSteps (.inl (unused _ within))
  have fitsMiddle := executeAll_fits documented distinct within
    (fun step member => steps step (by simp [member])) fits seated.reached
  obtain ⟨tableData, rest, read, isOpen⟩ := seated.isOpen
  -- from the addition on, no step closes the table
  obtain ⟨fitsCommitted, openCommitted⟩ := executeAll_account documented distinct within
    (fun account _ => closedByte account ≠ some 1) []
    (fun step member => steps step (List.mem_append_right _ member)) fitsMiddle
    (closedByte_of_open read isOpen)
    (fun account account' history step member _ holds change => by
      refine change.keeps_open rfl ?_ holds
      obtain rfl | member := List.mem_cons.mp member
      · exact Step.asks_of_writesSeat seated.adds _ _
      · exact seated.notClosed step (by simp [member])) seated.executed
  have purged : (Place.table owner).Fits programId
      (committed.purge (tableAddress runtime programId owner)) ∧
        closedByte (committed.purge (tableAddress runtime programId owner)) ≠ some 1 := by
    unfold Ledger.purge
    split_ifs
    · exact ⟨.inl rfl, by simp [closedByte, Account.absent]⟩
    · exact ⟨fitsCommitted, openCommitted⟩
  obtain ⟨fitsFinal, openFinal⟩ := chain_account documented distinct within
    (fun account history =>
      (∀ step ∈ history, step.asks (tableAddress runtime programId owner) ≠
        some (.InitTable true)) → closedByte account ≠ some 1)
    laterSteps purged.1 (fun _ => purged.2)
    (fun account account' history transaction _ step _ _ holds change clean => by
      apply change.keeps_open rfl
      · exact clean step (by simp)
      · exact holds fun earlier member => clean earlier (by simp [member]))
    (fun _ _ _ _ _ => by simp [closedByte, Account.absent])
  have isOpen := openFinal fun step member => seated.notClosed step (by simp [member])
  obtain empty | ⟨-, table, data⟩ := fitsFinal
  · exact .inl empty
  · rw [closedByte, data, Ne, TableData.serialize_closed_iff] at isOpen
    exact .inr ⟨table, data, by simpa using isOpen⟩

/-- The holder of a seat added while the table was open gets the deposit back exactly when the
table has data. -/
theorem deposit_refunded_iff (documented : runtime.Documented)
    (distinct : runtime.Distinct programId known) (ownerKnown : owner ∈ known)
    (sitterKnown : sitter ∈ known) (unused : Unused runtime programId known initial)
    (genuine : ∀ transaction ∈ earlier ++ [before ++ added :: after] ++ later, ∀ step ∈ transaction,
      step.Genuine runtime programId known)
    (seated : SeatedWhileOpen runtime programId owner sitter initial earlier before added after later
      middle committed)
    (call : SeatCall runtime programId owner sitter)
    (neverSign : DerivedNeverSign runtime programId known call.accounts) :
    let ledger := ((chain runtime programId).run committed.purge later).1
    Refunds runtime programId owner sitter ledger (call.remove ledger) ↔
      (ledger (tableAddress runtime programId owner)).data ≠ [] := by
  intro ledger
  constructor
  · rintro ⟨ledger', done, -⟩ absent
    exact call.remove_of_no_table absent done
  · intro present
    obtain ⟨table, data, isOpen⟩ :=
      (seated.table documented distinct ownerKnown unused genuine).resolve_left present
    have read := TableData.deserialize_append table []
    rw [List.append_nil, ← data] at read
    have notSeat : seatAddress runtime programId owner sitter ≠ sitter := by
      have other := neverSign call.user (by simp [SeatCall.accounts]) call.signed
        (.seat owner sitter) ⟨ownerKnown, sitterKnown⟩
      exact (call.isSitter ▸ other).symm
    refine ⟨_, call.remove_of_open read isOpen, Ledger.transfer_received notSeat _ _, ?_⟩
    rw [Ledger.transfer_all notSeat]

end Seated

theorem Sample.isTable :
    Sample.table = tableAddress Sample.runtime PROGRAM_ID Sample.owner := by
  decide +kernel

theorem Sample.isSeat :
    Sample.seat = seatAddress Sample.runtime PROGRAM_ID Sample.owner Sample.user := by
  decide +kernel

def Sample.program : AccountInfo := ⟨PROGRAM_ID, false, false⟩

def Sample.seatCall : SeatCall Sample.runtime PROGRAM_ID Sample.owner Sample.user where
  user := ⟨Sample.user, true, true⟩
  program := Sample.program
  tableOwner := ⟨Sample.owner, false, false⟩
  table := ⟨Sample.table, false, false⟩
  seat := ⟨Sample.seat, false, true⟩
  rest := [⟨systemProgramId, false, false⟩]
  isSitter := rfl
  signed := rfl
  isProgram := rfl
  isOwner := rfl
  isTable := Sample.isTable
  isSeat := Sample.isSeat

def Sample.opened : Ledger :=
  ((chain Sample.runtime PROGRAM_ID).run Sample.funded [[.call Sample.tableAccounts [0, 0]]]).1

def Sample.deletion : List (List Step) := [[.call Sample.tableAccounts [1]]]

theorem Sample.seated_while_open : ∃ committed,
    SeatedWhileOpen Sample.runtime PROGRAM_ID Sample.owner Sample.user Sample.funded
      [[.call Sample.tableAccounts [0, 0]]] [] Sample.sit [] Sample.deletion Sample.opened committed ∧
    (((chain Sample.runtime PROGRAM_ID).run committed.purge Sample.deletion).1
      (tableAddress Sample.runtime PROGRAM_ID Sample.owner)).data = [] := by
  have sits : (executeAll Sample.runtime PROGRAM_ID Sample.opened [Sample.sit]).any (fun committed =>
      let reached := (chain Sample.runtime PROGRAM_ID).run committed.purge Sample.deletion
      reached.2 = Sample.deletion.flatten ∧
        (reached.1 (seatAddress Sample.runtime PROGRAM_ID Sample.owner Sample.user)).data ≠ [] ∧
        (reached.1 (tableAddress Sample.runtime PROGRAM_ID Sample.owner)).data = []) = true := by
    decide +kernel
  have isOpen : (TableData.deserialize (Sample.opened
      (tableAddress Sample.runtime PROGRAM_ID Sample.owner)).data).any (fun read =>
        !read.1.closed) = true := by
    decide +kernel
  obtain ⟨committed, executed, holds⟩ := (Option.any_eq_true _ _).mp sits
  obtain ⟨⟨table, rest⟩, read, notClosed⟩ := (Option.any_eq_true _ _).mp isOpen
  rw [decide_eq_true_iff] at holds
  obtain ⟨history, seated, deleted⟩ := holds
  refine ⟨committed, ?_, deleted⟩
  exact {
    reached := rfl
    isOpen := ⟨table, rest, read, by simpa using notClosed⟩
    adds := by decide +kernel
    executed := executed
    notClosed := by
      rw [history]
      decide +kernel
    seated := seated }

theorem deposit_locked_in : ∃ committed,
    SeatedWhileOpen Sample.runtime PROGRAM_ID Sample.owner Sample.user Sample.funded
      [[.call Sample.tableAccounts [0, 0]]] [] Sample.sit [] Sample.deletion Sample.opened committed ∧
    let ledger := ((chain Sample.runtime PROGRAM_ID).run committed.purge Sample.deletion).1
    ¬Refunds Sample.runtime PROGRAM_ID Sample.owner Sample.user ledger
      (Sample.seatCall.remove ledger) := by
  obtain ⟨committed, seated, deleted⟩ := Sample.seated_while_open
  refine ⟨committed, seated, ?_⟩
  rintro ledger ⟨ledger', done, -⟩
  exact Sample.seatCall.remove_of_no_table deleted done

theorem deposit_refunded_iff_deleted : ∃ committed,
    SeatedWhileOpen Sample.runtime PROGRAM_ID Sample.owner Sample.user Sample.funded
      [[.call Sample.tableAccounts [0, 0]]] [] Sample.sit [] Sample.deletion Sample.opened committed ∧
    let ledger := ((chain Sample.runtime PROGRAM_ID).run committed.purge Sample.deletion).1
    (Refunds Sample.runtime PROGRAM_ID Sample.owner Sample.user ledger
        (Sample.seatCall.remove ledger) ↔
      (ledger (tableAddress Sample.runtime PROGRAM_ID Sample.owner)).data ≠ []) := by
  obtain ⟨committed, seated, -⟩ := Sample.seated_while_open
  have genuine : ∀ transaction ∈ [[.call Sample.tableAccounts [0, 0]]] ++ [[] ++ Sample.sit :: []] ++
      Sample.deletion, ∀ step ∈ transaction,
        step.Genuine Sample.runtime PROGRAM_ID {key | key ∈ Sample.keys} := by
    simp only [Sample.deletion, List.cons_append, List.nil_append, List.forall_mem_cons,
      List.not_mem_nil, IsEmpty.forall_iff, implies_true, and_true]
    exact ⟨Sample.table_genuine _, Sample.seat_genuine _, Sample.table_genuine _⟩
  have neverSign := (Sample.genuine Sample.seatCall.accounts (by decide) []).2
  exact ⟨committed, seated, deposit_refunded_iff Sample.runtime_documented Sample.distinct
    (by simp [Sample.keys]) (by simp [Sample.keys]) Sample.unused genuine seated Sample.seatCall
    neverSign⟩

end Runs

end RoundTable.Contract
