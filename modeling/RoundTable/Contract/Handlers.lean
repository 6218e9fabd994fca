import RoundTable.Contract.Processor

set_option autoImplicit false

/-!
# What a handler has done when it succeeds

`Handled` says everything that a successful instruction can do to the ledger, with the checks that
it has passed. The results about the program are derived from it and look at no handler again.
-/

namespace RoundTable.Contract

def tableAddress (runtime : Runtime) (programId owner : PublicKey) : PublicKey :=
  (deriveTableSeed runtime owner programId).2

def seatAddress (runtime : Runtime) (programId owner user : PublicKey) : PublicKey :=
  (deriveSeatSeed runtime (tableAddress runtime programId owner) user programId).2

open Attempt

theorem Context.other_ok {context : Context} {i : Nat} {account : AccountInfo}
    {ledger ledger' : Ledger} :
    (context.other i).run ledger = .ok (account, ledger') ↔
      context.others[i]? = some account ∧ ledger = ledger' := by
  unfold Context.other
  cases context.others[i]? with
  | none => simp
  | some found => simp

section Handlers

variable {runtime : Runtime}

theorem checkTableAccount_ok {tableAcc : AccountInfo} {owner programId : PublicKey}
    {checked : AccountInfo × List (List UInt8)} {ledger ledger' : Ledger} :
    (checkTableAccount runtime tableAcc owner programId).run ledger = .ok (checked, ledger') ↔
      tableAcc.key = tableAddress runtime programId owner ∧
        (tableAcc, (deriveTableSeed runtime owner programId).1) = checked ∧ ledger = ledger' := by
  simp only [checkTableAccount, tableAddress]
  split_ifs with wrong
  · simp [Ne.symm wrong]
  · simp [(not_not.mp wrong).symm]

theorem checkSeatAccount_ok {seatAcc : AccountInfo} {table user programId : PublicKey}
    {checked : AccountInfo × List (List UInt8)} {ledger ledger' : Ledger} :
    (checkSeatAccount runtime seatAcc table user programId).run ledger = .ok (checked, ledger') ↔
      seatAcc.key = (deriveSeatSeed runtime table user programId).2 ∧
        (seatAcc, (deriveSeatSeed runtime table user programId).1) = checked ∧ ledger = ledger' := by
  simp only [checkSeatAccount]
  split_ifs with wrong
  · simp [Ne.symm wrong]
  · simp [(not_not.mp wrong).symm]

theorem deletePda_run (account refund : AccountInfo) (ledger : Ledger) :
    (deletePda account refund).run ledger =
      .ok ((), ledger.transfer account.key refund.key (ledger account.key).lamports) := by
  simp [deletePda, Ledger.transfer]

theorem serializeInto_ok {account : AccountInfo} {bytes : List UInt8} {ledger ledger' : Ledger} :
    (serializeInto account bytes).run ledger = .ok ((), ledger') ↔
      bytes.length ≤ (ledger account.key).data.length ∧
        ledger.setData account.key (bytes ++ (ledger account.key).data.drop bytes.length) =
          ledger' := by
  simp only [serializeInto, run_get_bind]
  split_ifs with short
  · simp [short]
  · simp [Nat.not_lt.mp short]

theorem editRegion_ok {account : AccountInfo} {start stop : Nat}
    {edit : List UInt8 → Except Failure (List UInt8)} {ledger ledger' : Ledger} :
    (editRegion account start stop edit).run ledger = .ok ((), ledger') ↔
      stop ≤ (ledger account.key).data.length ∧
        ∃ region, edit (((ledger account.key).data.take stop).drop start) = .ok region ∧
          ledger.setData account.key ((ledger account.key).data.take start ++ region ++
            (ledger account.key).data.drop stop) = ledger' := by
  simp only [editRegion, run_get_bind]
  split_ifs with short
  · simp [short]
  · cases edit (((ledger account.key).data.take stop).drop start) with
    | error failure => simp
    | ok region => simp [Nat.not_lt.mp short]

theorem invokeSigned_ok {instruction : SystemInstruction} {accounts : List AccountInfo}
    {seeds : List (List UInt8)} {caller : PublicKey} {result : Except Unit Unit}
    {ledger ledger' : Ledger}
    (done : (invokeSigned runtime instruction accounts seeds caller).run ledger =
      .ok (result, ledger')) :
    (result = .error () ∧ ledger' = ledger) ∨
      (result = .ok () ∧ ∃ signed, runtime.system instruction signed ledger = some ledger') := by
  simp only [invokeSigned, run_get_bind] at done
  split at done
  next after called =>
    obtain ⟨rfl, rfl⟩ := Prod.mk.inj (Except.ok.inj done)
    exact .inr ⟨rfl, _, called⟩
  next =>
    obtain ⟨rfl, rfl⟩ := Prod.mk.inj (Except.ok.inj done)
    exact .inl ⟨rfl, rfl⟩

theorem unwrapped_ok {call : Program (Except Unit Unit)} {panic : Panic} {ledger ledger' : Ledger}
    (done : (unwrapped call panic).run ledger = .ok ((), ledger')) :
    call.run ledger = .ok (.ok (), ledger') := by
  obtain ⟨result, middle, called, done⟩ := bind_ok.mp done
  cases result with
  | ok =>
    obtain ⟨-, rfl⟩ := Prod.mk.inj (Except.ok.inj done)
    exact called
  | error => cases done

-- The account exists and belongs to the program, and only it and the payer have changed.
structure Created (account payer programId : PublicKey) (space : Nat)
    (ledger ledger' : Ledger) : Prop where
  data : (ledger' account).data = [] ∨ (ledger' account).data = List.replicate space 0
  owner : (ledger' account).owner = programId
  funded : 0 < (ledger' account).lamports
  contents : ∀ key, key ≠ account →
    (ledger' key).data = (ledger key).data ∧ (ledger' key).owner = (ledger key).owner
  lamports : ∀ key, key ≠ account → key ≠ payer → (ledger' key).lamports = (ledger key).lamports

theorem Runtime.Documented.allocated (documented : runtime.Documented) {account caller : PublicKey}
    {space : Nat} {accounts : List AccountInfo} {seeds : List (List UInt8)}
    {result : Except Unit Unit} {ledger ledger' : Ledger} (empty : (ledger account).data = [])
    (done : (invokeSigned runtime (.allocate account space) accounts seeds caller).run ledger =
      .ok (result, ledger')) :
    ∃ data, (data = [] ∨ data = List.replicate space 0) ∧ ledger' = ledger.setData account data := by
  obtain ⟨-, rfl⟩ | ⟨-, signed, called⟩ := invokeSigned_ok done
  · exact ⟨[], .inl rfl, by rw [← empty, Ledger.setData, Function.update_eq_self]⟩
  · obtain ⟨-, -, rfl⟩ := documented.allocate _ _ _ _ _ called
    exact ⟨_, .inr rfl, rfl⟩

theorem Runtime.Documented.transferred (documented : runtime.Documented)
    {source destination caller : PublicKey} {lamports : Nat} {accounts : List AccountInfo}
    {seeds : List (List UInt8)} {panic : Panic} {ledger ledger' : Ledger}
    (done : (unwrapped (invokeSigned runtime (.transfer source destination lamports) accounts seeds
      caller) panic).run ledger = .ok ((), ledger')) :
    ledger' = ledger.transfer source destination lamports := by
  obtain ⟨failed, -⟩ | ⟨-, signed, called⟩ := invokeSigned_ok (unwrapped_ok done)
  · cases failed
  · exact (documented.transfer _ _ _ _ _ _ called).2.2

theorem Runtime.Documented.assigned (documented : runtime.Documented)
    {account owner caller : PublicKey} {accounts : List AccountInfo} {seeds : List (List UInt8)}
    {panic : Panic} {ledger ledger' : Ledger}
    (done : (unwrapped (invokeSigned runtime (.assign account owner) accounts seeds caller)
      panic).run ledger = .ok ((), ledger')) :
    ledger' = ledger.setOwner account owner := by
  obtain ⟨failed, -⟩ | ⟨-, signed, called⟩ := invokeSigned_ok (unwrapped_ok done)
  · cases failed
  · exact (documented.assign _ _ _ _ _ called).2

theorem createOwnedFundedSizedPda_ok (documented : runtime.Documented)
    {newAccount programAccount payer : AccountInfo} {seed : List (List UInt8)} {space : Nat}
    {result : Except Unit Unit} {ledger ledger' : Ledger}
    (done : (createOwnedFundedSizedPda runtime newAccount programAccount payer seed space false).run
      ledger = .ok (result, ledger')) :
    if (ledger newAccount.key).data = [] then
      Created newAccount.key payer.key programAccount.key space ledger ledger'
    else ledger' = ledger := by
  simp only [createOwnedFundedSizedPda, run_get_bind, Bool.or_false, List.isEmpty_iff] at done
  split_ifs at done ⊢ with empty
  · obtain ⟨_, allocated, allocation, done⟩ := bind_ok.mp done
    obtain ⟨data, shape, rfl⟩ := documented.allocated empty allocation
    rw [run_get_bind] at done
    -- the account already holds its rent, or it is paid up to it
    split at done
    next poor =>
      obtain ⟨_, funded, transfer, done⟩ := bind_ok.mp done
      obtain ⟨_, owned, assign, done⟩ := bind_ok.mp done
      obtain ⟨-, rfl⟩ := Prod.mk.inj (Except.ok.inj done)
      rw [documented.assigned assign, documented.transferred transfer]
      refine ⟨by simpa using shape, by simp, ?_, ?_, ?_⟩
      · have paid := Ledger.le_transfer_lamports (ledger.setData newAccount.key data) payer.key
          newAccount.key (runtime.rentDue space -
            ((ledger.setData newAccount.key data) newAccount.key).lamports)
        rw [Ledger.setOwner_lamports]
        omega
      · intro key other
        simp [Ledger.setOwner_ne other, Ledger.setData_ne other]
      · intro key other notPayer
        simp [Ledger.transfer_ne notPayer other]
    next rich =>
      obtain ⟨_, owned, assign, done⟩ := bind_ok.mp done
      obtain ⟨-, rfl⟩ := Prod.mk.inj (Except.ok.inj done)
      rw [documented.assigned assign]
      refine ⟨by simpa using shape, by simp, ?_, ?_, ?_⟩
      · have due := documented.rent space
        rw [Ledger.setOwner_lamports]
        omega
      · intro key other
        simp [Ledger.setOwner_ne other, Ledger.setData_ne other]
      · intro key other notPayer
        simp
  · obtain ⟨-, rfl⟩ := Prod.mk.inj (Except.ok.inj done)
    rfl

theorem initTable_ok (documented : runtime.Documented) {context : Context} {closed : Bool}
    {ledger ledger' : Ledger}
    (done : (initTable runtime context closed).run ledger = .ok ((), ledger')) :
    ∃ table created, context.others[0]? = some table ∧
      table.key = tableAddress runtime context.program.key context.user.key ∧
      (ledger table.key).data = [] ∧
      Created table.key context.user.key context.program.key TABLE_DATA_SIZE ledger created ∧
      ledger' = created.setData table.key (TableData.new closed).serialize := by
  obtain ⟨table, _, found, done⟩ := bind_ok.mp done
  obtain ⟨listed, rfl⟩ := Context.other_ok.mp found
  obtain ⟨_, _, checked, done⟩ := bind_ok.mp done
  obtain ⟨address, rfl, rfl⟩ := checkTableAccount_ok.mp checked
  rw [run_get_bind] at done
  split at done
  next => cases done
  next absent =>
    have absent : (ledger table.key).data = [] := by simpa using absent
    obtain ⟨_, created, creation, done⟩ := bind_ok.mp done
    have creation := createOwnedFundedSizedPda_ok documented creation
    rw [if_pos absent] at creation
    obtain ⟨long, rfl⟩ := serializeInto_ok.mp done
    refine ⟨table, created, listed, address, absent, creation, ?_⟩
    -- an account without data could not hold the new table
    rw [TableData.length_serialize] at long
    obtain empty | zeros := creation.data
    · simp [empty, TABLE_DATA_SIZE] at long
    · rw [zeros, TableData.length_serialize, List.drop_replicate, Nat.sub_self, List.replicate_zero,
        List.append_nil]

theorem deleteTable_ok {context : Context} {ledger ledger' : Ledger}
    (done : (deleteTable runtime context).run ledger = .ok ((), ledger')) :
    ∃ table, context.others[0]? = some table ∧
      table.key = tableAddress runtime context.program.key context.user.key ∧
      (ledger table.key).data ≠ [] ∧
      ledger' = ledger.transfer table.key context.user.key (ledger table.key).lamports := by
  obtain ⟨table, _, found, done⟩ := bind_ok.mp done
  obtain ⟨listed, rfl⟩ := Context.other_ok.mp found
  obtain ⟨_, _, checked, done⟩ := bind_ok.mp done
  obtain ⟨address, rfl, rfl⟩ := checkTableAccount_ok.mp checked
  rw [run_get_bind] at done
  split at done
  next => cases done
  next present =>
    rw [deletePda_run] at done
    obtain ⟨-, rfl⟩ := Prod.mk.inj (Except.ok.inj done)
    exact ⟨table, listed, address, by simpa using present, rfl⟩

theorem editTable_ok {context : Context} {start stop : Nat}
    {edit : List UInt8 → Except Failure (List UInt8)} {ledger ledger' : Ledger} :
    (editTable runtime context start stop edit).run ledger = .ok ((), ledger') ↔
      ∃ table, context.others[0]? = some table ∧
        table.key = tableAddress runtime context.program.key context.user.key ∧
        (editRegion table start stop edit).run ledger = .ok ((), ledger') := by
  constructor
  · intro done
    obtain ⟨table, _, found, done⟩ := bind_ok.mp done
    obtain ⟨listed, rfl⟩ := Context.other_ok.mp found
    obtain ⟨_, _, checked, done⟩ := bind_ok.mp done
    obtain ⟨address, rfl, rfl⟩ := checkTableAccount_ok.mp checked
    exact ⟨table, listed, address, done⟩
  · rintro ⟨table, listed, address, done⟩
    exact bind_ok.mpr ⟨_, _, Context.other_ok.mpr ⟨listed, rfl⟩,
      bind_ok.mpr ⟨_, _, checkTableAccount_ok.mpr ⟨address, rfl, rfl⟩, done⟩⟩

structure SeatChecked (runtime : Runtime) (context : Context) (ledger : Ledger)
    (owner table seat : AccountInfo) : Prop where
  ownerListed : context.others[0]? = some owner
  tableListed : context.others[1]? = some table
  seatListed : context.others[2]? = some seat
  tableKey : table.key = tableAddress runtime context.program.key owner.key
  seatKey : seat.key = seatAddress runtime context.program.key owner.key context.user.key
  approved : ∃ tableData rest, TableData.deserialize (ledger table.key).data = some (tableData, rest) ∧
    (tableData.closed = true → owner.isSigner = true)

theorem checkSeat_ok {context : Context} {checked : AccountInfo × List (List UInt8)}
    {ledger ledger' : Ledger}
    (done : (checkSeat runtime context).run ledger = .ok (checked, ledger')) :
    ledger' = ledger ∧ ∃ owner table, SeatChecked runtime context ledger owner table checked.1 := by
  obtain ⟨owner, _, found, done⟩ := bind_ok.mp done
  obtain ⟨ownerListed, rfl⟩ := Context.other_ok.mp found
  obtain ⟨table, _, found, done⟩ := bind_ok.mp done
  obtain ⟨tableListed, rfl⟩ := Context.other_ok.mp found
  obtain ⟨_, _, tableChecked, done⟩ := bind_ok.mp done
  obtain ⟨tableKey, rfl, rfl⟩ := checkTableAccount_ok.mp tableChecked
  obtain ⟨seat, _, found, done⟩ := bind_ok.mp done
  obtain ⟨seatListed, rfl⟩ := Context.other_ok.mp found
  obtain ⟨_, _, seatChecked, done⟩ := bind_ok.mp done
  obtain ⟨seatKey, rfl, rfl⟩ := checkSeatAccount_ok.mp seatChecked
  rw [run_get_bind] at done
  split at done
  next => cases done
  next tableData rest read =>
    split_ifs at done with refused
    · cases done
    · obtain ⟨rfl, rfl⟩ := Prod.mk.inj (Except.ok.inj done)
      refine ⟨rfl, owner, table, ownerListed, tableListed, seatListed, tableKey, ?_, _, _, read, ?_⟩
      · rw [seatKey, tableKey]
        rfl
      · intro closed
        simpa [closed] using refused

-- The bytes of the table that an edit rewrites.
def RoundNetInstruction.edited : RoundNetInstruction → Option (Nat × Nat)
  | .AddBootstrap _ | .RemoveBootstrap _ => some (0, 512)
  | .AddChannelArgs _ | .RemoveChannelArgs _ => some (512, 1024)
  | _ => none

/-- What a successful instruction has checked and done. -/
inductive Handled (runtime : Runtime) (context : Context) (ledger ledger' : Ledger) :
    RoundNetInstruction → Prop
  | initTable {closed : Bool} {table : AccountInfo} {created : Ledger}
      (listed : context.others[0]? = some table)
      (address : table.key = tableAddress runtime context.program.key context.user.key)
      (absent : (ledger table.key).data = [])
      (creation : Created table.key context.user.key context.program.key TABLE_DATA_SIZE ledger
        created)
      (change : ledger' = created.setData table.key (TableData.new closed).serialize) :
      Handled runtime context ledger ledger' (.InitTable closed)
  | deleteTable {table : AccountInfo}
      (listed : context.others[0]? = some table)
      (address : table.key = tableAddress runtime context.program.key context.user.key)
      (change : ledger' =
        ledger.transfer table.key context.user.key (ledger table.key).lamports) :
      Handled runtime context ledger ledger' .DeleteTable
  | edited {instruction : RoundNetInstruction} {start stop : Nat} {table : AccountInfo}
      {region : List UInt8}
      (edits : instruction.edited = some (start, stop))
      (listed : context.others[0]? = some table)
      (address : table.key = tableAddress runtime context.program.key context.user.key)
      (long : stop ≤ (ledger table.key).data.length)
      (fits : region.length = stop - start)
      (change : ledger' = ledger.setData table.key ((ledger table.key).data.take start ++ region ++
        (ledger table.key).data.drop stop)) :
      Handled runtime context ledger ledger' instruction
  | addSeat {channelKey : PublicKey} {owner table seat : AccountInfo} {created : Ledger}
      (checked : SeatChecked runtime context ledger owner table seat)
      (creation : if (ledger seat.key).data = [] then
          Created seat.key context.user.key context.program.key SEAT_DATA_SIZE ledger created
        else created = ledger)
      (long : SEAT_DATA_SIZE ≤ (created seat.key).data.length)
      (change : ledger' = created.setData seat.key
        (channelKey.bytes ++ (created seat.key).data.drop SEAT_DATA_SIZE)) :
      Handled runtime context ledger ledger' (.AddSeat channelKey)
  | removeSeat {owner table seat : AccountInfo}
      (checked : SeatChecked runtime context ledger owner table seat)
      (change : ledger' =
        ledger.transfer seat.key context.user.key (ledger seat.key).lamports) :
      Handled runtime context ledger ledger' .RemoveSeat

theorem edited_of_editTable {context : Context} {instruction : RoundNetInstruction}
    {start stop : Nat} {edit : List UInt8 → Except Failure (List UInt8)} {ledger ledger' : Ledger}
    (edits : instruction.edited = some (start, stop))
    (keepsLength : ∀ array region, edit array = .ok region → region.length = array.length)
    (done : (editTable runtime context start stop edit).run ledger = .ok ((), ledger')) :
    Handled runtime context ledger ledger' instruction := by
  obtain ⟨table, listed, address, rewritten⟩ := editTable_ok.mp done
  obtain ⟨long, region, edited, rfl⟩ := editRegion_ok.mp rewritten
  refine .edited edits listed address long ?_ rfl
  rw [keepsLength _ _ edited, List.length_drop, List.length_take_of_le long]

theorem RoundNetInstruction.process_ok (documented : runtime.Documented) {context : Context}
    {instruction : RoundNetInstruction} {ledger ledger' : Ledger}
    (done : (instruction.process runtime context).run ledger = .ok ((), ledger')) :
    Handled runtime context ledger ledger' instruction := by
  cases instruction with
  | InitTable closed =>
    obtain ⟨table, created, listed, address, absent, creation, change⟩ :=
      initTable_ok documented done
    exact .initTable listed address absent creation change
  | DeleteTable =>
    obtain ⟨table, listed, address, -, change⟩ := deleteTable_ok done
    exact .deleteTable listed address change
  | AddBootstrap | AddChannelArgs =>
    exact edited_of_editTable rfl (fun _ _ => length_of_strBufAdd) done
  | RemoveBootstrap | RemoveChannelArgs =>
    exact edited_of_editTable rfl (fun _ _ => length_of_strBufRm) done
  | AddSeat channelKey =>
    obtain ⟨_, _, checking, seating⟩ := bind_ok.mp done
    obtain ⟨rfl, owner, table, checked⟩ := checkSeat_ok checking
    obtain ⟨_, created, creation, writing⟩ := bind_ok.mp seating
    obtain ⟨long, rfl⟩ := serializeInto_ok.mp writing
    rw [SeatData.length_serialize] at long ⊢
    exact .addSeat checked (createOwnedFundedSizedPda_ok documented creation) long rfl
  | RemoveSeat =>
    obtain ⟨_, _, checking, refunding⟩ := bind_ok.mp done
    obtain ⟨rfl, owner, table, checked⟩ := checkSeat_ok checking
    simp only [deletePda_run] at refunding
    obtain ⟨-, rfl⟩ := Prod.mk.inj (Except.ok.inj refunding)
    exact .removeSeat checked rfl

theorem processInstruction_run (programId : PublicKey) (user program : AccountInfo)
    (others : List AccountInfo) (input : List UInt8) (ledger : Ledger) :
    (processInstruction runtime programId (user :: program :: others) input).run ledger =
      if user.isSigner = false then .error (.error .Account0MustBeSigner)
      else if program.key ≠ programId then .error (.error .Account1MustBeProgramID)
      else match Borsh.tryFromSlice RoundNetInstruction.deserialize input with
        | none => .error (.error .FailedToDeserialiseInstruction)
        | some instruction => (instruction.process runtime ⟨user, program, others⟩).run ledger := by
  simp only [processInstruction]
  cases signed : user.isSigner <;> by_cases same : program.key = programId <;>
    cases Borsh.tryFromSlice RoundNetInstruction.deserialize input <;> simp [same]

theorem processInstruction_ran {programId : PublicKey} {accounts : List AccountInfo}
    {input : List UInt8} {ledger ledger' : Ledger}
    (done : (processInstruction runtime programId accounts input).run ledger = .ok ((), ledger')) :
    ∃ user program others instruction, accounts = user :: program :: others ∧
      user.isSigner = true ∧ program.key = programId ∧
      Borsh.tryFromSlice RoundNetInstruction.deserialize input = some instruction ∧
      (instruction.process runtime ⟨user, program, others⟩).run ledger = .ok ((), ledger') := by
  match accounts with
  | [] | [_] => cases done
  | user :: program :: others =>
    rw [processInstruction_run] at done
    split_ifs at done with unsigned other
    split at done
    next => cases done
    next instruction decoded =>
      exact ⟨user, program, others, instruction, rfl, by simpa using unsigned,
        not_not.mp other, decoded, done⟩

theorem processInstruction_ok (documented : runtime.Documented) {programId : PublicKey}
    {accounts : List AccountInfo} {input : List UInt8} {ledger ledger' : Ledger}
    (done : (processInstruction runtime programId accounts input).run ledger = .ok ((), ledger')) :
    ∃ user program others instruction, accounts = user :: program :: others ∧
      user.isSigner = true ∧ program.key = programId ∧
      Borsh.tryFromSlice RoundNetInstruction.deserialize input = some instruction ∧
      Handled runtime ⟨user, program, others⟩ ledger ledger' instruction := by
  obtain ⟨user, program, others, instruction, listed, signed, isProgram, decoded, done⟩ :=
    processInstruction_ran done
  exact ⟨user, program, others, instruction, listed, signed, isProgram, decoded,
    instruction.process_ok documented done⟩

end Handlers

end RoundTable.Contract
