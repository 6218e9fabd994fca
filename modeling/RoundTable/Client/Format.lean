import RoundTable.Client.Contract
import RoundTable.Contract.Creation

set_option autoImplicit false

namespace RoundTable.Client

open Contract Attempt

def AccountCheck : Failure → Prop
  | .error .MissingBaseAccounts | .error .Account0MustBeSigner | .error .Account1MustBeProgramID
  | .error .BadTableAccount | .error .BadSeatAccount | .panic .index => True
  | _ => False

section Passes

variable {runtime : Runtime}

abbrev Passes {α : Type} (program : Program α) : Prop :=
  FailsOnly (fun failure => ¬AccountCheck failure) program

theorem throw_passes {α : Type} {failure : Failure} (other : ¬AccountCheck failure) :
    Passes (throw failure : Program α) :=
  failsOnly_throw other

theorem invokeSigned_passes (instruction : SystemInstruction) (accounts : List AccountInfo)
    (seeds : List (List UInt8)) (caller : PublicKey) :
    Passes (invokeSigned runtime instruction accounts seeds caller) := by
  refine failsOnly_get.bind fun ledger => ?_
  split
  · exact (failsOnly_set _).bind fun _ => failsOnly_pure _
  · exact failsOnly_pure _

theorem unwrapped_passes {call : Program (Except Unit Unit)} (passes : Passes call) {panic : Panic}
    (other : ¬AccountCheck (.panic panic)) : Passes (unwrapped call panic) := by
  refine passes.bind fun result => ?_
  cases result with
  | ok => exact failsOnly_pure _
  | error => exact throw_passes other

theorem createOwnedFundedSizedPda_passes (newAccount programAccount payer : AccountInfo)
    (seed : List (List UInt8)) (space : Nat) (overwrite : Bool) :
    Passes (createOwnedFundedSizedPda runtime newAccount programAccount payer seed space
      overwrite) := by
  have assign : Passes (do
      unwrapped (invokeSigned runtime (.assign newAccount.key programAccount.key)
        [payer, newAccount] seed programAccount.key) .assign
      return (.ok () : Except Unit Unit)) :=
    (unwrapped_passes (invokeSigned_passes _ _ _ _) id).bind fun _ => failsOnly_pure _
  refine failsOnly_get.bind fun ledger => ?_
  split
  · refine (invokeSigned_passes _ _ _ _).bind fun _ => failsOnly_get.bind fun _ => ?_
    dsimp only
    split
    · exact (unwrapped_passes (invokeSigned_passes _ _ _ _) id).bind fun _ => assign
    · exact assign
  · exact failsOnly_pure _

theorem serializeInto_passes (account : AccountInfo) (bytes : List UInt8) :
    Passes (serializeInto account bytes) := by
  refine failsOnly_get.bind fun ledger => ?_
  dsimp only
  split
  · exact (throw_passes id).bind fun _ => failsOnly_modify _
  · exact failsOnly_modify _

theorem deletePda_passes (account refund : AccountInfo) : Passes (deletePda account refund) :=
  failsOnly_get.bind fun _ => (failsOnly_modify _).bind fun _ => failsOnly_modify _

theorem fromUtf8_passes {bytes : List UInt8} {failure : Failure}
    (failed : fromUtf8 bytes = .error failure) : ¬AccountCheck failure := by
  unfold fromUtf8 at failed
  split at failed
  · cases failed
  · obtain rfl := Except.error.inj failed
    exact id

theorem strBufAdd_passes {array sRaw : List UInt8} {failure : Failure}
    (failed : strBufAdd array sRaw = .error failure) : ¬AccountCheck failure := by
  obtain decoding | ⟨d, -, failed⟩ := bind_eq_error failed
  · exact fromUtf8_passes decoding
  · obtain decoding | ⟨s, -, failed⟩ := bind_eq_error failed
    · exact fromUtf8_passes decoding
    · dsimp only at failed
      split at failed
      · obtain rfl := Except.error.inj failed
        exact id
      · cases failed

theorem strBufRm_passes {array sRaw : List UInt8} {failure : Failure}
    (failed : strBufRm array sRaw = .error failure) : ¬AccountCheck failure := by
  obtain decoding | ⟨d, -, failed⟩ := bind_eq_error failed
  · exact fromUtf8_passes decoding
  · obtain decoding | ⟨s, -, failed⟩ := bind_eq_error failed
    · exact fromUtf8_passes decoding
    · dsimp only at failed
      split at failed
      · obtain rfl := Except.error.inj failed
        exact id
      · cases failed

theorem editRegion_passes (account : AccountInfo) (start stop : Nat)
    {edit : List UInt8 → Except Failure (List UInt8)}
    (passes : ∀ array failure, edit array = .error failure → ¬AccountCheck failure) :
    Passes (editRegion account start stop edit) := by
  refine failsOnly_get.bind fun ledger => ?_
  have rewrite : Passes (do
      let region ← edit (((ledger account.key).data.take stop).drop start)
      modify fun ledger' => ledger'.setData account.key
        ((ledger account.key).data.take start ++ region ++ (ledger account.key).data.drop stop)) :=
    (failsOnly_lift (passes _)).bind fun _ => failsOnly_modify _
  dsimp only
  split
  · exact (throw_passes id).bind fun _ => rewrite
  · exact rewrite

theorem initTable_passes {context : Context} {table : AccountInfo}
    (listed : context.others[0]? = some table)
    (address : table.key = tableAddress runtime context.program.key context.user.key)
    (closed : Bool) : Passes (initTable runtime context closed) := by
  intro ledger failure failed
  rw [initTable, run_bind_of_ok (Context.other_ok.mpr ⟨listed, rfl⟩),
    run_bind_of_ok (checkTableAccount_ok.mpr ⟨address, rfl, rfl⟩), run_get_bind] at failed
  split at failed
  · exact throw_passes id _ _ failed
  · exact (createOwnedFundedSizedPda_passes _ _ _ _ _ _).bind
      (fun _ => serializeInto_passes _ _) _ _ failed

theorem deleteTable_passes {context : Context} {table : AccountInfo}
    (listed : context.others[0]? = some table)
    (address : table.key = tableAddress runtime context.program.key context.user.key) :
    Passes (deleteTable runtime context) := by
  intro ledger failure failed
  rw [deleteTable, run_bind_of_ok (Context.other_ok.mpr ⟨listed, rfl⟩),
    run_bind_of_ok (checkTableAccount_ok.mpr ⟨address, rfl, rfl⟩), run_get_bind] at failed
  split at failed
  · exact throw_passes id _ _ failed
  · exact deletePda_passes _ _ _ _ failed

theorem editTable_passes {context : Context} {table : AccountInfo}
    (listed : context.others[0]? = some table)
    (address : table.key = tableAddress runtime context.program.key context.user.key)
    (start stop : Nat) {edit : List UInt8 → Except Failure (List UInt8)}
    (passes : ∀ array failure, edit array = .error failure → ¬AccountCheck failure) :
    Passes (editTable runtime context start stop edit) := by
  intro ledger failure failed
  rw [editTable_run listed address] at failed
  exact editRegion_passes _ _ _ passes _ _ failed

theorem checkSeat_passes {context : Context} {owner table seat : AccountInfo}
    (ownerListed : context.others[0]? = some owner) (tableListed : context.others[1]? = some table)
    (seatListed : context.others[2]? = some seat)
    (tableKey : table.key = tableAddress runtime context.program.key owner.key)
    (seatKey : seat.key = seatAddress runtime context.program.key owner.key context.user.key) :
    Passes (checkSeat runtime context) := by
  intro ledger failure failed
  have seatKey : seat.key =
      (deriveSeatSeed runtime table.key context.user.key context.program.key).2 := by
    rw [seatKey, tableKey]
    rfl
  rw [checkSeat, run_bind_of_ok (Context.other_ok.mpr ⟨ownerListed, rfl⟩),
    run_bind_of_ok (Context.other_ok.mpr ⟨tableListed, rfl⟩),
    run_bind_of_ok (checkTableAccount_ok.mpr ⟨tableKey, rfl, rfl⟩),
    run_bind_of_ok (Context.other_ok.mpr ⟨seatListed, rfl⟩),
    run_bind_of_ok (checkSeatAccount_ok.mpr ⟨seatKey, rfl, rfl⟩), run_get_bind] at failed
  split at failed
  · exact throw_passes id _ _ failed
  · dsimp only at failed
    split at failed
    · exact (throw_passes id).bind (fun _ => failsOnly_pure _) _ _ failed
    · cases failed

end Passes

section Format

variable {runtime : Runtime}

/-- The program reads the instruction as the variant, and the accounts pass its checks whatever the
other signatures are. -/
structure Builds (runtime : Runtime) (ix : TransactionInstruction)
    (instruction : RoundNetInstruction) : Prop where
  programId : ix.programId = PROGRAM_ID
  format : Borsh.tryFromSlice RoundNetInstruction.deserialize ix.data = some instruction
  accounts : ∀ accounts : List AccountInfo, accounts.map AccountInfo.key = ix.keys.map AccountInfo.key →
    (∀ first, accounts[0]? = some first → first.isSigner = true) →
      ∀ ledger failure, (processInstruction runtime PROGRAM_ID accounts ix.data).run ledger =
        .error failure → ¬AccountCheck failure

theorem builds_of_passes {ix : TransactionInstruction} {instruction : RoundNetInstruction}
    (user : PublicKey) {others : List PublicKey} (programId : ix.programId = PROGRAM_ID)
    (data : ix.data = instruction.serialize)
    (keys : ix.keys.map AccountInfo.key = user :: PROGRAM_ID :: others)
    (passes : ∀ context : Context, context.user.key = user → context.program.key = PROGRAM_ID →
      context.others.map AccountInfo.key = others → Passes (instruction.process runtime context)) :
    Builds runtime ix instruction := by
  refine ⟨programId, by rw [data, RoundNetInstruction.tryFromSlice_serialize], ?_⟩
  intro accounts listed signs ledger failure failed
  rw [keys] at listed
  obtain ⟨first, rest, rfl, isUser, listed⟩ := List.map_eq_cons_iff.mp listed
  obtain ⟨program, others', rfl, isProgram, listed⟩ := List.map_eq_cons_iff.mp listed
  rw [processInstruction_run, signs first rfl, data,
    RoundNetInstruction.tryFromSlice_serialize] at failed
  simp only [Bool.true_eq_false, if_false, isProgram, ne_eq, not_true_eq_false] at failed
  exact passes ⟨first, program, others'⟩ isUser isProgram listed ledger failure failed

theorem builds_on_table {ix : TransactionInstruction} {instruction : RoundNetInstruction}
    {user : PublicKey} (programId : ix.programId = PROGRAM_ID)
    (data : ix.data = instruction.serialize) (keys : ix.keys = tableKeys runtime user)
    (passes : ∀ (context : Context) (table : AccountInfo), context.others[0]? = some table →
      table.key = tableAddress runtime context.program.key context.user.key →
        Passes (instruction.process runtime context)) :
    Builds runtime ix instruction := by
  refine builds_of_passes user programId data (by rw [keys]; rfl) ?_
  intro context isUser isProgram listed
  obtain ⟨table, rest, others, isTable, -⟩ := List.map_eq_cons_iff.mp listed
  refine passes context table (by rw [others]; rfl) ?_
  rw [isTable, isUser, isProgram]
  rfl

theorem builds_on_seat {ix : TransactionInstruction} {instruction : RoundNetInstruction}
    {user tableOwner : PublicKey} (programId : ix.programId = PROGRAM_ID)
    (data : ix.data = instruction.serialize) (keys : ix.keys = seatKeys runtime user tableOwner)
    (passes : ∀ context : Context, Passes (checkSeat runtime context) →
      Passes (instruction.process runtime context)) :
    Builds runtime ix instruction := by
  refine builds_of_passes user programId data (by rw [keys]; rfl) ?_
  intro context isUser isProgram listed
  obtain ⟨owner, rest, others, isOwner, listed⟩ := List.map_eq_cons_iff.mp listed
  obtain ⟨table, rest, rfl, isTable, listed⟩ := List.map_eq_cons_iff.mp listed
  obtain ⟨seat, rest, rfl, isSeat, -⟩ := List.map_eq_cons_iff.mp listed
  apply passes
  have ownerListed : context.others[0]? = some owner := by rw [others]; rfl
  have tableListed : context.others[1]? = some table := by rw [others]; rfl
  have seatListed : context.others[2]? = some seat := by rw [others]; rfl
  apply checkSeat_passes ownerListed tableListed seatListed
  · rw [isTable, isOwner, isProgram]; rfl
  · rw [isSeat, isOwner, isUser, isProgram]; rfl

theorem makeInitTableIx_builds (user : PublicKey) (closed : Bool) :
    Builds runtime (makeInitTableIx runtime user closed) (.InitTable closed) :=
  builds_on_table rfl rfl rfl fun _ _ listed address => initTable_passes listed address closed

theorem makeDeleteTableIx_builds (user : PublicKey) (closed : Bool) :
    Builds runtime (makeDeleteTableIx runtime user closed) .DeleteTable :=
  builds_on_table rfl rfl rfl fun _ _ listed address => deleteTable_passes listed address

theorem makeNameIx_builds (tag : RoundTableInstructions) (user : PublicKey) {name : List Char}
    (short : (Utf8.encode name).length ≤ 128) {instruction : RoundNetInstruction}
    (data : tag.tag :: (padded name short).toList = instruction.serialize)
    (passes : ∀ (context : Context) (table : AccountInfo), context.others[0]? = some table →
      table.key = tableAddress runtime context.program.key context.user.key →
        Passes (instruction.process runtime context)) :
    ∃ ix, makeNameIx runtime tag user name = some ix ∧ Builds runtime ix instruction := by
  refine ⟨⟨tag.tag :: (padded name short).toList, tableKeys runtime user, PROGRAM_ID⟩, ?_,
    builds_on_table rfl data rfl passes⟩
  simp [makeNameIx, argBuffer, short, padded]

theorem makeAddSeatIx_builds (user tableOwner channelPubkey : PublicKey) :
    Builds runtime (makeAddSeatIx runtime user tableOwner channelPubkey) (.AddSeat channelPubkey) :=
  builds_on_seat rfl rfl rfl fun _ passes => passes.bind fun _ =>
    (createOwnedFundedSizedPda_passes _ _ _ _ _ _).bind fun _ => serializeInto_passes _ _

theorem makeRemoveSeatIx_builds (user tableOwner : PublicKey) :
    Builds runtime (makeRemoveSeatIx runtime user tableOwner) .RemoveSeat :=
  builds_on_seat rfl rfl rfl fun _ passes => passes.bind fun _ => deletePda_passes _ _

-- The program trims the argument back to the name unless the name itself starts or ends with
-- NUL.
theorem trimmed_padded_iff {name : List Char} (short : (Utf8.encode name).length ≤ 128) :
    (fromUtf8 (padded name short).toList).map trimNuls = .ok name ↔
      name.head? ≠ some Utf8.nul ∧ name.getLast? ≠ some Utf8.nul := by
  rw [padded_toList, fromUtf8_encode, ← trimNuls_eq_self_iff, Except.map, trimNuls_append_nuls]
  simp

section AddSeat

variable {user tableOwner channelPubkey : PublicKey} {ledger ledger' later : Ledger}

theorem getSeatData_purge {rest : List UInt8}
    (written : (later (seatAddress runtime PROGRAM_ID tableOwner user)).data =
      channelPubkey.bytes ++ rest) :
    getSeatData runtime later.purge tableOwner user = .ok (some ⟨channelPubkey.bytes⟩) ↔
      0 < (later (seatAddress runtime PROGRAM_ID tableOwner user)).lamports := by
  have address : (getSeatAddress runtime (getTableAddress runtime tableOwner PROGRAM_ID).1 user
      PROGRAM_ID).1 = seatAddress runtime PROGRAM_ID tableOwner user := rfl
  have read : seatDeserialize (channelPubkey.bytes ++ rest) = .ok ⟨channelPubkey.bytes⟩ := by
    simp [seatDeserialize, readFixed, channelPubkey.length_eq]
  by_cases poor : (later (seatAddress runtime PROGRAM_ID tableOwner user)).lamports = 0
  · have purged : later.purge (seatAddress runtime PROGRAM_ID tableOwner user) = .absent :=
      if_pos poor
    simp [getSeatData, getAccountInfo, address, purged, Account.absent, poor]
  · have stays : later.purge (seatAddress runtime PROGRAM_ID tableOwner user) =
        later (seatAddress runtime PROGRAM_ID tableOwner user) := if_neg poor
    simp [getSeatData, getAccountInfo, address, stays, poor, written, read, Nat.pos_of_ne_zero]

variable (documented : runtime.Documented) {accounts : List AccountInfo}
  (listed : accounts.map AccountInfo.key =
    (makeAddSeatIx runtime user tableOwner channelPubkey).keys.map AccountInfo.key)
  (done : (processInstruction runtime PROGRAM_ID accounts
    (makeAddSeatIx runtime user tableOwner channelPubkey).data).run ledger = .ok ((), ledger'))

include documented listed done

-- The program pays for the seat only where it creates the account.
theorem addSeat_account : ∃ rest,
    (ledger' (seatAddress runtime PROGRAM_ID tableOwner user)).data =
        channelPubkey.bytes ++ rest ∧
      (0 < (ledger' (seatAddress runtime PROGRAM_ID tableOwner user)).lamports ↔
        (ledger (seatAddress runtime PROGRAM_ID tableOwner user)).data = [] ∨
          0 < (ledger (seatAddress runtime PROGRAM_ID tableOwner user)).lamports) := by
  obtain ⟨first, program, others, instruction, rfl, signed, isProgram, decoded, handled⟩ :=
    processInstruction_ok documented done
  obtain rfl : .AddSeat channelPubkey = instruction := Option.some.inj
    ((RoundNetInstruction.tryFromSlice_serialize (.AddSeat channelPubkey)).symm.trans decoded)
  cases handled with
  | edited edits => cases edits
  | @addSeat _ owner table seat created checked creation long change =>
    have isSeat : seat.key = seatAddress runtime PROGRAM_ID tableOwner user := by
      obtain ⟨isUser, rest⟩ := List.cons.inj listed
      obtain ⟨-, rest⟩ := List.cons.inj rest
      have isOwner : owner.key = tableOwner := by
        have found := congrArg (fun keys : List PublicKey => keys[0]?) rest
        simpa [checked.ownerListed] using found
      rw [checked.seatKey, isProgram, isOwner, isUser]
    rw [← isSeat, change]
    refine ⟨(created seat.key).data.drop SEAT_DATA_SIZE, Ledger.setData_data .., ?_⟩
    rw [Ledger.setData_lamports]
    split_ifs at creation with absent
    · simp [absent, creation.funded]
    · simp [absent, creation]

/-- A client reads the seat that an `AddSeat` has written unless the account was drained before. -/
theorem getSeatData_of_addSeat_iff
    (kept : later (seatAddress runtime PROGRAM_ID tableOwner user) =
      ledger' (seatAddress runtime PROGRAM_ID tableOwner user)) :
    getSeatData runtime later.purge tableOwner user = .ok (some ⟨channelPubkey.bytes⟩) ↔
      (ledger (seatAddress runtime PROGRAM_ID tableOwner user)).data = [] ∨
        0 < (ledger (seatAddress runtime PROGRAM_ID tableOwner user)).lamports := by
  obtain ⟨rest, written, funded⟩ := addSeat_account documented listed done
  rw [← kept] at written funded
  rw [getSeatData_purge written, funded]

end AddSeat

/-- The client and the program agree on every instruction. -/
structure FormatAgrees (runtime : Runtime) : Prop where
  initTable : ∀ user closed,
    Builds runtime (makeInitTableIx runtime user closed) (.InitTable closed)
  deleteTable : ∀ user closed, Builds runtime (makeDeleteTableIx runtime user closed) .DeleteTable
  addBootstrap : ∀ user name (short : (Utf8.encode name).length ≤ 128),
    ∃ ix, makeAddBoostrapIx runtime user name = some ix ∧
      Builds runtime ix (.AddBootstrap (padded name short))
  removeBootstrap : ∀ user name (short : (Utf8.encode name).length ≤ 128),
    ∃ ix, makeDeleteBoostrapIx runtime user name = some ix ∧
      Builds runtime ix (.RemoveBootstrap (padded name short))
  addChannel : ∀ user name (short : (Utf8.encode name).length ≤ 128),
    ∃ ix, makeAddChannelIx runtime user name = some ix ∧
      Builds runtime ix (.AddChannelArgs (padded name short))
  removeChannel : ∀ user name (short : (Utf8.encode name).length ≤ 128),
    ∃ ix, makeDeleteChannelIx runtime user name = some ix ∧
      Builds runtime ix (.RemoveChannelArgs (padded name short))
  addSeat : ∀ user tableOwner channelPubkey,
    Builds runtime (makeAddSeatIx runtime user tableOwner channelPubkey) (.AddSeat channelPubkey)
  removeSeat : ∀ user tableOwner,
    Builds runtime (makeRemoveSeatIx runtime user tableOwner) .RemoveSeat
  trimmed : ∀ name (short : (Utf8.encode name).length ≤ 128),
    (fromUtf8 (padded name short).toList).map trimNuls = .ok name ↔
      name.head? ≠ some Utf8.nul ∧ name.getLast? ≠ some Utf8.nul
  seat : ∀ user tableOwner channelPubkey (accounts : List AccountInfo) (ledger ledger' later : Ledger),
    accounts.map AccountInfo.key =
        (makeAddSeatIx runtime user tableOwner channelPubkey).keys.map AccountInfo.key →
      (processInstruction runtime PROGRAM_ID accounts
        (makeAddSeatIx runtime user tableOwner channelPubkey).data).run ledger = .ok ((), ledger') →
      later (seatAddress runtime PROGRAM_ID tableOwner user) =
        ledger' (seatAddress runtime PROGRAM_ID tableOwner user) →
      (getSeatData runtime later.purge tableOwner user = .ok (some ⟨channelPubkey.bytes⟩) ↔
        (ledger (seatAddress runtime PROGRAM_ID tableOwner user)).data = [] ∨
          0 < (ledger (seatAddress runtime PROGRAM_ID tableOwner user)).lamports)

theorem client_format_agrees (documented : runtime.Documented) : FormatAgrees runtime where
  initTable := makeInitTableIx_builds
  deleteTable := makeDeleteTableIx_builds
  addBootstrap user _ short := makeNameIx_builds _ user short rfl fun _ _ listed address =>
    editTable_passes listed address _ _ fun _ _ => strBufAdd_passes
  removeBootstrap user _ short := makeNameIx_builds _ user short rfl fun _ _ listed address =>
    editTable_passes listed address _ _ fun _ _ => strBufRm_passes
  addChannel user _ short := makeNameIx_builds _ user short rfl fun _ _ listed address =>
    editTable_passes listed address _ _ fun _ _ => strBufAdd_passes
  removeChannel user _ short := makeNameIx_builds _ user short rfl fun _ _ listed address =>
    editTable_passes listed address _ _ fun _ _ => strBufRm_passes
  addSeat := makeAddSeatIx_builds
  removeSeat := makeRemoveSeatIx_builds
  trimmed _ short := trimmed_padded_iff short
  seat _ _ _ _ _ _ _ listed done kept := getSeatData_of_addSeat_iff documented listed done kept

section Sample

def Sample.leaves : TransactionInstruction :=
  makeRemoveSeatIx Contract.Sample.runtime Contract.Sample.user Contract.Sample.owner

def Sample.sits : TransactionInstruction :=
  makeAddSeatIx Contract.Sample.runtime Contract.Sample.user Contract.Sample.owner
    Contract.Sample.user

def Sample.submit (ix : TransactionInstruction) (ledger : Ledger) :
    Except Failure (Unit × Ledger) :=
  (processInstruction Contract.Sample.runtime PROGRAM_ID ix.keys ix.data).run ledger

theorem seat_not_read : ∃ middle ledger',
    Sample.submit Sample.leaves
      ((chain Contract.Sample.runtime PROGRAM_ID).run Contract.Sample.funded
        Contract.Sample.seated).1 = .ok ((), middle) ∧
      Sample.submit Sample.sits middle = .ok ((), ledger') ∧
      getSeatData Contract.Sample.runtime ledger'.purge Contract.Sample.owner Contract.Sample.user =
        .ok none := by
  have runs : ((Sample.submit Sample.leaves
      ((chain Contract.Sample.runtime PROGRAM_ID).run Contract.Sample.funded
        Contract.Sample.seated).1).toOption.bind fun middle =>
      (Sample.submit Sample.sits middle.2).toOption.map fun done =>
        (getSeatData Contract.Sample.runtime done.2.purge Contract.Sample.owner
          Contract.Sample.user).toOption) = some (some none) := by decide +kernel
  obtain ⟨⟨⟨⟩, middle⟩, leaves, rest⟩ := Option.bind_eq_some_iff.mp runs
  obtain ⟨⟨⟨⟩, ledger'⟩, sits, unread⟩ := Option.map_eq_some_iff.mp rest
  exact ⟨middle, ledger', toOption_eq_some.mp leaves, toOption_eq_some.mp sits,
    toOption_eq_some.mp unread⟩

theorem client_format_agrees_reads : ∃ middle ledger',
    Sample.submit Sample.leaves
      ((chain Contract.Sample.runtime PROGRAM_ID).run Contract.Sample.funded
        Contract.Sample.seated).1 = .ok ((), middle) ∧
      Sample.submit Sample.sits middle.purge = .ok ((), ledger') ∧
      (getSeatData Contract.Sample.runtime ledger'.purge Contract.Sample.owner
          Contract.Sample.user = .ok (some ⟨Contract.Sample.user.bytes⟩) ↔
        (middle.purge Contract.Sample.seat).data = [] ∨
          0 < (middle.purge Contract.Sample.seat).lamports) := by
  have runs : ((Sample.submit Sample.leaves
      ((chain Contract.Sample.runtime PROGRAM_ID).run Contract.Sample.funded
        Contract.Sample.seated).1).toOption.bind fun middle =>
      (Sample.submit Sample.sits middle.2.purge).toOption).isSome = true := by decide +kernel
  obtain ⟨⟨⟨⟩, ledger'⟩, both⟩ := Option.isSome_iff_exists.mp runs
  obtain ⟨⟨⟨⟩, middle⟩, leaves, sits⟩ := Option.bind_eq_some_iff.mp both
  have done := toOption_eq_some.mp sits
  exact ⟨middle, ledger', toOption_eq_some.mp leaves, done,
    (client_format_agrees Contract.Sample.runtime_documented).seat Contract.Sample.user
      Contract.Sample.owner Contract.Sample.user _ _ _ _ rfl done rfl⟩

end Sample

end Format

end RoundTable.Client
