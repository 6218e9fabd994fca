import RoundTable.Contract.Deposits
import RoundTable.Contract.Replay

set_option autoImplicit false

namespace RoundTable.Contract

/-- The system instructions succeed where the system program promises it, and the bump signs for the
address that was derived with it. -/
structure Runtime.Serves (runtime : Runtime) : Prop where
  allocate : ∀ account space signed ledger, signed account = true → space ≤ 10240 →
    (ledger account).owner = systemProgramId → (ledger account).data = [] →
      runtime.system (.allocate account space) signed ledger =
        some (ledger.setData account (List.replicate space 0))
  transfer : ∀ source destination lamports signed ledger, signed source = true →
    (ledger source).owner = systemProgramId → (ledger source).data = [] →
      lamports ≤ (ledger source).lamports →
        runtime.system (.transfer source destination lamports) signed ledger =
          some (ledger.transfer source destination lamports)
  assign : ∀ account owner signed ledger, signed account = true →
    (ledger account).owner = systemProgramId → (∀ byte ∈ (ledger account).data, byte = 0) →
      runtime.system (.assign account owner) signed ledger = some (ledger.setOwner account owner)
  bump : ∀ seeds programId, runtime.createProgramAddress
    (seeds ++ [[(runtime.findProgramAddress seeds programId).2]]) programId =
      some (runtime.findProgramAddress seeds programId).1

/-- An account without data at a derived address, and a wallet that pays for it. -/
structure Creatable (runtime : Runtime) (newAccount programAccount payer : AccountInfo)
    (seeds : List (List UInt8)) (ledger : Ledger) : Prop where
  derived : newAccount.key = (runtime.findProgramAddress seeds programAccount.key).1
  other : newAccount.key ≠ payer.key
  signed : payer.isSigner = true
  absent : (ledger newAccount.key).data = []
  unclaimed : (ledger newAccount.key).owner = systemProgramId
  walletOwner : (ledger payer.key).owner = systemProgramId
  walletData : (ledger payer.key).data = []

def Affords (runtime : Runtime) (space : Nat) (payer account : PublicKey) (ledger : Ledger) : Prop :=
  runtime.rentDue space - (ledger account).lamports ≤ (ledger payer).lamports

instance (runtime : Runtime) (space : Nat) (payer account : PublicKey) (ledger : Ledger) :
    Decidable (Affords runtime space payer account ledger) :=
  inferInstanceAs (Decidable (_ ≤ _))

section Creation

open Attempt

variable {runtime : Runtime} {newAccount programAccount payer : AccountInfo}
  {seeds : List (List UInt8)} {space : Nat} {ledger : Ledger}

theorem invokeSigned_run (accounts : List AccountInfo) (seeds : List (List UInt8))
    (caller : PublicKey) {instruction : SystemInstruction} {ledger' : Ledger}
    (called : ∀ signed : PublicKey → Bool,
      (∀ account ∈ accounts, account.isSigner = true → signed account.key = true) →
      (∀ key, runtime.createProgramAddress seeds caller = some key → signed key = true) →
        runtime.system instruction signed ledger = some ledger') :
    (invokeSigned runtime instruction accounts seeds caller).run ledger = .ok (.ok (), ledger') := by
  have succeeds := called
    (fun key => accounts.any (fun account => account.key = key && account.isSigner) ||
      decide (runtime.createProgramAddress seeds caller = some key))
    (fun account member isSigner => by
      simp only [Bool.or_eq_true, List.any_eq_true]
      exact .inl ⟨account, member, by simp [isSigner]⟩)
    (fun key derived => by simp [derived])
  simp only [invokeSigned, run_get_bind, succeeds]
  rfl

theorem unwrapped_run {call : Program (Except Unit Unit)} {ledger' : Ledger} (panic : Panic)
    (done : call.run ledger = .ok (.ok (), ledger')) :
    (unwrapped call panic).run ledger = .ok ((), ledger') := by
  rw [unwrapped, run_bind_of_ok done]
  rfl

theorem Creatable.succeeds (serves : runtime.Serves) (small : space ≤ 10240)
    (creatable : Creatable runtime newAccount programAccount payer seeds ledger)
    (affords : Affords runtime space payer.key newAccount.key ledger) :
    ∃ created, (createOwnedFundedSizedPda runtime newAccount programAccount payer
        (seeds ++ [[(runtime.findProgramAddress seeds programAccount.key).2]]) space false).run
          ledger = .ok (.ok (), created) ∧
      (created newAccount.key).data = List.replicate space 0 := by
  let accounts := [payer, newAccount]
  let signing := seeds ++ [[(runtime.findProgramAddress seeds programAccount.key).2]]
  have bySeeds {signed : PublicKey → Bool} (derived : ∀ key,
      runtime.createProgramAddress signing programAccount.key = some key → signed key = true) :
      signed newAccount.key = true := by
    apply derived
    rw [serves.bump, creatable.derived]
  have byPayer {signed : PublicKey → Bool} (listed : ∀ account ∈ accounts,
      account.isSigner = true → signed account.key = true) : signed payer.key = true :=
    listed payer (by simp [accounts]) creatable.signed
  have allocates := invokeSigned_run accounts signing programAccount.key
    fun signed listed derived => serves.allocate newAccount.key space signed ledger
      (bySeeds derived) small creatable.unclaimed creatable.absent
  have transfers := unwrapped_run .transfer <| invokeSigned_run accounts signing programAccount.key
    fun signed listed derived => serves.transfer payer.key newAccount.key
      (runtime.rentDue space - (ledger newAccount.key).lamports) signed
      (ledger.setData newAccount.key (List.replicate space 0)) (byPayer listed)
      (by simpa using creatable.walletOwner)
      (by rw [Ledger.setData_ne (Ne.symm creatable.other), creatable.walletData])
      (by rw [Ledger.setData_lamports]; exact affords)
  have assigns (funded : Ledger) (unclaimed : (funded newAccount.key).owner = systemProgramId)
      (zeros : (funded newAccount.key).data = List.replicate space 0) :=
    unwrapped_run .assign <| invokeSigned_run accounts signing programAccount.key
      fun signed listed derived => serves.assign newAccount.key programAccount.key signed funded
        (bySeeds derived) unclaimed fun byte member => List.eq_of_mem_replicate (zeros ▸ member)
  simp only [createOwnedFundedSizedPda, run_get_bind, Bool.or_false, List.isEmpty_iff]
  rw [if_pos creatable.absent, run_bind_of_ok allocates, run_get_bind, Ledger.setData_lamports]
  split_ifs with poor
  · rw [run_bind_of_ok transfers, run_bind_of_ok (assigns _ (by simpa using creatable.unclaimed)
      (by simp))]
    exact ⟨_, rfl, by simp⟩
  · rw [run_bind_of_ok (assigns _ (by simpa using creatable.unclaimed) (by simp))]
    exact ⟨_, rfl, by simp⟩

theorem invokeSigned_ends (runtime : Runtime) (instruction : SystemInstruction)
    (accounts : List AccountInfo) (seeds : List (List UInt8)) (caller : PublicKey)
    (ledger : Ledger) :
    ∃ result ledger', (invokeSigned runtime instruction accounts seeds caller).run ledger =
      .ok (result, ledger') := by
  simp only [invokeSigned, run_get_bind]
  split
  · exact ⟨_, _, rfl⟩
  · exact ⟨_, _, rfl⟩

theorem createOwnedFundedSizedPda_unpaid (documented : runtime.Documented)
    (absent : (ledger newAccount.key).data = [])
    (unpaid : ¬Affords runtime space payer.key newAccount.key ledger) :
    (createOwnedFundedSizedPda runtime newAccount programAccount payer seeds space false).run
      ledger = .error (.panic .transfer) := by
  simp only [createOwnedFundedSizedPda, run_get_bind, Bool.or_false, List.isEmpty_iff]
  obtain ⟨result, allocated, allocation⟩ := invokeSigned_ends runtime
    (.allocate newAccount.key space) [payer, newAccount] seeds programAccount.key ledger
  rw [if_pos absent, run_bind_of_ok allocation, run_get_bind]
  obtain ⟨data, -, rfl⟩ := documented.allocated absent allocation
  have poor : (ledger newAccount.key).lamports < runtime.rentDue space := by
    by_contra rich
    exact unpaid (by rw [Affords]; omega)
  rw [Ledger.setData_lamports, if_pos poor]
  obtain ⟨paid, funded, payment⟩ := invokeSigned_ends runtime
    (.transfer payer.key newAccount.key (runtime.rentDue space - (ledger newAccount.key).lamports))
    [payer, newAccount] seeds programAccount.key (ledger.setData newAccount.key data)
  obtain ⟨rfl, rfl⟩ | ⟨-, signed, called⟩ := invokeSigned_ok payment
  · apply run_bind_of_error
    rw [unwrapped, run_bind_of_ok payment]
    rfl
  · have enough := (documented.transfer _ _ _ _ _ _ called).2.1
    rw [Ledger.setData_lamports] at enough
    exact absurd enough unpaid

end Creation

section Handlers

open Attempt

variable {runtime : Runtime} {context : Context} {account : AccountInfo} {ledger ledger' : Ledger}

theorem initTable_succeeds (serves : runtime.Serves) {closed : Bool}
    (listed : context.others[0]? = some account)
    (creatable : Creatable runtime account context.program context.user [context.user.key.bytes]
      ledger) (affords : Affords runtime TABLE_DATA_SIZE context.user.key account.key ledger) :
    ∃ ledger', (initTable runtime context closed).run ledger = .ok ((), ledger') := by
  obtain ⟨created, creation, zeros⟩ := creatable.succeeds serves (by decide) affords
  have long : (TableData.new closed).serialize.length ≤ (created account.key).data.length := by
    rw [zeros, TableData.length_serialize, List.length_replicate]
  rw [initTable, run_bind_of_ok (Context.other_ok.mpr ⟨listed, rfl⟩),
    run_bind_of_ok (checkTableAccount_ok.mpr ⟨creatable.derived, rfl, rfl⟩), run_get_bind]
  simp only [creatable.absent, List.length_nil, gt_iff_lt, lt_irrefl, if_false]
  exact ⟨_, bind_ok.mpr ⟨_, _, creation, serializeInto_ok.mpr ⟨long, rfl⟩⟩⟩

theorem initTable_refused {closed : Bool} (listed : context.others[0]? = some account)
    (address : account.key = tableAddress runtime context.program.key context.user.key)
    (present : (ledger account.key).data ≠ []) :
    (initTable runtime context closed).run ledger = .error (.error .Error) := by
  rw [initTable, run_bind_of_ok (Context.other_ok.mpr ⟨listed, rfl⟩),
    run_bind_of_ok (checkTableAccount_ok.mpr ⟨address, rfl, rfl⟩), run_get_bind]
  simp only [gt_iff_lt, List.length_pos_iff, ne_eq, present, not_false_eq_true, if_true]
  rfl

theorem initTable_unpaid (documented : runtime.Documented) {closed : Bool}
    (listed : context.others[0]? = some account)
    (address : account.key = tableAddress runtime context.program.key context.user.key)
    (absent : (ledger account.key).data = [])
    (unpaid : ¬Affords runtime TABLE_DATA_SIZE context.user.key account.key ledger) :
    (initTable runtime context closed).run ledger = .error (.panic .transfer) := by
  rw [initTable, run_bind_of_ok (Context.other_ok.mpr ⟨listed, rfl⟩),
    run_bind_of_ok (checkTableAccount_ok.mpr ⟨address, rfl, rfl⟩), run_get_bind]
  simp only [absent, List.length_nil, gt_iff_lt, lt_irrefl, if_false]
  exact run_bind_of_error (createOwnedFundedSizedPda_unpaid documented absent unpaid) _

theorem deleteTable_succeeds (listed : context.others[0]? = some account)
    (address : account.key = tableAddress runtime context.program.key context.user.key)
    (present : (ledger account.key).data ≠ []) :
    ∃ ledger', (deleteTable runtime context).run ledger = .ok ((), ledger') := by
  rw [deleteTable, run_bind_of_ok (Context.other_ok.mpr ⟨listed, rfl⟩),
    run_bind_of_ok (checkTableAccount_ok.mpr ⟨address, rfl, rfl⟩), run_get_bind]
  simp only [List.length_eq_zero_iff, present, if_false]
  exact ⟨_, deletePda_run account context.user ledger⟩

theorem deleteTable_refused (listed : context.others[0]? = some account)
    (address : account.key = tableAddress runtime context.program.key context.user.key)
    (absent : (ledger account.key).data = []) :
    (deleteTable runtime context).run ledger = .error (.error .Error) := by
  rw [deleteTable, run_bind_of_ok (Context.other_ok.mpr ⟨listed, rfl⟩),
    run_bind_of_ok (checkTableAccount_ok.mpr ⟨address, rfl, rfl⟩), run_get_bind]
  simp only [absent, List.length_nil, if_true]
  rfl

-- An edit of a table that does not exist panics as it takes the region.
theorem process_edit_missing {instruction : RoundNetInstruction}
    (edits : instruction.edited.isSome) (listed : context.others[0]? = some account)
    (address : account.key = tableAddress runtime context.program.key context.user.key)
    (absent : (ledger account.key).data = []) :
    (instruction.process runtime context).run ledger = .error (.panic .range) := by
  have missing (start stop : Nat) (edit : List UInt8 → Except Failure (List UInt8))
      (long : 0 < stop) :
      (editTable runtime context start stop edit).run ledger = .error (.panic .range) := by
    rw [editTable_run listed address, editRegion, run_get_bind]
    simp only [absent, List.length_nil, long, if_true]
    rfl
  cases instruction with
  | AddBootstrap | RemoveBootstrap | AddChannelArgs | RemoveChannelArgs =>
    exact missing _ _ _ (by decide)
  | _ => cases edits

variable {owner table seat : AccountInfo}

theorem removeSeat_succeeds (checked : SeatChecked runtime context ledger owner table seat) :
    ∃ ledger', (removeSeat runtime context).run ledger = .ok ((), ledger') := by
  obtain ⟨seed, done⟩ := SeatCall.checkSeat_run checked
  exact ⟨_, bind_ok.mpr ⟨_, _, done, deletePda_run seat context.user ledger⟩⟩

theorem addSeat_rewrites (checked : SeatChecked runtime context ledger owner table seat)
    {channelKey : PublicKey} (present : (ledger seat.key).data ≠ [])
    (long : SEAT_DATA_SIZE ≤ (ledger seat.key).data.length) :
    ∃ ledger', (addSeat runtime context channelKey).run ledger = .ok ((), ledger') := by
  obtain ⟨seed, done⟩ := SeatCall.checkSeat_run checked
  have refused : (createOwnedFundedSizedPda runtime seat context.program context.user seed
      SEAT_DATA_SIZE false).run ledger = .ok (.error (), ledger) := by
    simp only [createOwnedFundedSizedPda, run_get_bind, Bool.or_false, List.isEmpty_iff]
    rw [if_neg present]
    rfl
  exact ⟨_, bind_ok.mpr ⟨_, _, done, bind_ok.mpr ⟨_, _, refused, serializeInto_ok.mpr
    ⟨by rwa [SeatData.length_serialize], rfl⟩⟩⟩⟩

theorem checkSeat_seed {checked : AccountInfo × List (List UInt8)}
    (tableListed : context.others[1]? = some table)
    (done : (checkSeat runtime context).run ledger = .ok (checked, ledger')) :
    checked.2 = (deriveSeatSeed runtime table.key context.user.key context.program.key).1 := by
  obtain ⟨owner, _, found, done⟩ := bind_ok.mp done
  obtain ⟨-, rfl⟩ := Context.other_ok.mp found
  obtain ⟨table', _, found, done⟩ := bind_ok.mp done
  obtain ⟨tableListed', rfl⟩ := Context.other_ok.mp found
  obtain rfl := Option.some.inj (tableListed.symm.trans tableListed')
  obtain ⟨_, _, tableChecked, done⟩ := bind_ok.mp done
  obtain ⟨-, rfl, rfl⟩ := checkTableAccount_ok.mp tableChecked
  obtain ⟨seat, _, found, done⟩ := bind_ok.mp done
  obtain ⟨-, rfl⟩ := Context.other_ok.mp found
  obtain ⟨_, _, seatChecked, done⟩ := bind_ok.mp done
  obtain ⟨-, rfl, rfl⟩ := checkSeatAccount_ok.mp seatChecked
  rw [run_get_bind] at done
  split at done
  next => cases done
  next tableData rest read =>
    split_ifs at done with refused
    · cases done
    · obtain ⟨rfl, -⟩ := Prod.mk.inj (Except.ok.inj done)
      rfl

theorem addSeat_succeeds (serves : runtime.Serves) {channelKey : PublicKey}
    (checked : SeatChecked runtime context ledger owner table seat)
    (creatable : Creatable runtime seat context.program context.user
      [table.key.bytes, context.user.key.bytes] ledger)
    (affords : Affords runtime SEAT_DATA_SIZE context.user.key seat.key ledger) :
    ∃ ledger', (addSeat runtime context channelKey).run ledger = .ok ((), ledger') := by
  obtain ⟨seed, done⟩ := SeatCall.checkSeat_run checked
  obtain rfl : seed = _ := checkSeat_seed checked.tableListed done
  obtain ⟨created, creation, zeros⟩ := creatable.succeeds serves (by decide) affords
  have long : (SeatData.mk channelKey).serialize.length ≤ (created seat.key).data.length := by
    rw [zeros, SeatData.length_serialize, List.length_replicate]
  exact ⟨_, bind_ok.mpr ⟨_, _, done, bind_ok.mpr ⟨_, _, creation,
    serializeInto_ok.mpr ⟨long, rfl⟩⟩⟩⟩

theorem addSeat_unpaid (documented : runtime.Documented) {channelKey : PublicKey}
    (checked : SeatChecked runtime context ledger owner table seat)
    (absent : (ledger seat.key).data = [])
    (unpaid : ¬Affords runtime SEAT_DATA_SIZE context.user.key seat.key ledger) :
    (addSeat runtime context channelKey).run ledger = .error (.panic .transfer) := by
  obtain ⟨seed, done⟩ := SeatCall.checkSeat_run checked
  rw [addSeat, run_bind_of_ok done]
  exact run_bind_of_error (createOwnedFundedSizedPda_unpaid documented absent unpaid) _

-- A seat instruction fails alike at a table that does not exist and at one that is closed to it.
theorem checkSeat_refused (ownerListed : context.others[0]? = some owner)
    (tableListed : context.others[1]? = some table) (seatListed : context.others[2]? = some seat)
    (tableKey : table.key = tableAddress runtime context.program.key owner.key)
    (seatKey : seat.key = seatAddress runtime context.program.key owner.key context.user.key)
    (refused : ∀ tableData rest, TableData.deserialize (ledger table.key).data =
      some (tableData, rest) → tableData.closed = true ∧ owner.isSigner = false) :
    (checkSeat runtime context).run ledger = .error (.error .Error) := by
  have seatKey' : seat.key = (deriveSeatSeed runtime table.key context.user.key
      context.program.key).2 := by
    rw [seatKey, tableKey]
    rfl
  rw [checkSeat, run_bind_of_ok (Context.other_ok.mpr ⟨ownerListed, rfl⟩),
    run_bind_of_ok (Context.other_ok.mpr ⟨tableListed, rfl⟩),
    run_bind_of_ok (checkTableAccount_ok.mpr ⟨tableKey, rfl, rfl⟩),
    run_bind_of_ok (Context.other_ok.mpr ⟨seatListed, rfl⟩),
    run_bind_of_ok (checkSeatAccount_ok.mpr ⟨seatKey', rfl, rfl⟩), run_get_bind]
  cases read : TableData.deserialize (ledger table.key).data with
  | none => rfl
  | some pair =>
    obtain ⟨closed, unsigned⟩ := refused pair.1 pair.2 read
    simp only [closed, unsigned, Bool.not_false, Bool.and_self, if_true]
    rfl

end Handlers

/-- The accounts that an instruction lists are those that it needs. -/
structure Addressed (runtime : Runtime) (user program : AccountInfo) (others : List AccountInfo)
    (first account : AccountInfo) (instruction : RoundNetInstruction) : Prop where
  signed : user.isSigner = true
  userWritable : user.isWritable = true
  accountWritable : account.isWritable = true
  firstListed : others[0]? = some first
  accountListed : (user :: program :: others)[instruction.slot]? = some account
  address : account.key = (instruction.command user first).place.address runtime program.key
  tableListed : instruction.slot = 4 → ∃ table, others[1]? = some table ∧
    table.key = tableAddress runtime program.key first.key

-- An account of nobody's that has no data, and a wallet, are as the system program has made them.
structure Payable (user account : PublicKey) (ledger : Ledger) : Prop where
  other : account ≠ user
  walletOwner : (ledger user).owner = systemProgramId
  walletData : (ledger user).data = []
  unclaimed : (ledger account).data = [] → (ledger account).owner = systemProgramId

section Acceptance

open Attempt

variable {runtime : Runtime} {user program first account : AccountInfo} {others : List AccountInfo}
  {instruction : RoundNetInstruction} {ledger : Ledger} {deployment : Deployment}

theorem Addressed.creatable
    (addressed : Addressed runtime user program others first account instruction)
    (payable : Payable user.key account.key ledger) (absent : (ledger account.key).data = [])
    {seeds : List (List UInt8)}
    (derived : account.key = (runtime.findProgramAddress seeds program.key).1) :
    Creatable runtime account program user seeds ledger where
  derived := derived
  other := payable.other
  signed := addressed.signed
  absent := absent
  unclaimed := payable.unclaimed absent
  walletOwner := payable.walletOwner
  walletData := payable.walletData

theorem Addressed.seat_listed
    (addressed : Addressed runtime user program others first account instruction)
    (isSeat : instruction.slot = 4) :
    others[2]? = some account ∧
      account.key = seatAddress runtime program.key first.key user.key := by
  have listed := addressed.accountListed
  have address := addressed.address
  rw [isSeat] at listed
  refine ⟨listed, ?_⟩
  cases instruction <;> first | exact address | cases isSeat

theorem Addressed.seatChecked
    (addressed : Addressed runtime user program others first account instruction)
    (isSeat : instruction.slot = 4)
    (holds : (Place.table first.key).Holds runtime program.key
      (ledger (tableAddress runtime program.key first.key)) (deployment.held (.table first.key)))
    (admitted : deployment.admits first.key first.isSigner = true) :
    ∃ table, SeatChecked runtime ⟨user, program, others⟩ ledger first table account := by
  obtain ⟨table, tableListed, tableKey⟩ := addressed.tableListed isSeat
  obtain ⟨listed, address⟩ := addressed.seat_listed isSeat
  obtain ⟨tableData, found, isOpen⟩ := (Option.any_eq_true _ _).mp admitted
  rw [Deployment.held, found] at holds
  refine ⟨table, addressed.firstListed, tableListed, listed, tableKey, address, tableData, [], ?_, ?_⟩
  · rw [tableKey, holds.1]
    simpa using tableData.deserialize_append []
  · intro closed
    simpa [closed] using isOpen

theorem Addressed.seat_refused
    (addressed : Addressed runtime user program others first account instruction)
    (isSeat : instruction.slot = 4)
    (holds : (Place.table first.key).Holds runtime program.key
      (ledger (tableAddress runtime program.key first.key)) (deployment.held (.table first.key)))
    (refused : deployment.admits first.key first.isSigner = false) :
    (checkSeat runtime ⟨user, program, others⟩).run ledger = .error (.error .Error) := by
  obtain ⟨table, tableListed, tableKey⟩ := addressed.tableListed isSeat
  obtain ⟨listed, address⟩ := addressed.seat_listed isSeat
  apply checkSeat_refused addressed.firstListed tableListed listed tableKey address
  intro tableData rest read
  rw [tableKey] at read
  cases found : deployment.table first.key with
  | none =>
    rw [Deployment.held, found] at holds
    rw [show (ledger (tableAddress runtime program.key first.key)).data = [] from holds] at read
    cases read
  | some present =>
    rw [Deployment.held, found] at holds
    have same := present.deserialize_append []
    rw [List.append_nil, ← holds.1, read] at same
    obtain ⟨rfl, -⟩ := Prod.mk.inj (Option.some.inj same)
    simpa [Deployment.admits, found] using refused

-- The program ends an instruction as the deployment answers its command.
def Answered (runtime : Runtime) (user program first account : AccountInfo)
    (others : List AccountInfo) (instruction : RoundNetInstruction) (ledger : Ledger)
    (deployment : Deployment) : Prop :=
  let command := instruction.command user first
  ((instruction.process runtime ⟨user, program, others⟩).run ledger).map (fun _ => ()) =
    deployment.answer command
      (decide (Affords runtime command.place.size user.key account.key ledger))

theorem Answered.of_ok {ledger' : Ledger}
    (done : (instruction.process runtime ⟨user, program, others⟩).run ledger = .ok ((), ledger'))
    (accepted : deployment.refusal (instruction.command user first) = none)
    (affords : deployment.founds (instruction.command user first) = true →
      Affords runtime (instruction.command user first).place.size user.key account.key ledger) :
    Answered runtime user program first account others instruction ledger deployment := by
  simp only [Answered, done, Deployment.answer, accepted]
  cases founds : deployment.founds (instruction.command user first) with
  | false => simp [Except.map]
  | true => simp [Except.map, affords founds]

theorem Answered.of_error {failure : Failure}
    (failed : (instruction.process runtime ⟨user, program, others⟩).run ledger = .error failure)
    (refused : deployment.refusal (instruction.command user first) = some failure) :
    Answered runtime user program first account others instruction ledger deployment := by
  simp only [Answered, failed, Deployment.answer, refused]
  rfl

theorem Answered.of_unpaid
    (failed : (instruction.process runtime ⟨user, program, others⟩).run ledger =
      .error (.panic .transfer))
    (accepted : deployment.refusal (instruction.command user first) = none)
    (founds : deployment.founds (instruction.command user first) = true)
    (unpaid : ¬Affords runtime (instruction.command user first).place.size user.key account.key
      ledger) :
    Answered runtime user program first account others instruction ledger deployment := by
  simp [Answered, failed, Deployment.answer, accepted, founds, unpaid, Except.map]

section Answers

variable (addressed : Addressed runtime user program others first account instruction)
  (holds : (instruction.command user first).place.Holds runtime program.key (ledger account.key)
    (deployment.held (instruction.command user first).place))

include addressed holds

theorem Addressed.table_found (isTable : instruction.slot = 2) :
    others[0]? = some account ∧ account.key = tableAddress runtime program.key user.key ∧
      match deployment.table user.key with
      | none => (ledger account.key).data = []
      | some table => (ledger account.key).data = table.serialize := by
  have listed := addressed.accountListed
  rw [isTable] at listed
  have place : (instruction.command user first).place = .table user.key := by
    cases instruction <;> first | rfl | cases isTable
  have address := addressed.address
  rw [place] at address holds
  refine ⟨listed, address, ?_⟩
  cases found : deployment.table user.key with
  | none =>
    rw [Deployment.held, found] at holds
    exact holds
  | some table =>
    rw [Deployment.held, found] at holds
    exact holds.1

theorem Addressed.answered_edit (edits : instruction.edited.isSome) :
    Answered runtime user program first account others instruction ledger deployment := by
  obtain ⟨listed, address, found⟩ :=
    addressed.table_found holds (RoundNetInstruction.slot_of_edited edits)
  have command : instruction.command user first = .edit user.key instruction := by
    cases instruction <;> first | rfl | cases edits
  cases present : deployment.table user.key with
  | none =>
    rw [present] at found
    exact .of_error (process_edit_missing edits listed address found)
      (by simp [command, Deployment.refusal, present])
  | some table =>
    rw [present] at found
    have runs : (instruction.process runtime ⟨user, program, others⟩).run ledger = _ :=
      RoundNetInstruction.process_edit edits listed address found
    cases outcome : table.edit instruction with
    | ok table' =>
      rw [outcome] at runs
      exact .of_ok runs (by simp [command, Deployment.refusal, present, outcome])
        (by simp [command, Deployment.founds])
    | error failure =>
      rw [outcome] at runs
      exact .of_error runs (by simp [command, Deployment.refusal, present, outcome])

end Answers

theorem Addressed.answered_create (documented : runtime.Documented) (serves : runtime.Serves)
    {closed : Bool}
    (addressed : Addressed runtime user program others first account (.InitTable closed))
    (payable : Payable user.key account.key ledger)
    (holds : (Place.table user.key).Holds runtime program.key (ledger account.key)
      (deployment.held (.table user.key))) :
    Answered runtime user program first account others (.InitTable closed) ledger deployment := by
  obtain ⟨listed, address, found⟩ := addressed.table_found holds rfl
  cases present : deployment.table user.key with
  | some table =>
    rw [present] at found
    refine .of_error (initTable_refused listed address fun empty => ?_)
      (by simp [RoundNetInstruction.command, Deployment.refusal, present])
    exact table.serialize_ne_nil (found.symm.trans empty)
  | none =>
    rw [present] at found
    have accepted : deployment.refusal (.create user.key closed) = none := by
      simp [Deployment.refusal, present]
    by_cases affords : Affords runtime TABLE_DATA_SIZE user.key account.key ledger
    · have creatable := addressed.creatable payable found address
      obtain ⟨ledger', done⟩ : ∃ ledger', (initTable runtime ⟨user, program, others⟩ closed).run
          ledger = .ok ((), ledger') := initTable_succeeds serves listed creatable affords
      exact .of_ok done accepted fun _ => affords
    · exact .of_unpaid (initTable_unpaid documented listed address found affords) accepted rfl
        affords

theorem Addressed.answered_delete
    (addressed : Addressed runtime user program others first account .DeleteTable)
    (holds : (Place.table user.key).Holds runtime program.key (ledger account.key)
      (deployment.held (.table user.key))) :
    Answered runtime user program first account others .DeleteTable ledger deployment := by
  obtain ⟨listed, address, found⟩ := addressed.table_found holds rfl
  cases present : deployment.table user.key with
  | none =>
    rw [present] at found
    exact .of_error (deleteTable_refused listed address found)
      (by simp [RoundNetInstruction.command, Deployment.refusal, present])
  | some table =>
    rw [present] at found
    obtain ⟨ledger', done⟩ : ∃ ledger', (deleteTable runtime ⟨user, program, others⟩).run
        ledger = .ok ((), ledger') := deleteTable_succeeds listed address fun empty =>
      table.serialize_ne_nil (found.symm.trans empty)
    exact .of_ok done (by simp [RoundNetInstruction.command, Deployment.refusal, present])
      (by simp [RoundNetInstruction.command, Deployment.founds])

section Seats

variable (tableHolds : (Place.table first.key).Holds runtime program.key
  (ledger (tableAddress runtime program.key first.key)) (deployment.held (.table first.key)))

include tableHolds

theorem Addressed.answered_sit (documented : runtime.Documented) (serves : runtime.Serves)
    {channelKey : PublicKey}
    (addressed : Addressed runtime user program others first account (.AddSeat channelKey))
    (payable : Payable user.key account.key ledger)
    (holds : (Place.seat first.key user.key).Holds runtime program.key (ledger account.key)
      (deployment.held (.seat first.key user.key))) :
    Answered runtime user program first account others (.AddSeat channelKey) ledger
      deployment := by
  cases admitted : deployment.admits first.key first.isSigner with
  | false =>
    have failed := addressed.seat_refused rfl tableHolds admitted
    exact .of_error (run_bind_of_error failed _)
      (by simp [RoundNetInstruction.command, Deployment.refusal, admitted])
  | true =>
    have accepted : deployment.refusal
        (.sit first.key user.key first.isSigner ⟨channelKey⟩) = none := by
      simp [Deployment.refusal, admitted]
    obtain ⟨table, checked⟩ := addressed.seatChecked rfl tableHolds admitted
    by_cases absent : (ledger account.key).data = []
    · have founds : deployment.founds (.sit first.key user.key first.isSigner ⟨channelKey⟩) =
          true := by
        rw [Deployment.founds_sit, Option.isNone_iff_eq_none]
        exact holds.none_iff.mpr absent
      by_cases affords : Affords runtime SEAT_DATA_SIZE user.key account.key ledger
      · have derived : account.key = (runtime.findProgramAddress
            [table.key.bytes, user.key.bytes] program.key).1 := by
          rw [checked.seatKey, checked.tableKey]
          rfl
        have creatable := addressed.creatable payable absent derived
        obtain ⟨ledger', done⟩ := addSeat_succeeds serves checked creatable affords
        exact .of_ok done accepted fun _ => affords
      · exact .of_unpaid (addSeat_unpaid documented checked absent affords) accepted founds affords
    · have notFounds : deployment.founds (.sit first.key user.key first.isSigner ⟨channelKey⟩) =
          false := by
        rw [Deployment.founds_sit, ← Bool.not_eq_true, Option.isNone_iff_eq_none]
        exact mt holds.none_iff.mp absent
      obtain ⟨ledger', done⟩ := addSeat_rewrites checked absent (holds.fits.seat rfl absent).ge
      exact .of_ok done accepted fun founds => by
        cases notFounds.symm.trans founds

theorem Addressed.answered_leave
    (addressed : Addressed runtime user program others first account .RemoveSeat) :
    Answered runtime user program first account others .RemoveSeat ledger deployment := by
  cases admitted : deployment.admits first.key first.isSigner with
  | false =>
    have failed := addressed.seat_refused rfl tableHolds admitted
    exact .of_error (run_bind_of_error failed _)
      (by simp [RoundNetInstruction.command, Deployment.refusal, admitted])
  | true =>
    obtain ⟨table, checked⟩ := addressed.seatChecked rfl tableHolds admitted
    obtain ⟨ledger', done⟩ := removeSeat_succeeds checked
    exact .of_ok done (by simp [RoundNetInstruction.command, Deployment.refusal, admitted])
      (by simp [RoundNetInstruction.command, Deployment.founds])

end Seats

theorem Addressed.answered (documented : runtime.Documented) (serves : runtime.Serves)
    (addressed : Addressed runtime user program others first account instruction)
    (payable : Payable user.key account.key ledger)
    (holds : (instruction.command user first).place.Holds runtime program.key
      (ledger account.key) (deployment.held (instruction.command user first).place))
    (tableHolds : (Place.table first.key).Holds runtime program.key
      (ledger (tableAddress runtime program.key first.key)) (deployment.held (.table first.key))) :
    Answered runtime user program first account others instruction ledger deployment := by
  cases instruction with
  | InitTable closed => exact addressed.answered_create documented serves payable holds
  | DeleteTable => exact addressed.answered_delete holds
  | AddSeat channelKey =>
    exact addressed.answered_sit tableHolds documented serves payable holds
  | RemoveSeat => exact addressed.answered_leave tableHolds
  | AddBootstrap | RemoveBootstrap | AddChannelArgs | RemoveChannelArgs =>
    exact addressed.answered_edit holds rfl

/-- What the runtime asks of a program that has succeeded, or else undoes what it did: all that has
changed is listed as writable, and the program has taken lamports from accounts of its own only, and
written to such only. What the payer pays, the system program takes. -/
structure Permitted (programId payer : PublicKey) (accounts : List AccountInfo)
    (ledger ledger' : Ledger) : Prop where
  writable : ∀ key, ledger' key ≠ ledger key →
    ∃ account ∈ accounts, account.key = key ∧ account.isWritable = true
  debits : ∀ key, key ≠ payer → (ledger' key).lamports < (ledger key).lamports →
    (ledger key).owner = programId
  writes : ∀ key, (ledger' key).data ≠ (ledger key).data → (ledger' key).owner = programId

/-- What an instruction comes to. The program ends it as the deployment answers its command, with a
failed transfer where a new account is not paid for, and the runtime lets a success stand unless the
program has drained the address of a seat that does not exist. -/
structure EndsAs (runtime : Runtime) (programId : PublicKey) (accounts : List AccountInfo)
    (data : List UInt8) (ledger : Ledger) (payer : PublicKey) (command : Command)
    (deployment : Deployment) : Prop where
  result : ((processInstruction runtime programId accounts data).run ledger).map (fun _ => ()) =
    deployment.answer command (decide (Affords runtime command.place.size payer
      (command.place.address runtime programId) ledger))
  permitted_iff : ∀ ledger', (processInstruction runtime programId accounts data).run ledger =
    .ok ((), ledger') → (Permitted programId payer accounts ledger ledger' ↔
      ¬(deployment.drains command = true ∧
        0 < (ledger (command.place.address runtime programId)).lamports))

section Permission

variable {ledger' : Ledger}

theorem Handled.contents {context : Context}
    (handled : Handled runtime context ledger ledger' instruction)
    (listed : (context.user :: context.program :: context.others)[instruction.slot]? = some account)
    {key : PublicKey} (other : key ≠ account.key) :
    (ledger' key).data = (ledger key).data ∧ (ledger' key).owner = (ledger key).owner := by
  cases handled with
  | initTable isTable _ _ creation change =>
    obtain rfl := Option.some.inj (listed.symm.trans isTable)
    rw [change, Ledger.setData_ne other]
    exact creation.contents key other
  | deleteTable _ _ change => simp [change]
  | edited edits isTable _ _ _ change =>
    rw [RoundNetInstruction.slot_of_edited (Option.isSome_of_eq_some edits)] at listed
    obtain rfl := Option.some.inj (listed.symm.trans isTable)
    simp [change, Ledger.setData_ne other]
  | addSeat checked creation _ change =>
    obtain rfl := Option.some.inj (listed.symm.trans checked.seatListed)
    rw [change, Ledger.setData_ne other]
    split_ifs at creation
    · exact creation.contents key other
    · simp [creation]
  | removeSeat _ change => simp [change]

theorem RoundNetInstruction.Does.owner {programId : PublicKey} {before after : Account}
    (does : instruction.Does programId before after)
    (owned : before.data ≠ [] → before.owner = programId)
    (written : after.data ≠ before.data) : after.owner = programId := by
  cases instruction with
  | InitTable closed => exact does.2.2.1
  | DeleteTable => exact absurd (congrArg Account.data does.2) written
  | AddSeat channelKey =>
    obtain ⟨-, rest⟩ := does
    split_ifs at rest with absent
    · exact rest.1
    · exact rest.1.trans (owned absent)
  | RemoveSeat => exact absurd (congrArg Account.data does) written
  | AddBootstrap | RemoveBootstrap | AddChannelArgs | RemoveChannelArgs =>
    obtain ⟨table, table', data, -, rfl⟩ := RoundNetInstruction.does_of_edited rfl does
    exact owned fun empty => table.serialize_ne_nil (data.symm.trans empty)

theorem RoundNetInstruction.drains_iff :
    deployment.drains (instruction.command user first) = true ↔ instruction = .RemoveSeat ∧
      deployment.held (instruction.command user first).place = none := by
  cases instruction <;>
    simp [RoundNetInstruction.command, Deployment.drains, Deployment.held, Command.place]

theorem RoundNetInstruction.Does.removes {programId : PublicKey} {before after : Account}
    (does : instruction.Does programId before after) (absent : before.data = [])
    (taken : instruction.left runtime before < before.lamports) : instruction = .RemoveSeat := by
  cases instruction with
  | RemoveSeat => rfl
  | DeleteTable => exact absurd absent does.1
  | InitTable | AddSeat => simp [RoundNetInstruction.left, absent] at taken
  | AddBootstrap | RemoveBootstrap | AddChannelArgs | RemoveChannelArgs =>
    exact absurd taken (lt_irrefl _)

theorem Addressed.permitted_iff (documented : runtime.Documented)
    (foreign : program.key ≠ systemProgramId)
    (addressed : Addressed runtime user program others first account instruction)
    (payable : Payable user.key account.key ledger)
    (holds : (instruction.command user first).place.Holds runtime program.key (ledger account.key)
      (deployment.held (instruction.command user first).place))
    (done : (instruction.process runtime ⟨user, program, others⟩).run ledger = .ok ((), ledger')) :
    Permitted program.key user.key (user :: program :: others) ledger ledger' ↔
      ¬(deployment.drains (instruction.command user first) = true ∧
        0 < (ledger account.key).lamports) := by
  have moved := instruction.process_moved documented addressed.accountListed payable.other done
  have does := instruction.process_does documented addressed.accountListed
    instruction.slot_command.symm holds.fits payable.other done
  have contents {key : PublicKey} (other : key ≠ account.key) :=
    (instruction.process_ok documented done).contents addressed.accountListed other
  constructor
  · rintro permitted ⟨drains, funded⟩
    obtain ⟨rfl, unheld⟩ := RoundNetInstruction.drains_iff.mp drains
    have owned := permitted.debits account.key payable.other (moved.left.trans_lt funded)
    exact foreign (owned.symm.trans (payable.unclaimed (holds.none_iff.mp unheld)))
  · intro keeps
    refine ⟨fun key changed => ?_, fun key notPayer less => ?_, fun key written => ?_⟩
    · by_cases isAccount : key = account.key
      · exact ⟨account, List.mem_of_getElem? addressed.accountListed, isAccount.symm,
          addressed.accountWritable⟩
      · by_cases isUser : key = user.key
        · exact ⟨user, List.mem_cons_self, isUser.symm, addressed.userWritable⟩
        · exact absurd (Account.ext (moved.others key isUser isAccount) (contents isAccount).1
            (contents isAccount).2) changed
    · by_cases isAccount : key = account.key
      · rw [isAccount] at less ⊢
        refine (holds.fits.resolve_left fun absent => keeps ⟨?_, by omega⟩).1
        rw [moved.left] at less
        exact RoundNetInstruction.drains_iff.mpr
          ⟨does.removes absent less, holds.none_iff.mpr absent⟩
      · exact absurd (moved.others key notPayer isAccount) less.ne
    · by_cases isAccount : key = account.key
      · rw [isAccount] at written ⊢
        exact does.owner (fun present => (holds.fits.resolve_left present).1) written
      · exact absurd (contents isAccount).1 written

end Permission

end Acceptance

section Runs

variable {runtime : Runtime} {programId : PublicKey} {known : Set PublicKey} {place : Place}
  {account account' : Account} {step : Step}

theorem Change.unclaimed (change : Change runtime programId place step account account')
    (unclaimed : account.data = [] → account.owner = systemProgramId) :
    account'.data = [] → account'.owner = systemProgramId := by
  cases change with
  | received amount unasked funded change => exact change ▸ unclaimed
  | spent lamports unasked owned change => exact change ▸ unclaimed
  | @did instruction asked aimed does =>
    cases instruction with
    | InitTable closed =>
      exact fun empty => absurd (does.2.1.symm.trans empty) (TableData.serialize_ne_nil _)
    | DeleteTable => exact does.2 ▸ unclaimed
    | AddSeat channelKey =>
      exact fun empty => absurd (does.1.symm.trans empty) (SeatData.serialize_ne_nil _)
    | RemoveSeat => exact does.symm ▸ unclaimed
    | AddBootstrap | RemoveBootstrap | AddChannelArgs | RemoveChannelArgs =>
      obtain ⟨table, table', -, -, rfl⟩ := RoundNetInstruction.does_of_edited rfl does
      exact fun empty => absurd empty table'.serialize_ne_nil

variable (documented : runtime.Documented) (serves : runtime.Serves)
  (distinct : runtime.Distinct programId known) (foreign : programId ≠ systemProgramId)

include documented serves in
theorem Deployment.On.answers {user program first account : AccountInfo}
    {others : List AccountInfo} {instruction : RoundNetInstruction} {deployment : Deployment}
    {ledger : Ledger} (notSystem : program.key ≠ systemProgramId)
    (on : deployment.On runtime program.key known (fun _ => False) ledger)
    (unclaimed : ∀ place : Place, place.Within known →
      (ledger (place.address runtime program.key)).data = [] →
        (ledger (place.address runtime program.key)).owner = systemProgramId)
    (addressed : Addressed runtime user program others first account instruction)
    (genuine : (Step.call (user :: program :: others) instruction.serialize).Genuine runtime
      program.key known)
    (walletOwner : (ledger user.key).owner = systemProgramId)
    (walletData : (ledger user.key).data = []) :
    EndsAs runtime program.key (user :: program :: others) instruction.serialize ledger user.key
      (instruction.command user first) deployment := by
  have firstMember : first ∈ user :: program :: others := by
    simp [List.mem_of_getElem? addressed.firstListed]
  have firstKnown := genuine.1 first firstMember
  have within : (instruction.command user first).place.Within known :=
    RoundNetInstruction.within_command (genuine.1 user (by simp)) firstKnown
  have notUser : account.key ≠ user.key := by
    rw [addressed.address]
    exact (genuine.2 user (by simp) addressed.signed _ within).symm
  have payable : Payable user.key account.key ledger := by
    refine ⟨notUser, walletOwner, walletData, ?_⟩
    rw [addressed.address]
    exact unclaimed _ within
  have holds := on.held _ within not_false
  rw [← addressed.address] at holds
  have tableHolds := on.held (.table first.key) firstKnown not_false
  have runs : (processInstruction runtime program.key (user :: program :: others)
      instruction.serialize).run ledger =
        (instruction.process runtime ⟨user, program, others⟩).run ledger := by
    rw [processInstruction_run, RoundNetInstruction.tryFromSlice_serialize]
    simp [addressed.signed]
  refine ⟨?_, fun ledger' done => ?_⟩
  · rw [runs, ← addressed.address]
    exact addressed.answered documented serves payable holds tableHolds
  · rw [← addressed.address]
    exact addressed.permitted_iff documented notSystem payable holds (runs.symm.trans done)

include documented distinct

theorem chain_unclaimed {initial : Ledger} {transactions : List (List Step)}
    (genuine : ∀ transaction ∈ transactions, ∀ step ∈ transaction,
      step.Genuine runtime programId known)
    (unused : Unused runtime programId known initial)
    (unclaimed : ∀ place : Place, place.Within known →
      (initial (place.address runtime programId)).owner = systemProgramId)
    (within : place.Within known) :
    let reached := (chain runtime programId).run initial transactions
    (reached.1 (place.address runtime programId)).data = [] →
      (reached.1 (place.address runtime programId)).owner = systemProgramId :=
  (chain_account documented distinct within
    (fun account _ => account.data = [] → account.owner = systemProgramId) genuine
    (.inl (unused place within)) (fun _ => unclaimed place within)
    (fun _ _ _ _ _ _ _ _ kept change => change.unclaimed kept) (fun _ _ _ _ _ => rfl)).2

include serves foreign

/-- At every point of a chain in which no transaction mentions an account after it has deleted it, an
instruction on the accounts that it needs, signed by a wallet, ends as the deployment that the
history has led to answers its command. -/
theorem ends_as_answered {initial : Ledger} {transactions : List (List Step)}
    (genuine : ∀ transaction ∈ transactions, ∀ step ∈ transaction,
      step.Genuine runtime programId known)
    (leaves : ∀ transaction ∈ transactions, LeavesDeleted transaction)
    (unused : Unused runtime programId known initial)
    (unclaimed : ∀ place : Place, place.Within known →
      (initial (place.address runtime programId)).owner = systemProgramId) :
    let reached := (chain runtime programId).run initial transactions
    ∃ deployment, Deployment.empty.replay (reached.2.filterMap Step.command) = some deployment ∧
      ∀ (user program : AccountInfo) (others : List AccountInfo) (first account : AccountInfo)
        (instruction : RoundNetInstruction), program.key = programId →
        Addressed runtime user program others first account instruction →
        (Step.call (user :: program :: others) instruction.serialize).Genuine runtime programId
          known →
        (reached.1 user.key).owner = systemProgramId → (reached.1 user.key).data = [] →
        EndsAs runtime programId (user :: program :: others) instruction.serialize reached.1 user.key
          (instruction.command user first) deployment := by
  intro reached
  obtain ⟨deployment, replayed, on⟩ := chain_replayed documented distinct foreign genuine leaves
    (Deployment.On.of_unused unused)
  refine ⟨deployment, replayed, ?_⟩
  rintro user program others first account instruction rfl addressed isGenuine walletOwner walletData
  exact on.answers documented serves foreign
    (fun _ within => chain_unclaimed documented distinct genuine unused unclaimed within) addressed
    isGenuine walletOwner walletData

end Runs

theorem Sample.runtime_serves : Sample.runtime.Serves where
  allocate account space signed ledger isSigned _ unclaimed absent := by
    simp [Sample.runtime, Sample.system, isSigned, unclaimed, absent]
  transfer source destination lamports signed ledger isSigned unclaimed absent enough := by
    simp [Sample.runtime, Sample.system, isSigned, unclaimed, absent, enough]
  assign account owner signed ledger isSigned unclaimed zeros := by
    simp only [Sample.runtime, Sample.system, isSigned, unclaimed, List.all_eq_true, beq_iff_eq,
      true_and]
    rw [if_pos (.inr zeros)]
  bump seeds programId := by
    simp [Sample.runtime, Sample.createProgramAddress]

theorem ends_as_answered_opened :
    let reached := (chain Sample.runtime PROGRAM_ID).run Sample.funded
      [[.call Sample.tableAccounts [0, 0]]]
    let command := (RoundNetInstruction.AddSeat Sample.user).command ⟨Sample.user, true, true⟩
      ⟨Sample.owner, false, false⟩
    ∃ deployment, Deployment.empty.replay (reached.2.filterMap Step.command) = some deployment ∧
      EndsAs Sample.runtime PROGRAM_ID (Sample.seatAccounts false)
        (RoundNetInstruction.AddSeat Sample.user).serialize reached.1 Sample.user command
          deployment := by
  have genuine : ∀ transaction ∈ [[Step.call Sample.tableAccounts [0, 0]]], ∀ step ∈ transaction,
      step.Genuine Sample.runtime PROGRAM_ID {key | key ∈ Sample.keys} := by
    simpa using Sample.table_genuine _
  have unclaimed : ∀ place : Place, place.Within {key | key ∈ Sample.keys} →
      (Sample.funded (place.address Sample.runtime PROGRAM_ID)).owner = systemProgramId := by
    intro place _
    rw [Sample.funded]
    split_ifs <;> rfl
  have wallet : (Sample.opened Sample.user).owner = systemProgramId ∧
      (Sample.opened Sample.user).data = [] := by
    decide +kernel
  rw [Sample.opened] at wallet
  have holds := ends_as_answered Sample.runtime_documented Sample.runtime_serves Sample.distinct
    (by decide) genuine (by simp [LeavesDeleted]) Sample.unused unclaimed
  generalize (chain Sample.runtime PROGRAM_ID).run Sample.funded
    [[.call Sample.tableAccounts [0, 0]]] = reached at holds wallet ⊢
  obtain ⟨deployment, replayed, accepted⟩ := holds
  have addressed : Addressed Sample.runtime ⟨Sample.user, true, true⟩ Sample.program
      ((Sample.seatAccounts false).drop 2) ⟨Sample.owner, false, false⟩ ⟨Sample.seat, false, true⟩
        (.AddSeat Sample.user) := by
    refine ⟨rfl, rfl, rfl, rfl, rfl, Sample.isSeat, fun _ => ⟨_, rfl, Sample.isTable⟩⟩
  exact ⟨deployment, replayed, accepted _ _ _ _ _ _ rfl addressed (Sample.seat_genuine _) wallet.1
    wallet.2⟩

end RoundTable.Contract
