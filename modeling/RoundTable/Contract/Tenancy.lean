import RoundTable.Contract.Edits
import RoundTable.Contract.Seats

set_option autoImplicit false

namespace RoundTable.Contract

-- The place in the account list of the account that an instruction is for.
def RoundNetInstruction.slot : RoundNetInstruction → Nat
  | .AddSeat _ | .RemoveSeat => 4
  | _ => 2

namespace Step

def asks (address : PublicKey) : Step → Option RoundNetInstruction
  | .call accounts input =>
    (Borsh.tryFromSlice RoundNetInstruction.deserialize input).filter fun instruction =>
      accounts[instruction.slot]?.any fun account => account.key = address
  | .transfer .. => none

def funds (address : PublicKey) : Step → Bool
  | .call .. => false
  | .transfer _ destination lamports _ => destination = address && decide (0 < lamports)

/-- The account list of a call names known keys, and no derived address signs it. -/
def Genuine (runtime : Runtime) (programId : PublicKey) (known : Set PublicKey) : Step → Prop
  | .call accounts _ => (∀ account ∈ accounts, account.key ∈ known) ∧
      DerivedNeverSign runtime programId known accounts
  | .transfer .. => True

end Step

namespace Place

def slot : Place → Nat
  | .table _ => 2
  | .seat _ _ => 4

def Contents (data : List UInt8) : Place → Prop
  | .table _ => ∃ table : TableData, data = table.serialize
  | .seat _ _ => ∃ seat : SeatData, data = seat.serialize

-- An account with data belongs to the program and holds what the program writes there.
def Fits (programId : PublicKey) (account : Account) (place : Place) : Prop :=
  account.data = [] ∨ account.owner = programId ∧ place.Contents account.data

end Place

def RoundNetInstruction.Does (programId : PublicKey) (account account' : Account) :
    RoundNetInstruction → Prop
  | .InitTable closed => account.data = [] ∧ account'.data = (TableData.new closed).serialize ∧
      account'.owner = programId ∧ 0 < account'.lamports
  | .DeleteTable => account.data ≠ [] ∧ account' = { account with lamports := 0 }
  | .AddSeat channelKey => account'.data = (SeatData.mk channelKey).serialize ∧
      if account.data = [] then account'.owner = programId ∧ 0 < account'.lamports
      else account'.owner = account.owner ∧ account'.lamports = account.lamports
  | .RemoveSeat => account' = { account with lamports := 0 }
  | instruction => ∃ table table' : TableData, account.data = table.serialize ∧
      table.edit instruction = .ok table' ∧ account' = { account with data := table'.serialize }

theorem RoundNetInstruction.does_of_edited {programId : PublicKey} {account account' : Account}
    {instruction : RoundNetInstruction} (edits : instruction.edited.isSome)
    (does : instruction.Does programId account account') :
    ∃ table table' : TableData, account.data = table.serialize ∧
      table.edit instruction = .ok table' ∧ account' = { account with data := table'.serialize } := by
  cases instruction <;> first | exact does | cases edits

/-- What a step can do to the account at a place. -/
inductive Change (runtime : Runtime) (programId : PublicKey) (place : Place) (step : Step)
    (account account' : Account) : Prop
  | received (amount : Nat) (unasked : step.asks (place.address runtime programId) = none)
      (funded : 0 < amount ↔ step.funds (place.address runtime programId) = true)
      (change : account' = { account with lamports := account.lamports + amount }) :
      Change runtime programId place step account account'
  | spent (lamports : Nat) (unasked : step.asks (place.address runtime programId) = none)
      (owned : account.owner = systemProgramId)
      (change : account' = { account with lamports }) :
      Change runtime programId place step account account'
  | did {instruction : RoundNetInstruction}
      (asked : step.asks (place.address runtime programId) = some instruction)
      (aimed : instruction.slot = place.slot)
      (does : instruction.Does programId account account') :
      Change runtime programId place step account account'

section Steps

variable {runtime : Runtime} {programId : PublicKey} {known : Set PublicKey}
  {ledger ledger' : Ledger} {user program : AccountInfo} {others : List AccountInfo}
  {instruction : RoundNetInstruction}

theorem RoundNetInstruction.slot_of_edited (edits : instruction.edited.isSome) :
    instruction.slot = 2 := by
  cases instruction <;> first | rfl | cases edits

theorem RoundNetInstruction.stop_pos {start stop : Nat}
    (edits : instruction.edited = some (start, stop)) : 0 < stop := by
  cases instruction <;> simp only [RoundNetInstruction.edited, Option.some.injEq, Prod.mk.injEq,
    reduceCtorEq] at edits <;> omega

theorem Handled.slot (within : ∀ account ∈ user :: program :: others, account.key ∈ known)
    (handled : Handled runtime ⟨user, program, others⟩ ledger ledger' instruction) :
    ∃ (account : AccountInfo) (place : Place),
      (user :: program :: others)[instruction.slot]? = some account ∧
      place.Within known ∧ place.slot = instruction.slot ∧
      account.key = place.address runtime program.key ∧
      ∀ key, key ≠ account.key → key ≠ user.key → ledger' key = ledger key := by
  have userKnown := within user (by simp)
  cases handled with
  | initTable listed address absent creation change =>
    refine ⟨_, .table user.key, listed, userKnown, rfl, address, fun key other notUser => ?_⟩
    rw [change, Ledger.setData_ne other, creation.ne other notUser]
  | deleteTable listed address change =>
    refine ⟨_, .table user.key, listed, userKnown, rfl, address, fun key other notUser => ?_⟩
    rw [change, Ledger.transfer_ne other notUser]
  | edited edits listed address long fits change =>
    have isTable := RoundNetInstruction.slot_of_edited (Option.isSome_of_eq_some edits)
    refine ⟨_, .table user.key, isTable ▸ listed, userKnown, isTable.symm, address,
      fun key other notUser => ?_⟩
    rw [change, Ledger.setData_ne other]
  | @addSeat channelKey owner table seat created checked creation long change =>
    have ownerKnown : owner.key ∈ known :=
      within owner (by simp [List.mem_of_getElem? checked.ownerListed])
    refine ⟨seat, .seat owner.key user.key, checked.seatListed, ⟨ownerKnown, userKnown⟩, rfl,
      checked.seatKey, fun key other notUser => ?_⟩
    rw [change, Ledger.setData_ne other]
    split_ifs at creation
    · exact creation.ne other notUser
    · rw [creation]
  | @removeSeat owner table seat checked change =>
    have ownerKnown : owner.key ∈ known :=
      within owner (by simp [List.mem_of_getElem? checked.ownerListed])
    refine ⟨seat, .seat owner.key user.key, checked.seatListed, ⟨ownerKnown, userKnown⟩, rfl,
      checked.seatKey, fun key other notUser => ?_⟩
    rw [change, Ledger.transfer_ne other notUser]

variable {account : AccountInfo} {place : Place}

theorem Place.Fits.seat (fits : place.Fits programId (ledger account.key)) (aimed : place.slot = 4)
    (present : (ledger account.key).data ≠ []) :
    (ledger account.key).data.length = SEAT_DATA_SIZE := by
  obtain ⟨-, contents⟩ := fits.resolve_left present
  cases place with
  | table owner => cases aimed
  | seat owner sitter =>
    obtain ⟨seat, data⟩ := contents
    rw [data, seat.length_serialize]

theorem Place.Fits.table (fits : place.Fits programId (ledger account.key)) (aimed : place.slot = 2)
    (present : (ledger account.key).data ≠ []) :
    ∃ table : TableData, (ledger account.key).data = table.serialize := by
  obtain ⟨-, contents⟩ := fits.resolve_left present
  cases place with
  | table owner => exact contents
  | seat owner sitter => cases aimed

theorem Handled.does_addSeat {channelKey : PublicKey}
    (handled : Handled runtime ⟨user, program, others⟩ ledger ledger' (.AddSeat channelKey))
    (listed : others[2]? = some account) (aimed : place.slot = 4)
    (fits : place.Fits program.key (ledger account.key)) :
    (RoundNetInstruction.AddSeat channelKey).Does program.key (ledger account.key)
      (ledger' account.key) := by
  cases handled with
  | edited edits => cases edits
  | @addSeat _ owner table seat created checked creation long change =>
    obtain rfl := Option.some.inj (listed.symm.trans checked.seatListed)
    -- nothing is left behind the channel key
    have exactly : (created account.key).data.length = SEAT_DATA_SIZE := by
      split_ifs at creation with absent
      · obtain empty | zeros := creation.data
        · simp [empty, SEAT_DATA_SIZE] at long
        · rw [zeros, List.length_replicate]
      · rw [creation, fits.seat aimed absent]
    have tail : (created account.key).data.drop SEAT_DATA_SIZE = [] :=
      List.drop_eq_nil_of_le exactly.le
    rw [change, tail, List.append_nil]
    refine ⟨by simp [SeatData.serialize], ?_⟩
    split_ifs at creation ⊢ with absent
    · simpa using ⟨creation.owner, creation.funded⟩
    · simp [creation]

theorem Handled.does_edit (documented : runtime.Documented) (edits : instruction.edited.isSome)
    (listed : others[0]? = some account) (aimed : place.slot = 2)
    (fits : place.Fits program.key (ledger account.key))
    (done : (instruction.process runtime ⟨user, program, others⟩).run ledger = .ok ((), ledger')) :
    ∃ table table' : TableData, (ledger account.key).data = table.serialize ∧
      table.edit instruction = .ok table' ∧
      ledger' account.key = { ledger account.key with data := table'.serialize } := by
  obtain ⟨⟨start, stop⟩, region⟩ := Option.isSome_iff_exists.mp edits
  have handled := RoundNetInstruction.process_ok documented done
  cases handled with
  | edited edits' listed' address long =>
    obtain rfl := Option.some.inj (listed.symm.trans listed')
    have present : (ledger account.key).data ≠ [] := by
      intro empty
      rw [empty] at long
      exact absurd (RoundNetInstruction.stop_pos edits') (by simpa using long)
    obtain ⟨table, data⟩ := fits.table aimed present
    rw [RoundNetInstruction.process_edit edits listed address data] at done
    cases outcome : table.edit instruction with
    | error failure => simp [outcome, Except.map] at done
    | ok table' =>
      rw [outcome] at done
      obtain ⟨-, rfl⟩ := Prod.mk.inj (Except.ok.inj done)
      exact ⟨table, table', data, outcome, by simp [Ledger.setData]⟩
  | _ => cases edits

theorem RoundNetInstruction.process_does (documented : runtime.Documented)
    (listed : (user :: program :: others)[instruction.slot]? = some account)
    (aimed : instruction.slot = place.slot) (fits : place.Fits program.key (ledger account.key))
    (notUser : account.key ≠ user.key)
    (done : (instruction.process runtime ⟨user, program, others⟩).run ledger = .ok ((), ledger')) :
    instruction.Does program.key (ledger account.key) (ledger' account.key) := by
  cases instruction with
  | InitTable closed =>
    obtain ⟨table, created, listed', -, absent, creation, rfl⟩ := initTable_ok documented done
    obtain rfl := Option.some.inj (listed.symm.trans listed')
    exact ⟨absent, by simp, by simpa using creation.owner, by simpa using creation.funded⟩
  | DeleteTable =>
    obtain ⟨table, listed', -, present, rfl⟩ := deleteTable_ok done
    obtain rfl := Option.some.inj (listed.symm.trans listed')
    exact ⟨present, Ledger.transfer_all notUser ledger⟩
  | AddBootstrap | RemoveBootstrap | AddChannelArgs | RemoveChannelArgs =>
    exact Handled.does_edit documented rfl listed aimed.symm fits done
  | AddSeat channelKey =>
    exact (RoundNetInstruction.process_ok documented done).does_addSeat listed aimed.symm fits
  | RemoveSeat =>
    have handled := RoundNetInstruction.process_ok documented done
    cases handled with
    | edited edits => cases edits
    | removeSeat checked change =>
      obtain rfl := Option.some.inj (listed.symm.trans checked.seatListed)
      rw [change]
      exact Ledger.transfer_all notUser ledger

theorem Step.asks_call {accounts : List AccountInfo} {input : List UInt8} (address : PublicKey)
    (decoded : Borsh.tryFromSlice RoundNetInstruction.deserialize input = some instruction)
    (listed : accounts[instruction.slot]? = some account) :
    (Step.call accounts input).asks address =
      if account.key = address then some instruction else none := by
  simp [Step.asks, decoded, listed, Option.filter]

theorem Step.change (documented : runtime.Documented)
    (distinct : runtime.Distinct programId known) (place : Place) (within : place.Within known)
    {step : Step} (genuine : step.Genuine runtime programId known)
    (fits : place.Fits programId (ledger (place.address runtime programId)))
    (executed : step.execute runtime programId ledger = some ledger') :
    Change runtime programId place step (ledger (place.address runtime programId))
      (ledger' (place.address runtime programId)) := by
  cases step with
  | call accounts input =>
    obtain ⟨keys, neverSign⟩ := genuine
    simp only [Step.execute] at executed
    split at executed
    next _ done =>
      obtain rfl := Option.some.inj executed
      obtain ⟨user, program, others, instruction, rfl, signed, rfl, decoded, done⟩ :=
        processInstruction_ran done
      have handled := instruction.process_ok documented done
      obtain ⟨account, place', listed, within', aimed, isAddress, frame⟩ := handled.slot keys
      have notUser := neverSign user (by simp) signed place within
      have asks := Step.asks_call (place.address runtime program.key) decoded listed
      by_cases met : account.key = place.address runtime program.key
      · obtain rfl := distinct.same place place' within within' (met.symm.trans isAddress)
        rw [if_pos met] at asks
        rw [← met] at fits notUser ⊢
        exact .did asks aimed.symm
          (instruction.process_does documented listed aimed.symm fits (Ne.symm notUser) done)
      · rw [if_neg met] at asks
        exact .received 0 asks (by simp [Step.funds]) (frame _ (Ne.symm met) (Ne.symm notUser))
    next => cases executed
  | transfer source destination lamports signers =>
    obtain ⟨owned, -, rfl⟩ := documented.transfer _ _ _ _ _ _ executed
    by_cases pays : place.address runtime programId = source
    · exact .spent _ rfl (pays ▸ owned) (Account.ext rfl (by simp) (by simp))
    · by_cases gains : place.address runtime programId = destination
      · refine .received lamports rfl (by simp [Step.funds, gains]) ?_
        rw [gains] at pays ⊢
        simp only [Ledger.transfer]
        rw [Ledger.setLamports_ne pays]
        simp [Ledger.setLamports, Function.update_of_ne pays]
      · have unpaid := Ledger.transfer_ne pays gains ledger lamports
        exact .received 0 rfl (by simp [Step.funds, Ne.symm gains]) unpaid

end Steps

section Runs

variable {runtime : Runtime} {programId : PublicKey} {known : Set PublicKey} {place : Place}
  {account account' : Account} {step : Step}

theorem Change.fits (change : Change runtime programId place step account account')
    (fits : place.Fits programId account) : place.Fits programId account' := by
  cases change with
  | received amount unasked funded change => exact change ▸ fits
  | spent lamports unasked owned change => exact change ▸ fits
  | @did instruction asked aimed does =>
    cases instruction with
    | InitTable closed =>
      cases place with
      | table owner => exact .inr ⟨does.2.2.1, _, does.2.1⟩
      | seat owner sitter => cases aimed
    | DeleteTable => exact does.2 ▸ fits
    | AddSeat channelKey =>
      cases place with
      | table owner => cases aimed
      | seat owner sitter =>
        obtain ⟨data, rest⟩ := does
        refine .inr ⟨?_, _, data⟩
        split_ifs at rest with absent
        · exact rest.1
        · rw [rest.1, (fits.resolve_left absent).1]
    | RemoveSeat => exact does.symm ▸ fits
    | AddBootstrap | RemoveBootstrap | AddChannelArgs | RemoveChannelArgs =>
      cases place with
      | table owner =>
        obtain ⟨table, table', data, -, rfl⟩ := RoundNetInstruction.does_of_edited rfl does
        have present : account.data ≠ [] := fun empty => table.serialize_ne_nil (data ▸ empty)
        exact .inr ⟨(fits.resolve_left present).1, _, rfl⟩
      | seat owner sitter => cases aimed

theorem Place.fits_absent (place : Place) (programId : PublicKey) : place.Fits programId .absent :=
  .inl rfl

variable (documented : runtime.Documented) (distinct : runtime.Distinct programId known)
  (within : place.Within known)

include documented distinct within

theorem executeAll_account (kept : Account → List Step → Prop) {ledger ledger' : Ledger}
    (history : List Step) {transaction : List Step}
    (genuine : ∀ step ∈ transaction, step.Genuine runtime programId known)
    (fits : place.Fits programId (ledger (place.address runtime programId)))
    (initial : kept (ledger (place.address runtime programId)) history)
    (preserved : ∀ account account' history, ∀ step ∈ transaction, place.Fits programId account →
      kept account history → Change runtime programId place step account account' →
        kept account' (history ++ [step]))
    (done : executeAll runtime programId ledger transaction = some ledger') :
    place.Fits programId (ledger' (place.address runtime programId)) ∧
      kept (ledger' (place.address runtime programId)) (history ++ transaction) := by
  apply executeAll_invariant (fun ledger history =>
    place.Fits programId (ledger (place.address runtime programId)) ∧
      kept (ledger (place.address runtime programId)) history) history ⟨fits, initial⟩ _ done
  rintro ledger ledger' history step member ⟨fits, holds⟩ executed
  have change := step.change documented distinct place within (genuine step member) fits executed
  exact ⟨change.fits fits, preserved _ _ _ step member fits holds change⟩

theorem chain_account (kept : Account → List Step → Prop) {initial : Ledger}
    {transactions : List (List Step)}
    (genuine : ∀ transaction ∈ transactions, ∀ step ∈ transaction,
      step.Genuine runtime programId known)
    (fits : place.Fits programId (initial (place.address runtime programId)))
    (holds : kept (initial (place.address runtime programId)) [])
    (preserved : ∀ account account' history, ∀ transaction ∈ transactions, ∀ step ∈ transaction,
      place.Fits programId account → kept account history →
        Change runtime programId place step account account' → kept account' (history ++ [step]))
    (purged : ∀ account history, kept account history → account.lamports = 0 →
      kept .absent history) :
    let reached := (chain runtime programId).run initial transactions
    place.Fits programId (reached.1 (place.address runtime programId)) ∧
      kept (reached.1 (place.address runtime programId)) reached.2 := by
  apply chain_invariant (fun ledger history =>
    place.Fits programId (ledger (place.address runtime programId)) ∧
      kept (ledger (place.address runtime programId)) history) initial transactions ⟨fits, holds⟩
  · rintro ledger ledger' history transaction isTransaction step member ⟨fits, holds⟩ executed
    have change := step.change documented distinct place within
      (genuine transaction isTransaction step member) fits executed
    exact ⟨change.fits fits, preserved _ _ _ transaction isTransaction step member fits holds change⟩
  · rintro ledger history ⟨fits, holds⟩
    unfold Ledger.purge
    split_ifs with poor
    · exact ⟨place.fits_absent programId, purged _ _ holds poor⟩
    · exact ⟨fits, holds⟩

theorem executeAll_fits {ledger ledger' : Ledger} {transaction : List Step}
    (genuine : ∀ step ∈ transaction, step.Genuine runtime programId known)
    (fits : place.Fits programId (ledger (place.address runtime programId)))
    (done : executeAll runtime programId ledger transaction = some ledger') :
    place.Fits programId (ledger' (place.address runtime programId)) :=
  (executeAll_account documented distinct within (fun _ _ => True) [] genuine fits trivial
    (fun _ _ _ _ _ _ _ _ => trivial) done).1

theorem chain_fits {initial : Ledger} {transactions : List (List Step)}
    (genuine : ∀ transaction ∈ transactions, ∀ step ∈ transaction,
      step.Genuine runtime programId known)
    (fits : place.Fits programId (initial (place.address runtime programId))) :
    place.Fits programId (((chain runtime programId).run initial transactions).1
      (place.address runtime programId)) :=
  (chain_account documented distinct within (fun _ _ => True) genuine fits trivial
    (fun _ _ _ _ _ _ _ _ _ _ => trivial) (fun _ _ _ _ => trivial)).1

end Runs

theorem Sample.genuine (accounts : List AccountInfo)
    (listed : ∀ account ∈ accounts, account.key ∈ Sample.keys ∧
      (account.isSigner = true → account.key = Sample.user ∨ account.key = Sample.owner))
    (input : List UInt8) :
    (Step.call accounts input).Genuine Sample.runtime PROGRAM_ID {key | key ∈ Sample.keys} :=
  ⟨fun account member => (listed account member).1, fun account member signed _ within =>
    Sample.signer_not_derived ((listed account member).2 signed) within⟩

end RoundTable.Contract
