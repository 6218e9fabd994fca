import RoundTable.Contract.Sample

set_option autoImplicit false

namespace RoundTable.Contract

def closedByte (account : Account) : Option UInt8 := account.data[1024]?

namespace Created

variable {account payer programId : PublicKey} {space : Nat} {ledger ledger' : Ledger}

theorem ne (created : Created account payer programId space ledger ledger') {key : PublicKey}
    (notAccount : key ≠ account) (notPayer : key ≠ payer) : ledger' key = ledger key := by
  obtain ⟨data, owner⟩ := created.contents key notAccount
  exact Account.ext (created.lamports key notAccount notPayer) data owner

theorem closedByte_eq (created : Created account payer programId SEAT_DATA_SIZE ledger ledger')
    (absent : (ledger account).data = []) (key : PublicKey) :
    closedByte (ledger' key) = closedByte (ledger key) := by
  by_cases same : key = account
  · subst same
    obtain empty | zeros := created.data
    · simp [closedByte, absent, empty]
    · simp [closedByte, absent, zeros, SEAT_DATA_SIZE]
  · simp only [closedByte, (created.contents key same).1]

end Created

section Handled

variable {runtime : Runtime} {context : Context} {ledger ledger' : Ledger}
  {instruction : RoundNetInstruction}

theorem Handled.changed (handled : Handled runtime context ledger ledger' instruction)
    {key : PublicKey} (changed : ledger' key ≠ ledger key) :
    key = context.user.key ∨
      key = tableAddress runtime context.program.key context.user.key ∨
      ∃ owner table seat, SeatChecked runtime context ledger owner table seat ∧ key = seat.key := by
  by_contra! elsewhere
  obtain ⟨notUser, notTable, notSeat⟩ := elsewhere
  apply changed
  cases handled with
  | initTable listed address absent creation change =>
    rw [change, address, Ledger.setData_ne notTable]
    exact creation.ne (address ▸ notTable) notUser
  | deleteTable listed address change =>
    rw [change, address, Ledger.transfer_ne notTable notUser]
  | edited edits listed address long fits change =>
    rw [change, address, Ledger.setData_ne notTable]
  | addSeat checked creation long change =>
    have notSeat := notSeat _ _ _ checked
    rw [change, Ledger.setData_ne notSeat]
    split_ifs at creation with absent
    · exact creation.ne notSeat notUser
    · rw [creation]
  | removeSeat checked change =>
    rw [change, Ledger.transfer_ne (notSeat _ _ _ checked) notUser]

theorem Handled.edits (handled : Handled runtime context ledger ledger' instruction)
    {start stop : Nat} (edits : instruction.edited = some (start, stop)) :
    let table := tableAddress runtime context.program.key context.user.key
    ∃ region, region.length = stop - start ∧ stop ≤ (ledger table).data.length ∧
      ledger' = ledger.setData table
        ((ledger table).data.take start ++ region ++ (ledger table).data.drop stop) := by
  cases handled with
  | edited edits' listed address long fits change =>
    obtain ⟨rfl, rfl⟩ := Prod.mk.inj (Option.some.inj (edits.symm.trans edits'))
    exact ⟨_, fits, address ▸ long, address ▸ change⟩
  | _ => cases edits

theorem getElem?_edited {data region : List UInt8} {start stop i : Nat} (long : stop ≤ data.length)
    (ordered : start ≤ stop) (fits : region.length = stop - start) (outside : i < start ∨ stop ≤ i) :
    (data.take start ++ region ++ data.drop stop)[i]? = data[i]? := by
  have front : (data.take start).length = start := List.length_take_of_le (ordered.trans long)
  obtain before | after := outside
  · rw [List.append_assoc, List.getElem?_append_left (by omega), List.getElem?_take_of_lt before]
  · rw [List.getElem?_append_right (by rw [List.length_append]; omega), List.getElem?_drop]
    congr 1
    rw [List.length_append]
    omega

theorem RoundNetInstruction.edited_bounds {start stop : Nat}
    (edits : instruction.edited = some (start, stop)) : start ≤ stop ∧ stop ≤ 1024 := by
  cases instruction <;> simp only [RoundNetInstruction.edited, Option.some.injEq, Prod.mk.injEq,
    reduceCtorEq] at edits <;> omega

theorem Handled.closedByte_eq (handled : Handled runtime context ledger ledger' instruction)
    (notInit : ∀ closed, instruction ≠ .InitTable closed) (key : PublicKey) :
    closedByte (ledger' key) = closedByte (ledger key) := by
  cases handled with
  | initTable => exact absurd rfl (notInit _)
  | deleteTable listed address change => simp [change, closedByte]
  | @edited _ start stop table region edits listed address long fits change =>
    obtain ⟨ordered, below⟩ := RoundNetInstruction.edited_bounds edits
    by_cases same : key = table.key
    · simp only [change, same, closedByte, Ledger.setData_data]
      exact getElem?_edited long ordered fits (.inr below)
    · rw [change, Ledger.setData_ne same]
  | @addSeat channelKey owner table seat created checked creation long change =>
    -- the seat data ends before the closed flag, or is left alone from byte 32 on
    have written : closedByte (ledger' key) = closedByte (created key) := by
      by_cases same : key = seat.key
      · simp only [change, same, closedByte, Ledger.setData_data]
        have width := channelKey.length_eq
        rw [List.getElem?_append_right (by omega), List.getElem?_drop]
        congr 1
        rw [width]
        rfl
      · rw [change, Ledger.setData_ne same]
    rw [written]
    split_ifs at creation with absent
    · exact creation.closedByte_eq absent key
    · rw [creation]
  | removeSeat checked change => simp [change, closedByte]

end Handled

section Authority

variable {runtime : Runtime} {programId : PublicKey} {known : Set PublicKey}
  {accounts : List AccountInfo} {ledger ledger' : Ledger}

/-- No derived address signs an instruction that a transaction lists. -/
def DerivedNeverSign (runtime : Runtime) (programId : PublicKey) (known : Set PublicKey)
    (accounts : List AccountInfo) : Prop :=
  ∀ account ∈ accounts, account.isSigner = true →
    ∀ place : Place, place.Within known → account.key ≠ place.address runtime programId

structure Authorised (runtime : Runtime) (programId : PublicKey) (known : Set PublicKey)
    (accounts : List AccountInfo) (instruction : RoundNetInstruction) (ledger ledger' : Ledger)
    (user : AccountInfo) : Prop where
  first : accounts[0]? = some user
  signed : user.isSigner = true
  frame : ∀ key, ledger' key ≠ ledger key →
    key = user.key ∨ key = tableAddress runtime programId user.key ∨
      ∃ owner, key = seatAddress runtime programId owner user.key
  seats : ∀ owner ∈ known, ∀ sitter ∈ known,
    ledger' (seatAddress runtime programId owner sitter) ≠
        ledger (seatAddress runtime programId owner sitter) →
      sitter = user.key ∧ ∃ tableData rest,
        TableData.deserialize (ledger (tableAddress runtime programId owner)).data =
          some (tableData, rest) ∧
        (tableData.closed = true → ∃ account ∈ accounts, account.key = owner ∧ account.isSigner = true)
  edits : ∀ start stop, instruction.edited = some (start, stop) →
    let table := tableAddress runtime programId user.key
    (∀ key, key ≠ table → ledger' key = ledger key) ∧
      (ledger' table).owner = (ledger table).owner ∧
      (ledger' table).lamports = (ledger table).lamports ∧
      ∀ i, i < start ∨ stop ≤ i → (ledger' table).data[i]? = (ledger table).data[i]?
  closed : (∀ closed, instruction ≠ .InitTable closed) →
    ∀ key, closedByte (ledger' key) = closedByte (ledger key)

theorem Handled.seats {user program : AccountInfo} {others : List AccountInfo}
    {instruction : RoundNetInstruction} (distinct : runtime.Distinct program.key known)
    (listed : ∀ account ∈ user :: program :: others, account.key ∈ known)
    (neverSign : DerivedNeverSign runtime program.key known (user :: program :: others))
    (signed : user.isSigner = true)
    (handled : Handled runtime ⟨user, program, others⟩ ledger ledger' instruction)
    {owner sitter : PublicKey} (ownerKnown : owner ∈ known) (sitterKnown : sitter ∈ known)
    (changed : ledger' (seatAddress runtime program.key owner sitter) ≠
      ledger (seatAddress runtime program.key owner sitter)) :
    sitter = user.key ∧ ∃ tableOwner table seat,
      SeatChecked runtime ⟨user, program, others⟩ ledger tableOwner table seat ∧
        tableOwner.key = owner := by
  have userKnown := listed user (by simp)
  obtain isUser | isTable | ⟨tableOwner, table, seat, checked, isSeat⟩ := handled.changed changed
  · exact absurd isUser.symm
      (neverSign user (by simp) signed (.seat owner sitter) ⟨ownerKnown, sitterKnown⟩)
  · have met := distinct.same (.seat owner sitter) (.table user.key)
      ⟨ownerKnown, sitterKnown⟩ userKnown isTable
    cases met
  · have tableOwnerKnown : tableOwner.key ∈ known :=
      listed tableOwner (by simp [List.mem_of_getElem? checked.ownerListed])
    have met := distinct.same (.seat owner sitter) (.seat tableOwner.key user.key)
      ⟨ownerKnown, sitterKnown⟩ ⟨tableOwnerKnown, userKnown⟩ (isSeat.trans checked.seatKey)
    obtain ⟨rfl, rfl⟩ := Place.seat.inj met
    exact ⟨rfl, tableOwner, table, seat, checked, rfl⟩

theorem processInstruction_authorised (documented : runtime.Documented)
    (distinct : runtime.Distinct programId known)
    (listed : ∀ account ∈ accounts, account.key ∈ known)
    (neverSign : DerivedNeverSign runtime programId known accounts) {input : List UInt8}
    (done : (processInstruction runtime programId accounts input).run ledger = .ok ((), ledger')) :
    ∃ instruction user,
      Borsh.tryFromSlice RoundNetInstruction.deserialize input = some instruction ∧
      Authorised runtime programId known accounts instruction ledger ledger' user := by
  obtain ⟨user, program, others, instruction, rfl, signed, rfl, decoded, handled⟩ :=
    processInstruction_ok documented done
  refine ⟨instruction, user, decoded, rfl, signed, ?_, ?_, ?_, handled.closedByte_eq⟩
  · intro key changed
    obtain isUser | isTable | ⟨owner, table, seat, checked, isSeat⟩ := handled.changed changed
    · exact .inl isUser
    · exact .inr (.inl isTable)
    · exact .inr (.inr ⟨owner.key, isSeat.trans checked.seatKey⟩)
  · intro owner ownerKnown sitter sitterKnown changed
    obtain ⟨rfl, tableOwner, table, seat, checked, rfl⟩ :=
      handled.seats distinct listed neverSign signed ownerKnown sitterKnown changed
    obtain ⟨tableData, rest, read, approved⟩ := checked.approved
    refine ⟨rfl, tableData, rest, checked.tableKey ▸ read, fun closed => ?_⟩
    exact ⟨tableOwner, by simp [List.mem_of_getElem? checked.ownerListed], rfl, approved closed⟩
  · intro start stop edits
    obtain ⟨region, fits, long, rfl⟩ := handled.edits edits
    obtain ⟨ordered, -⟩ := RoundNetInstruction.edited_bounds edits
    refine ⟨fun key other => Ledger.setData_ne other _ _, by simp, by simp, fun i outside => ?_⟩
    rw [Ledger.setData_data]
    exact getElem?_edited long ordered fits outside

theorem processInstruction_authorised_seat : ∃ ledger' instruction user,
    (processInstruction Sample.runtime PROGRAM_ID (Sample.seatAccounts true) (6 :: Sample.user.bytes)).run
        Sample.closedTable = .ok ((), ledger') ∧
      Borsh.tryFromSlice RoundNetInstruction.deserialize (6 :: Sample.user.bytes) = some instruction ∧
      Authorised Sample.runtime PROGRAM_ID {key | key ∈ Sample.keys} (Sample.seatAccounts true) instruction
        Sample.closedTable ledger' user := by
  have listed : ∀ account ∈ (Sample.seatAccounts true), account.key ∈ Sample.keys := by decide
  have signers : ∀ account ∈ (Sample.seatAccounts true), account.isSigner = true →
      account.key = Sample.user ∨ account.key = Sample.owner := by decide
  have succeeds : ((processInstruction Sample.runtime PROGRAM_ID (Sample.seatAccounts true)
      (6 :: Sample.user.bytes)).run Sample.closedTable).isOk = true := by decide +kernel
  obtain ⟨⟨⟨⟩, ledger'⟩, done⟩ := Attempt.exists_of_isOk succeeds
  obtain ⟨instruction, user, decoded, authorised⟩ :=
    processInstruction_authorised Sample.runtime_documented Sample.distinct listed
      (fun account member signed place within =>
        Sample.signer_not_derived (signers account member signed) within) done
  exact ⟨ledger', instruction, user, done, decoded, authorised⟩

end Authority

end RoundTable.Contract
