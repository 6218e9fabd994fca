import RoundTable.Contract.Authority
import RoundTable.Contract.Transactions

set_option autoImplicit false

namespace RoundTable.Contract

namespace Step

def writesSeat (address : PublicKey) : Step → Bool
  | .call accounts input =>
    match Borsh.tryFromSlice RoundNetInstruction.deserialize input with
    | some (.AddSeat _) => accounts[4]?.any fun seat => seat.key = address
    | _ => false
  | .transfer .. => false

def createsTable (address : PublicKey) : Step → Bool
  | .call accounts input =>
    match Borsh.tryFromSlice RoundNetInstruction.deserialize input with
    | some (.InitTable _) => accounts[2]?.any fun table => table.key = address
    | _ => false
  | .transfer .. => false

def signedBy (key : PublicKey) : Step → Bool
  | .call accounts _ => accounts.any fun account => account.key = key && account.isSigner
  | .transfer _ _ _ signers => key ∈ signers

def keysWithin (known : Set PublicKey) : Step → Prop
  | .call accounts _ => ∀ account ∈ accounts, account.key ∈ known
  | .transfer .. => True

end Step

section Steps

variable {runtime : Runtime} {context : Context} {ledger ledger' : Ledger}
  {instruction : RoundNetInstruction}

theorem Handled.closed_or_creates (handled : Handled runtime context ledger ledger' instruction)
    (key : PublicKey) :
    closedByte (ledger' key) = closedByte (ledger key) ∨
      ∃ closed table, instruction = .InitTable closed ∧ context.others[0]? = some table ∧
        table.key = key := by
  by_cases notInit : ∀ closed, instruction ≠ .InitTable closed
  · exact .inl (handled.closedByte_eq notInit key)
  · push Not at notInit
    obtain ⟨closed, rfl⟩ := notInit
    cases handled with
    | @initTable _ table created listed address absent creation change =>
      by_cases same : table.key = key
      · exact .inr ⟨closed, table, rfl, listed, same⟩
      · left
        rw [change, Ledger.setData_ne (Ne.symm same)]
        simp only [closedByte, (creation.contents key (Ne.symm same)).1]
    | edited edits => cases edits

theorem Handled.data_or_seats (handled : Handled runtime context ledger ledger' instruction)
    {key : PublicKey} (notTable : key ≠ tableAddress runtime context.program.key context.user.key) :
    (ledger' key).data = (ledger key).data ∨
      ∃ channelKey owner table seat, instruction = .AddSeat channelKey ∧
        SeatChecked runtime context ledger owner table seat ∧ seat.key = key := by
  cases handled with
  | initTable listed address absent creation change =>
    left
    rw [change, address, Ledger.setData_ne notTable, (creation.contents key (address ▸ notTable)).1]
  | deleteTable listed address change => simp [change]
  | edited edits listed address long fits change =>
    left
    rw [change, address, Ledger.setData_ne notTable]
  | @addSeat channelKey owner table seat created checked creation long change =>
    by_cases same : seat.key = key
    · exact .inr ⟨channelKey, owner, table, seat, rfl, checked, same⟩
    · left
      rw [change, Ledger.setData_ne (Ne.symm same)]
      split_ifs at creation with absent
      · exact (creation.contents key (Ne.symm same)).1
      · rw [creation]
  | removeSeat checked change => simp [change]

theorem SeatChecked.approved_of_closed {owner table seat : AccountInfo}
    (checked : SeatChecked runtime context ledger owner table seat)
    (closed : closedByte (ledger table.key) = some 1) : owner.isSigner = true := by
  obtain ⟨tableData, rest, read, approved⟩ := checked.approved
  obtain ⟨tableData', rest', read', isClosed⟩ := TableData.deserialize_closed_iff.mpr closed
  obtain ⟨rfl, -⟩ := Prod.mk.inj (Option.some.inj (read.symm.trans read'))
  exact approved isClosed

end Steps

section History

variable {runtime : Runtime} {programId : PublicKey} {known : Set PublicKey}

structure SeatHistory (runtime : Runtime) (programId : PublicKey) (initial : Ledger)
    (owner sitter : PublicKey) (ledger : Ledger) (history : List Step) : Prop where
  written : (∃ step ∈ history, step.writesSeat (seatAddress runtime programId owner sitter)) ∨
    (ledger (seatAddress runtime programId owner sitter)).data =
        (initial (seatAddress runtime programId owner sitter)).data ∨
      (ledger (seatAddress runtime programId owner sitter)).data = []
  approved : closedByte (ledger (tableAddress runtime programId owner)) = some 1 →
    ∀ before step after, history = before ++ step :: after →
      step.writesSeat (seatAddress runtime programId owner sitter) →
      (∀ later ∈ after, ¬later.writesSeat (seatAddress runtime programId owner sitter)) →
        step.signedBy owner ∨
          ∃ later ∈ after, later.createsTable (tableAddress runtime programId owner)

theorem SeatHistory.snoc {initial ledger ledger' : Ledger} {owner sitter : PublicKey}
    {history : List Step} {step : Step}
    (holds : SeatHistory runtime programId initial owner sitter ledger history)
    (data : (ledger' (seatAddress runtime programId owner sitter)).data =
        (ledger (seatAddress runtime programId owner sitter)).data ∨
      step.writesSeat (seatAddress runtime programId owner sitter))
    (closed : closedByte (ledger' (tableAddress runtime programId owner)) =
        closedByte (ledger (tableAddress runtime programId owner)) ∨
      step.createsTable (tableAddress runtime programId owner))
    (consent : step.writesSeat (seatAddress runtime programId owner sitter) →
      closedByte (ledger' (tableAddress runtime programId owner)) = some 1 → step.signedBy owner) :
    SeatHistory runtime programId initial owner sitter ledger' (history ++ [step]) := by
  constructor
  · obtain kept | writes := data
    · rw [kept]
      exact holds.written.imp_left fun ⟨earlier, member, writes⟩ =>
        ⟨earlier, List.mem_append_left _ member, writes⟩
    · exact .inl ⟨step, by simp, writes⟩
  · intro isClosed before last after split writes none
    obtain ⟨after, rfl⟩ | ⟨rfl, rfl, rfl⟩ : (∃ after', after = after' ++ [step]) ∨
        history = before ∧ step = last ∧ [] = after := by
      cases after using List.reverseRecOn with
      | nil =>
        obtain ⟨same, isStep⟩ := List.append_inj' split rfl
        exact .inr ⟨same, by simpa using isStep, rfl⟩
      | append_singleton after final =>
        rw [← List.cons_append, ← List.append_assoc] at split
        obtain ⟨-, isStep⟩ := List.append_inj' split rfl
        obtain rfl : step = final := by simpa using isStep
        exact .inl ⟨after, rfl⟩
    · rw [← List.cons_append, ← List.append_assoc] at split
      have split := List.append_cancel_right split
      obtain kept | creates := closed
      · refine (holds.approved (kept ▸ isClosed) before last after split writes
          fun later member => none later (List.mem_append_left _ member)).imp_right ?_
        exact fun ⟨later, member, creates⟩ => ⟨later, List.mem_append_left _ member, creates⟩
      · exact .inr ⟨step, by simp, creates⟩
    · exact .inl (consent writes isClosed)

theorem SeatHistory.call (documented : runtime.Documented)
    (distinct : runtime.Distinct programId known) {initial ledger ledger' : Ledger}
    {owner sitter : PublicKey} (ownerKnown : owner ∈ known) (sitterKnown : sitter ∈ known)
    {history : List Step} {accounts : List AccountInfo} {input : List UInt8}
    (within : ∀ account ∈ accounts, account.key ∈ known)
    (holds : SeatHistory runtime programId initial owner sitter ledger history)
    (done : (processInstruction runtime programId accounts input).run ledger = .ok ((), ledger')) :
    SeatHistory runtime programId initial owner sitter ledger'
      (history ++ [.call accounts input]) := by
  obtain ⟨user, program, others, instruction, rfl, signed, rfl, decoded, handled⟩ :=
    processInstruction_ok documented done
  have userKnown := within user (by simp)
  apply holds.snoc
  · have notTable : seatAddress runtime program.key owner sitter ≠
        tableAddress runtime program.key user.key := by
      intro met
      have same := distinct.same (.seat owner sitter) (.table user.key)
        ⟨ownerKnown, sitterKnown⟩ userKnown met
      cases same
    refine (handled.data_or_seats notTable).imp_right ?_
    rintro ⟨channelKey, tableOwner, table, seat, rfl, checked, isSeat⟩
    simp [Step.writesSeat, decoded, checked.seatListed, isSeat]
  · refine (handled.closed_or_creates _).imp_right ?_
    rintro ⟨closed, table, rfl, listed, isTable⟩
    simp [Step.createsTable, decoded, listed, isTable]
  · intro writes closed
    cases instruction with
    | AddSeat channelKey =>
      rw [handled.closedByte_eq (by simp)] at closed
      cases handled with
      | edited edits => cases edits
      | @addSeat _ tableOwner table seat created checked creation long change =>
        have isSeat : seat.key = seatAddress runtime program.key owner sitter := by
          simpa [Step.writesSeat, decoded, checked.seatListed] using writes
        have tableOwnerKnown : tableOwner.key ∈ known :=
          within tableOwner (by simp [List.mem_of_getElem? checked.ownerListed])
        have same := distinct.same (.seat tableOwner.key user.key) (.seat owner sitter)
          ⟨tableOwnerKnown, userKnown⟩ ⟨ownerKnown, sitterKnown⟩
          (checked.seatKey.symm.trans isSeat)
        obtain ⟨rfl, -⟩ := Place.seat.inj same
        have consent := checked.approved_of_closed (checked.tableKey ▸ closed)
        simp only [Step.signedBy, List.any_eq_true, Bool.and_eq_true, decide_eq_true_eq]
        exact ⟨tableOwner, by simp [List.mem_of_getElem? checked.ownerListed], rfl, consent⟩
    | _ => simp [Step.writesSeat, decoded] at writes

theorem SeatHistory.step (documented : runtime.Documented)
    (distinct : runtime.Distinct programId known) {initial ledger ledger' : Ledger}
    {owner sitter : PublicKey} (ownerKnown : owner ∈ known) (sitterKnown : sitter ∈ known)
    {history : List Step} {step : Step} (within : step.keysWithin known)
    (holds : SeatHistory runtime programId initial owner sitter ledger history)
    (executed : step.execute runtime programId ledger = some ledger') :
    SeatHistory runtime programId initial owner sitter ledger' (history ++ [step]) := by
  cases step with
  | call accounts input =>
    simp only [Step.execute] at executed
    split at executed
    next after done =>
      obtain rfl := Option.some.inj executed
      exact holds.call documented distinct ownerKnown sitterKnown within done
    next => cases executed
  | transfer source destination lamports signers =>
    obtain ⟨-, -, rfl⟩ := documented.transfer _ _ _ _ _ _ executed
    apply holds.snoc
    · simp
    · simp [closedByte]
    · simp [Step.writesSeat]

theorem SeatHistory.purge {initial ledger : Ledger} {owner sitter : PublicKey} {history : List Step}
    (holds : SeatHistory runtime programId initial owner sitter ledger history) :
    SeatHistory runtime programId initial owner sitter ledger.purge history := by
  constructor
  · refine holds.written.imp_right fun data => ?_
    unfold Ledger.purge
    split_ifs
    · exact .inr rfl
    · exact data
  · intro closed
    apply holds.approved
    unfold Ledger.purge at closed
    split_ifs at closed
    · cases closed
    · exact closed

theorem chain_seatHistory (documented : runtime.Documented)
    (distinct : runtime.Distinct programId known) (initial : Ledger)
    (transactions : List (List Step))
    (within : ∀ transaction ∈ transactions, ∀ step ∈ transaction, step.keysWithin known)
    {owner sitter : PublicKey} (ownerKnown : owner ∈ known) (sitterKnown : sitter ∈ known) :
    SeatHistory runtime programId initial owner sitter
      ((chain runtime programId).run initial transactions).1
      ((chain runtime programId).run initial transactions).2 := by
  apply chain_invariant (SeatHistory runtime programId initial owner sitter) initial transactions
  · exact ⟨.inr (.inl rfl), fun _ before step after split => by simp at split⟩
  · intro ledger ledger' history transaction isTransaction step isStep holds executed
    exact holds.step documented distinct ownerKnown sitterKnown
      (within transaction isTransaction step isStep) executed
  · exact fun ledger history holds => holds.purge

/-- The last `AddSeat` of a seat at a closed table had the signature of the owner, or the table was
created after it. A seat that no `AddSeat` of the run has written was there before the run. -/
theorem closed_table_seats (documented : runtime.Documented)
    (distinct : runtime.Distinct programId known) (initial : Ledger)
    (transactions : List (List Step))
    (within : ∀ transaction ∈ transactions, ∀ step ∈ transaction, step.keysWithin known)
    {owner sitter : PublicKey} (ownerKnown : owner ∈ known) (sitterKnown : sitter ∈ known) :
    let table := tableAddress runtime programId owner
    let seat := seatAddress runtime programId owner sitter
    let reached := (chain runtime programId).run initial transactions
    (∃ tableData rest, TableData.deserialize (reached.1 table).data = some (tableData, rest) ∧
      tableData.closed = true) → (reached.1 seat).data ≠ [] →
    (∃ before step after, reached.2 = before ++ step :: after ∧ step.writesSeat seat ∧
      (∀ later ∈ after, ¬later.writesSeat seat) ∧
      (step.signedBy owner ∨ ∃ later ∈ after, later.createsTable table)) ∨
    ((∀ step ∈ reached.2, ¬step.writesSeat seat) ∧
      (reached.1 seat).data = (initial seat).data) := by
  intro table seat reached closed seated
  have holds := chain_seatHistory documented distinct initial transactions within ownerKnown
    sitterKnown
  by_cases written : ∃ step ∈ reached.2, step.writesSeat seat
  · obtain ⟨before, step, after, split, writes, none⟩ := Reactive.exists_last _ written
    exact .inl ⟨before, step, after, split, writes, none,
      holds.approved (TableData.deserialize_closed_iff.mp closed) before step after split writes none⟩
  · push Not at written
    obtain ⟨step, member, writes⟩ | same | empty := holds.written
    · exact absurd writes (by simpa using written step member)
    · exact .inr ⟨by simpa using written, same⟩
    · exact absurd empty seated

def Sample.reopened : List (List Step) :=
  [[.call tableAccounts [0, 0]], [.call (seatAccounts false) (6 :: user.bytes)],
    [.call tableAccounts [1]], [.call tableAccounts [0, 1]]]

theorem closed_table_seat_unapproved :
    let reached := (chain Sample.runtime PROGRAM_ID).run Sample.funded Sample.reopened
    (∃ tableData rest, TableData.deserialize
        (reached.1 (tableAddress Sample.runtime PROGRAM_ID Sample.owner)).data =
          some (tableData, rest) ∧ tableData.closed = true) ∧
    (reached.1 (seatAddress Sample.runtime PROGRAM_ID Sample.owner Sample.user)).data ≠ [] ∧
    ∃ before step after, reached.2 = before ++ step :: after ∧
      step.writesSeat (seatAddress Sample.runtime PROGRAM_ID Sample.owner Sample.user) ∧
      (∀ later ∈ after,
        ¬later.writesSeat (seatAddress Sample.runtime PROGRAM_ID Sample.owner Sample.user)) ∧
      ¬step.signedBy Sample.owner := by
  refine ⟨TableData.deserialize_closed_iff.mpr (by decide +kernel), by decide +kernel,
    [.call Sample.tableAccounts [0, 0]], .call (Sample.seatAccounts false) (6 :: Sample.user.bytes),
    [.call Sample.tableAccounts [1], .call Sample.tableAccounts [0, 1]], ?_⟩
  decide +kernel

theorem closed_table_seats_reopened :
    let table := tableAddress Sample.runtime PROGRAM_ID Sample.owner
    let seat := seatAddress Sample.runtime PROGRAM_ID Sample.owner Sample.user
    let reached := (chain Sample.runtime PROGRAM_ID).run Sample.funded Sample.reopened
    (∃ before step after, reached.2 = before ++ step :: after ∧ step.writesSeat seat ∧
      (∀ later ∈ after, ¬later.writesSeat seat) ∧
      (step.signedBy Sample.owner ∨ ∃ later ∈ after, later.createsTable table)) ∨
    ((∀ step ∈ reached.2, ¬step.writesSeat seat) ∧
      (reached.1 seat).data = (Sample.funded seat).data) := by
  have within : ∀ transaction ∈ Sample.reopened, ∀ step ∈ transaction,
      step.keysWithin {key | key ∈ Sample.keys} := by
    have ownerKeys : ∀ account ∈ Sample.tableAccounts, account.key ∈ Sample.keys := by decide
    have seatKeys : ∀ account ∈ Sample.seatAccounts false, account.key ∈ Sample.keys := by decide
    simp only [Sample.reopened, List.forall_mem_cons, List.not_mem_nil, IsEmpty.forall_iff,
      implies_true, and_true]
    exact ⟨ownerKeys, seatKeys, ownerKeys, ownerKeys⟩
  have ownerKnown : Sample.owner ∈ {key | key ∈ Sample.keys} := by simp [Sample.keys]
  have sitterKnown : Sample.user ∈ {key | key ∈ Sample.keys} := by simp [Sample.keys]
  exact closed_table_seats Sample.runtime_documented Sample.distinct Sample.funded Sample.reopened
    within ownerKnown sitterKnown (TableData.deserialize_closed_iff.mpr (by decide +kernel))
    (by decide +kernel)

end History

end RoundTable.Contract
