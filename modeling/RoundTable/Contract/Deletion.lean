import RoundTable.Contract.Creation

set_option autoImplicit false

namespace RoundTable.Contract

-- The instructions that succeed only on an existing table, a removal of a seat excepted.
def Step.usesTable (address : PublicKey) : Step → Bool
  | .call accounts input =>
    match Borsh.tryFromSlice RoundNetInstruction.deserialize input with
    | some (.AddSeat _) => accounts[3]?.any fun table => table.key = address
    | some .DeleteTable | some (.AddBootstrap _) | some (.RemoveBootstrap _)
    | some (.AddChannelArgs _) | some (.RemoveChannelArgs _) =>
      accounts[2]?.any fun table => table.key = address
    | _ => false
  | .transfer .. => false

section Deletion

variable {runtime : Runtime} {programId owner : PublicKey} {known : Set PublicKey}
  {account account' : Account} {step : Step}

theorem Handled.table_of_edited {context : Context} {ledger ledger' : Ledger}
    {instruction : RoundNetInstruction} {table : AccountInfo}
    (handled : Handled runtime context ledger ledger' instruction)
    (edits : instruction.edited.isSome) (listed : context.others[0]? = some table) :
    (ledger table.key).data ≠ [] := by
  intro empty
  cases handled with
  | edited edits' listed' address long =>
    obtain rfl := Option.some.inj (listed.symm.trans listed')
    rw [empty] at long
    exact absurd (RoundNetInstruction.stop_pos edits') (by simpa using long)
  | _ => cases edits

theorem Step.usesTable_fails (documented : runtime.Documented) {ledger : Ledger}
    {address : PublicKey} (empty : (ledger address).data = [])
    (uses : step.usesTable address = true) :
    step.execute runtime programId ledger = none := by
  cases step with
  | transfer => cases uses
  | call accounts input =>
    simp only [Step.execute]
    split
    next ledger' done =>
      obtain ⟨user, program, others, instruction, rfl, -, -, decoded, done⟩ :=
        processInstruction_ran done
      have handled := instruction.process_ok documented done
      simp only [Step.usesTable, decoded] at uses
      cases instruction with
      | AddSeat channelKey =>
        obtain ⟨table, listed, isTable⟩ := (Option.any_eq_true _ _).mp uses
        cases handled with
        | edited edits => cases edits
        | addSeat checked =>
          obtain rfl := Option.some.inj (listed.symm.trans checked.tableListed)
          obtain ⟨tableData, rest, read, -⟩ := checked.approved
          rw [of_decide_eq_true isTable, empty] at read
          cases read
      | DeleteTable =>
        obtain ⟨table, listed, isTable⟩ := (Option.any_eq_true _ _).mp uses
        obtain ⟨table', listed', -, present, -⟩ := deleteTable_ok done
        obtain rfl := Option.some.inj (listed.symm.trans listed')
        exact absurd (of_decide_eq_true isTable ▸ empty) present
      | AddBootstrap | RemoveBootstrap | AddChannelArgs | RemoveChannelArgs =>
        obtain ⟨table, listed, isTable⟩ := (Option.any_eq_true _ _).mp uses
        exact absurd (of_decide_eq_true isTable ▸ empty) (handled.table_of_edited rfl listed)
      | InitTable | RemoveSeat => cases uses
    next => rfl

theorem Step.usesTable_of_asks {address : PublicKey} {instruction : RoundNetInstruction}
    (asked : step.asks address = some instruction)
    (uses : instruction = .DeleteTable ∨ instruction.edited.isSome = true) :
    step.usesTable address = true := by
  cases step with
  | transfer => cases asked
  | call accounts input =>
    obtain ⟨decoded, listed⟩ := Option.filter_eq_some_iff.mp asked
    simp only [Step.usesTable, decoded]
    cases instruction <;> simp_all [RoundNetInstruction.slot, RoundNetInstruction.edited]

structure Drained (programId address : PublicKey) (data : List UInt8) (account : Account)
    (after : List Step) : Prop where
  owner : account.owner = programId
  data : account.data = data
  funded : 0 < account.lamports ↔ ∃ step ∈ after, step.funds address = true

theorem Change.drained {place : Place} (isTable : place.slot = 2)
    (change : Change runtime programId place step account account')
    (fits : place.Fits programId account)
    (asked : step.asks (place.address runtime programId) = some .DeleteTable) :
    ∃ table : TableData, Drained programId (place.address runtime programId) table.serialize account'
      [] := by
  cases change with
  | received amount unasked => cases unasked.symm.trans asked
  | spent lamports unasked => cases unasked.symm.trans asked
  | did asked' aimed does =>
    obtain rfl := Option.some.inj (asked.symm.trans asked')
    obtain ⟨present, rfl⟩ := does
    obtain ⟨owned, contents⟩ := fits.resolve_left present
    cases place with
    | table owner =>
      obtain ⟨table, data⟩ := contents
      exact ⟨table, owned, data, by simp⟩
    | seat => cases isTable

theorem Drained.snoc (foreign : programId ≠ systemProgramId) {place : Place}
    (isTable : place.slot = 2) {table : TableData} {after : List Step}
    (drained : Drained programId (place.address runtime programId) table.serialize account after)
    (unused : step.usesTable (place.address runtime programId) = false)
    (change : Change runtime programId place step account account') :
    Drained programId (place.address runtime programId) table.serialize account'
      (after ++ [step]) := by
  cases change with
  | received amount unasked funded change =>
    subst change
    refine ⟨drained.owner, drained.data, ?_⟩
    have before := drained.funded
    simp only [List.mem_append, List.mem_singleton, or_and_right, exists_or, exists_eq_left,
      ← before, ← funded]
    omega
  | spent lamports unasked owned => exact absurd (drained.owner.symm.trans owned) foreign
  | @did instruction asked aimed does =>
    cases instruction with
    | InitTable closed => exact absurd (drained.data.symm.trans does.1) table.serialize_ne_nil
    | DeleteTable =>
      rw [Step.usesTable_of_asks asked (.inl rfl)] at unused
      cases unused
    | AddSeat | RemoveSeat => cases aimed.trans isTable
    | AddBootstrap | RemoveBootstrap | AddChannelArgs | RemoveChannelArgs =>
      rw [Step.usesTable_of_asks asked (.inr rfl)] at unused
      cases unused

theorem Change.stays_empty {place : Place} (isTable : place.slot = 2)
    (notCreated : ∀ closed, step.asks (place.address runtime programId) ≠ some (.InitTable closed))
    (change : Change runtime programId place step account account') (empty : account.data = []) :
    account'.data = [] := by
  cases change with
  | received amount unasked funded change => exact change ▸ empty
  | spent lamports unasked owned change => exact change ▸ empty
  | @did instruction asked aimed does =>
    cases instruction with
    | InitTable closed => exact absurd asked (notCreated closed)
    | DeleteTable => exact absurd empty does.1
    | AddSeat | RemoveSeat => cases aimed.trans isTable
    | AddBootstrap | RemoveBootstrap | AddChannelArgs | RemoveChannelArgs =>
      obtain ⟨table, table', data, -⟩ := RoundNetInstruction.does_of_edited rfl does
      exact absurd (data.symm.trans empty) table.serialize_ne_nil

section Runs

variable (documented : runtime.Documented) (distinct : runtime.Distinct programId known)
  (ownerKnown : owner ∈ known)

include documented distinct ownerKnown

theorem executeAll_drained (foreign : programId ≠ systemProgramId) {ledger committed : Ledger}
    {before after : List Step} {delete : Step}
    (genuine : ∀ step ∈ before ++ delete :: after, step.Genuine runtime programId known)
    (fits : (Place.table owner).Fits programId (ledger (tableAddress runtime programId owner)))
    (deletes : delete.asks (tableAddress runtime programId owner) = some .DeleteTable)
    (unused : ∀ step ∈ after, step.usesTable (tableAddress runtime programId owner) = false)
    (executed : executeAll runtime programId ledger (before ++ delete :: after) = some committed) :
    ∃ table : TableData, Drained programId (tableAddress runtime programId owner) table.serialize
      (committed (tableAddress runtime programId owner)) after := by
  have within : (Place.table owner).Within known := ownerKnown
  obtain ⟨middle, reached, executed⟩ := executeAll_append.mp executed
  obtain ⟨deleted, deletion, rest⟩ := executeAll_cons.mp executed
  have fitsMiddle := executeAll_fits documented distinct within
    (fun step member => genuine step (by simp [member])) fits reached
  have change := delete.change documented distinct _ within (genuine delete (by simp)) fitsMiddle
    deletion
  obtain ⟨table, drained⟩ := change.drained rfl fitsMiddle deletes
  have final := (executeAll_account documented distinct within _ []
    (fun step member => genuine step (by simp [member])) (change.fits fitsMiddle) drained
    (fun account account' history step member _ holds change =>
      holds.snoc foreign rfl (unused step member) change) rest).2
  exact ⟨table, final⟩

theorem chain_stays_empty {ledger middle : Ledger} {later : List (List Step)} {started : List Step}
    (genuine : ∀ transaction ∈ later ++ [started], ∀ step ∈ transaction,
      step.Genuine runtime programId known)
    (empty : (ledger (tableAddress runtime programId owner)).data = [])
    (notCreated : ∀ step ∈ ((chain runtime programId).run ledger later).2 ++ started, ∀ closed,
      step.asks (tableAddress runtime programId owner) ≠ some (.InitTable closed))
    (executed : executeAll runtime programId ((chain runtime programId).run ledger later).1 started =
      some middle) :
    (((chain runtime programId).run ledger later).1 (tableAddress runtime programId owner)).data =
        [] ∧
      (middle (tableAddress runtime programId owner)).data = [] := by
  have within : (Place.table owner).Within known := ownerKnown
  let kept : Account → List Step → Prop := fun account history =>
    (∀ step ∈ history, ∀ closed,
      step.asks (tableAddress runtime programId owner) ≠ some (.InitTable closed)) →
        account.data = []
  have next (account account' : Account) (history : List Step) (step : Step)
      (holds : kept account history)
      (change : Change runtime programId (.table owner) step account account') :
      kept account' (history ++ [step]) := by
    intro notCreated
    apply change.stays_empty rfl
    · exact notCreated step (by simp)
    · exact holds fun earlier member => notCreated earlier (by simp [member])
  obtain ⟨fits, reached⟩ := chain_account documented distinct within kept
    (fun transaction member => genuine transaction (List.mem_append_left _ member)) (.inl empty)
    (fun _ => empty) (fun account account' history _ _ step _ _ => next account account' history step)
    (fun _ _ _ _ _ => rfl)
  obtain ⟨-, final⟩ := executeAll_account documented distinct within kept _
    (genuine started (by simp)) fits reached
    (fun account account' history step _ _ => next account account' history step) executed
  exact ⟨reached fun step member => notCreated step (by simp [member]), final notCreated⟩

end Runs

end Deletion

end RoundTable.Contract
