import RoundTable.Contract.Tenancy

set_option autoImplicit false

namespace RoundTable.Contract

namespace RoundNetInstruction

def creates : RoundNetInstruction → Bool
  | .InitTable _ | .AddSeat _ => true
  | _ => false

def deletes : RoundNetInstruction → Bool
  | .DeleteTable | .RemoveSeat => true
  | _ => false

-- What a creation has written, with the edits made since.
def written (edits : List RoundNetInstruction) : RoundNetInstruction → List UInt8
  | .InitTable closed => ((TableData.new closed).after edits).serialize
  | .AddSeat channelKey => (SeatData.mk channelKey).serialize
  | _ => []

theorem edited_of_kept (instruction : RoundNetInstruction) (notCreates : instruction.creates = false)
    (notDeletes : instruction.deletes = false) : instruction.edited.isSome := by
  cases instruction <;> simp_all [creates, deletes, edited]

end RoundNetInstruction

def Step.isCall : Step → Bool
  | .call .. => true
  | .transfer .. => false

def Place.size : Place → Nat
  | .table _ => TABLE_DATA_SIZE
  | .seat _ _ => SEAT_DATA_SIZE

def Unused (runtime : Runtime) (programId : PublicKey) (known : Set PublicKey) (ledger : Ledger) :
    Prop :=
  ∀ place : Place, place.Within known → (ledger (place.address runtime programId)).data = []

structure Live (programId : PublicKey) (place : Place) (data : List UInt8) (account : Account) :
    Prop where
  owner : account.owner = programId
  funded : 0 < account.lamports
  size : account.data.length = place.size
  data : account.data = data

section Creation

variable {runtime : Runtime} {programId : PublicKey} {known : Set PublicKey} {place : Place}
  {account account' : Account} {step : Step} {instruction : RoundNetInstruction}

-- Right after the creation, and as long as it is not deleted or created again.
structure Written (runtime : Runtime) (programId : PublicKey) (place : Place)
    (instruction : RoundNetInstruction) (funded : Prop) (account : Account) (after : List Step) :
    Prop where
  owner : account.owner = programId
  data : account.data =
    instruction.written (after.filterMap (Step.asks (place.address runtime programId)))
  funded : 0 < account.lamports ↔ funded

theorem Change.written (change : Change runtime programId place step account account')
    (fits : place.Fits programId account)
    (asked : step.asks (place.address runtime programId) = some instruction)
    (creates : instruction.creates = true) :
    instruction.slot = place.slot ∧ Written runtime programId place instruction
      (account.data = [] ∨ 0 < account.lamports) account' [] := by
  cases change with
  | received amount unasked => cases unasked.symm.trans asked
  | spent lamports unasked => cases unasked.symm.trans asked
  | did asked' aimed does =>
    obtain rfl := Option.some.inj (asked.symm.trans asked')
    refine ⟨aimed, ?_⟩
    cases instruction with
    | InitTable closed =>
      obtain ⟨absent, data, owner, funded⟩ := does
      exact ⟨owner, data, by simp [absent, funded]⟩
    | AddSeat channelKey =>
      obtain ⟨data, rest⟩ := does
      split_ifs at rest with absent
      · exact ⟨rest.1, data, by simp [absent, rest.2]⟩
      · exact ⟨rest.1.trans (fits.resolve_left absent).1, data, by simp [absent, rest.2]⟩
    | _ => cases creates

theorem Written.snoc (foreign : programId ≠ systemProgramId) {funded : Prop} {after : List Step}
    (written : Written runtime programId place instruction funded account after)
    (creates : instruction.creates = true) (aimed : instruction.slot = place.slot)
    (isCall : step.isCall = true)
    (kept : ∀ later, step.asks (place.address runtime programId) = some later →
      later.creates = false ∧ later.deletes = false)
    (change : Change runtime programId place step account account') :
    Written runtime programId place instruction funded account' (after ++ [step]) := by
  cases change with
  | received amount unasked paid change =>
    have nothing : amount = 0 := by
      cases step with
      | call => simpa [Step.funds] using paid
      | transfer => cases isCall
    subst nothing change
    exact ⟨written.owner, by simpa [unasked] using written.data, written.funded⟩
  | spent lamports unasked owned => exact absurd (written.owner.symm.trans owned) foreign
  | @did later asked aimed' does =>
    obtain ⟨notCreates, notDeletes⟩ := kept later asked
    have edits := later.edited_of_kept notCreates notDeletes
    obtain ⟨table, table', data, edited, rfl⟩ := later.does_of_edited edits does
    have isTable := RoundNetInstruction.slot_of_edited edits
    cases instruction with
    | InitTable closed =>
      obtain rfl := TableData.serialize_injective (data.symm.trans written.data)
      refine ⟨written.owner, ?_, written.funded⟩
      simp [asked, RoundNetInstruction.written, TableData.after_snoc, edited, Except.toOption]
    | AddSeat channelKey => cases aimed.trans (aimed'.symm.trans isTable)
    | _ => cases creates

theorem RoundNetInstruction.length_written (creates : instruction.creates = true)
    (aimed : instruction.slot = place.slot) (edits : List RoundNetInstruction) :
    (instruction.written edits).length = place.size := by
  cases instruction with
  | InitTable closed =>
    cases place with
    | table owner => exact TableData.length_serialize _
    | seat owner sitter => cases aimed
  | AddSeat channelKey =>
    cases place with
    | table owner => cases aimed
    | seat owner sitter => exact SeatData.length_serialize _
  | _ => cases creates

theorem Written.live_iff {funded : Prop} {ledger : Ledger} {after : List Step}
    (written : Written runtime programId place instruction funded
      (ledger (place.address runtime programId)) after)
    (creates : instruction.creates = true) (aimed : instruction.slot = place.slot) :
    Live programId place
        (instruction.written (after.filterMap (Step.asks (place.address runtime programId))))
        (ledger.purge (place.address runtime programId)) ↔ funded := by
  rw [← written.funded, Ledger.purge]
  split_ifs with poor
  · constructor
    · exact fun live => absurd live.funded (lt_irrefl 0)
    · exact fun rich => absurd poor rich.ne'
  · constructor
    · exact fun live => live.funded
    · intro rich
      refine ⟨written.owner, rich, ?_, written.data⟩
      rw [written.data, RoundNetInstruction.length_written creates aimed]

/-- The last creation in a transaction leaves a live account exactly when the account had no data
or had lamports just before it. -/
theorem creation_live_iff (documented : runtime.Documented)
    (foreign : programId ≠ systemProgramId) (distinct : runtime.Distinct programId known)
    {initial : Ledger} (unused : Unused runtime programId known initial)
    {transactions : List (List Step)}
    (genuine : ∀ transaction ∈ transactions, ∀ step ∈ transaction,
      step.Genuine runtime programId known)
    (within : place.Within known) {before after : List Step}
    (calls : ∀ called ∈ before ++ step :: after,
      called.isCall = true ∧ called.Genuine runtime programId known)
    (asked : step.asks (place.address runtime programId) = some instruction)
    (creates : instruction.creates = true)
    (last : ∀ called ∈ after, ∀ later, called.asks (place.address runtime programId) = some later →
      later.creates = false ∧ later.deletes = false)
    {middle ledger' : Ledger}
    (reached : executeAll runtime programId ((chain runtime programId).run initial transactions).1
      before = some middle)
    (executed : executeAll runtime programId middle (step :: after) = some ledger') :
    Live programId place
        (instruction.written (after.filterMap (Step.asks (place.address runtime programId))))
        (ledger'.purge (place.address runtime programId)) ↔
      (middle (place.address runtime programId)).data = [] ∨
        0 < (middle (place.address runtime programId)).lamports := by
  have fits := chain_fits documented distinct within genuine (.inl (unused place within))
  have fitsMiddle := executeAll_fits documented distinct within
    (fun called member => (calls called (by simp [member])).2) fits reached
  obtain ⟨created, creation, rest⟩ := executeAll_cons.mp executed
  have change := step.change documented distinct place within (calls step (by simp)).2 fitsMiddle
    creation
  obtain ⟨aimed, written⟩ := change.written fitsMiddle asked creates
  have final := (executeAll_account documented distinct within _ []
    (fun called member => (calls called (by simp [member])).2) (change.fits fitsMiddle) written
    (fun account account' history called member fits holds change =>
      holds.snoc foreign creates aimed (calls called (by simp [member])).1 (last called member) change)
    rest).2
  exact final.live_iff creates aimed

def Sample.seated : List (List Step) :=
  [[.call Sample.tableAccounts [0, 0]], [.call (Sample.seatAccounts false) (6 :: Sample.user.bytes)]]

def Sample.leave : Step := .call (Sample.seatAccounts false) [7]

def Sample.sit : Step := .call (Sample.seatAccounts false) (6 :: Sample.user.bytes)

theorem Sample.seat_genuine (input : List UInt8) :
    (Step.call (Sample.seatAccounts false) input).Genuine Sample.runtime PROGRAM_ID
      {key | key ∈ Sample.keys} := Sample.genuine _ (by decide) input

theorem Sample.table_genuine (input : List UInt8) :
    (Step.call Sample.tableAccounts input).Genuine Sample.runtime PROGRAM_ID
      {key | key ∈ Sample.keys} := Sample.genuine _ (by decide) input

theorem Sample.seated_genuine : ∀ transaction ∈ Sample.seated, ∀ step ∈ transaction,
    step.Genuine Sample.runtime PROGRAM_ID {key | key ∈ Sample.keys} := by
  simp only [Sample.seated, List.forall_mem_cons, List.not_mem_nil, IsEmpty.forall_iff,
    implies_true, and_true]
  exact ⟨Sample.table_genuine _, Sample.seat_genuine _⟩

theorem Sample.unused :
    Unused Sample.runtime PROGRAM_ID {key | key ∈ Sample.keys} Sample.funded := by
  intro place _
  rw [Sample.funded]
  split_ifs <;> rfl

theorem Sample.sits_again : ∃ middle ledger',
    executeAll Sample.runtime PROGRAM_ID
      ((chain Sample.runtime PROGRAM_ID).run Sample.funded Sample.seated).1 [Sample.leave] =
        some middle ∧
      executeAll Sample.runtime PROGRAM_ID middle [Sample.sit] = some ledger' ∧
      ledger'.purge (seatAddress Sample.runtime PROGRAM_ID Sample.owner Sample.user) = .absent := by
  have runs : ((executeAll Sample.runtime PROGRAM_ID
      ((chain Sample.runtime PROGRAM_ID).run Sample.funded Sample.seated).1 [Sample.leave]).bind
        fun middle => (executeAll Sample.runtime PROGRAM_ID middle [Sample.sit]).map fun ledger' =>
          ledger'.purge (seatAddress Sample.runtime PROGRAM_ID Sample.owner Sample.user)) =
      some .absent := by decide +kernel
  obtain ⟨middle, reached, rest⟩ := Option.bind_eq_some_iff.mp runs
  obtain ⟨ledger', executed, gone⟩ := Option.map_eq_some_iff.mp rest
  exact ⟨middle, ledger', reached, executed, gone⟩

theorem creation_lost :
    Sample.sit.asks (seatAddress Sample.runtime PROGRAM_ID Sample.owner Sample.user) =
        some (.AddSeat Sample.user) ∧
      ∃ middle ledger', executeAll Sample.runtime PROGRAM_ID
        ((chain Sample.runtime PROGRAM_ID).run Sample.funded Sample.seated).1 [Sample.leave] =
          some middle ∧
        executeAll Sample.runtime PROGRAM_ID middle [Sample.sit] = some ledger' ∧
        ¬Live PROGRAM_ID (.seat Sample.owner Sample.user)
          ((RoundNetInstruction.AddSeat Sample.user).written [])
          (ledger'.purge (seatAddress Sample.runtime PROGRAM_ID Sample.owner Sample.user)) := by
  obtain ⟨middle, ledger', reached, executed, gone⟩ := Sample.sits_again
  refine ⟨by decide +kernel, middle, ledger', reached, executed, fun live => ?_⟩
  rw [gone] at live
  exact absurd live.funded (lt_irrefl 0)

theorem creation_live_iff_again : ∃ middle ledger',
    executeAll Sample.runtime PROGRAM_ID
      ((chain Sample.runtime PROGRAM_ID).run Sample.funded Sample.seated).1 [Sample.leave] =
        some middle ∧
      executeAll Sample.runtime PROGRAM_ID middle [Sample.sit] = some ledger' ∧
      (Live PROGRAM_ID (.seat Sample.owner Sample.user)
          ((RoundNetInstruction.AddSeat Sample.user).written [])
          (ledger'.purge (seatAddress Sample.runtime PROGRAM_ID Sample.owner Sample.user)) ↔
        (middle (seatAddress Sample.runtime PROGRAM_ID Sample.owner Sample.user)).data = [] ∨
          0 < (middle (seatAddress Sample.runtime PROGRAM_ID Sample.owner Sample.user)).lamports) := by
  obtain ⟨middle, ledger', reached, executed, -⟩ := Sample.sits_again
  have within : (Place.seat Sample.owner Sample.user).Within {key | key ∈ Sample.keys} := by
    simp [Place.Within, Sample.keys]
  have asked : Sample.sit.asks ((Place.seat Sample.owner Sample.user).address Sample.runtime
      PROGRAM_ID) = some (.AddSeat Sample.user) := by decide +kernel
  have calls : ∀ called ∈ [Sample.leave] ++ Sample.sit :: [], called.isCall = true ∧
      called.Genuine Sample.runtime PROGRAM_ID {key | key ∈ Sample.keys} := by
    simp only [List.singleton_append, List.forall_mem_cons, List.not_mem_nil, IsEmpty.forall_iff,
      implies_true, and_true]
    exact ⟨⟨rfl, Sample.seat_genuine _⟩, rfl, Sample.seat_genuine _⟩
  exact ⟨middle, ledger', reached, executed, creation_live_iff Sample.runtime_documented (by decide)
    Sample.distinct Sample.unused Sample.seated_genuine within calls asked rfl (by simp) reached
    executed⟩

end Creation

end RoundTable.Contract
